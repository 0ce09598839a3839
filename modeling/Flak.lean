import Flak.Main
import Flak.Rehearsal.Actor
import Flak.Remote.Diagnostic
import Flak.Proofs.Board.Changes
import Flak.Proofs.Engine.Exchange
import Flak.Proofs.Losses.Check
import Flak.Proofs.Engine.Resolve
import Flak.Proofs.Fire.Advance
import Flak.Proofs.Fire.Planning
import Flak.Proofs.Fire.Failure
import Flak.Proofs.Fire.Attendance
import Flak.Proofs.Json.Number
import Flak.Proofs.Json.Quoted
import Flak.Proofs.Json.Text
import Flak.Proofs.Json.Schema
import Flak.Proofs.Save.Reload
import Flak.Proofs.Fire.Performed
import Flak.Proofs.Fire.Course
import Flak.Proofs.Fire.Independence
import Flak.Proofs.Fire.Toll
import Flak.Proofs.Fire.Lockstep
import Flak.Proofs.Fire.Underway
import Flak.Proofs.Fire.Bounds
import Flak.Proofs.Fire.Resumption
import Flak.Proofs.Engine.Conversation
import Flak.Proofs.Fire.Proceeds
import Flak.Proofs.Fire.Correspondence
import Flak.Proofs.Fire.Effects
import Flak.Proofs.Fire.Outstanding
import Flak.Proofs.Fire.Orderly
import Flak.Proofs.Fire.Order
import Flak.Proofs.Fire.Records
import Flak.Proofs.Fire.Acknowledgement
import Flak.Proofs.Agenda.DepthFirst
import Flak.Proofs.Losses.Selection
import Flak.Proofs.Board.Wear
import Flak.Proofs.Board.Reduced
import Flak.Proofs.Engine.Dependable
import Flak.Proofs.Fire.Grounded
import Flak.Proofs.Fire.Balance
import Flak.Proofs.Fire.Conservation
import Flak.Proofs.Scenario.Casualties
import Flak.Proofs.Scenario.Battles
import Flak.Proofs.Scenario.Reported
import Flak.Proofs.Fire.Additions
import Flak.Proofs.Fire.Melee
import Flak.Proofs.Fire.Allegiance
import Flak.Proofs.Board.Consistency
import Flak.Proofs.Fire.Consistency
import Flak.Proofs.Fire.Listing
import Flak.Proofs.Fire.Foretold
import Flak.Proofs.Fire.Finality
import Flak.Proofs.Fire.Silence
import Flak.Proofs.Fire.Quarry
import Flak.Proofs.Json.Abridged
import Flak.Proofs.Save.Persisted
import Flak.Proofs.Board.Reach
import Flak.Proofs.Losses.Fewest
import Flak.Proofs.Fire.Waypoints
import Flak.Proofs.Firing.Division
import Flak.Proofs.Firing.Aim
import Flak.Proofs.Losses.Realised
import Flak.Proofs.Losses.Modulus
import Flak.Proofs.Losses.Chance
import Flak.Proofs.Dice.Allotment
import Flak.Proofs.Board.Census
import Flak.Proofs.Dice.Expectation
import Flak.Proofs.Agenda.Views
import Flak.Proofs.Engine.Rounds
import Flak.Proofs.Runner.CommandLine
