import Flak.Host
import Flak.Ledger
import Flak.Rehearsal.Behaviour

namespace Flak

/-!
# Rehearsals

* `Script` — the behaviours of a scripted player, one row for each kind of letter.
* `Actor` — a scripted player at an address, with a gate.
* `Host.release`, `Ledger.release` — open all gates.

Which letters an actor has had is read off the correspondence of the host.
-/

/-- Kinds of letters: those that tell something and those that ask. -/
inductive LetterKind where
  | report
  | confirmation
  | choice
  | acknowledgement
  deriving DecidableEq

/-- Where the letter of an `Event` went and what kind it is of, if the event is a letter. -/
def Event.letter? : Event → Option (String × LetterKind)
  | .reported address _ _ => some (address, .report)
  | .asked address _ _ (.confirm _) => some (address, .confirmation)
  | .asked address _ _ (.choose _) => some (address, .choice)
  | .informed address _ _ _ => some (address, .acknowledgement)
  | .settled _ _ _ _ => none

/-- Behaviours for the letters of each `LetterKind`, in order. The last of a row serves for all that
    follow. -/
structure Script where
  reports : List Behaviour := []
  confirmations : List Behaviour := []
  choices : List Behaviour := []
  acknowledgements : List Behaviour := []
  deriving DecidableEq

/-- The behaviours of the `script` for the letters of a kind. -/
def Script.row (script : Script) : LetterKind → List Behaviour
  | .report => script.reports
  | .confirmation => script.confirmations
  | .choice => script.choices
  | .acknowledgement => script.acknowledgements

/-- A scripted `player` at an `address`. -/
structure Actor where
  player : PlayerId
  /-- Where letters to this actor are recorded. -/
  address : String
  script : Script
  /-- Whether the gate is open. -/
  isOpen : Bool := false

namespace Actor

/-- The address of one more actor for the `player`: the player's name, numbered from the second
    on. -/
def nextAddress (player : PlayerId) (actors : List Actor) : String :=
  match actors.countP fun actor => actor.player = player with
  | 0 => player.name
  | earlier => s!"{player.name}/{earlier}"

/-- The `actor` as a player who can be reached. -/
def remote (actor : Actor) : Remote where
  address := actor.address
  confirmations := actor.script.confirmations.map (Behaviour.call () fun _ => ())
  choices := actor.script.choices.map (Behaviour.call none some)
  acknowledgements := actor.script.acknowledgements.map (Behaviour.call () fun _ => ())
  reports := actor.script.reports.map Behaviour.callsOff

/-- How many of these `events` are letters of the `kind` to the `actor`. -/
def lettersOf (actor : Actor) (kind : LetterKind) (events : List Event) : Nat :=
  events.countP fun event => event.letter? = some (actor.address, kind)

/-- The behaviours that the letters of the `kind` have met. -/
def shown (actor : Actor) (kind : LetterKind) (events : List Event) : List Behaviour :=
  let row := actor.script.row kind
  (List.range (actor.lettersOf kind events)).filterMap fun i => row[min i (row.length - 1)]?

/-- The behaviours of the workers that letters to the `actor` have set to work. A report is read at
    once and sets no worker to work. -/
def work (actor : Actor) (events : List Event) : List Behaviour :=
  [LetterKind.confirmation, .choice, .acknowledgement].flatMap fun kind => actor.shown kind events

/-- Whether workers that the `actor` holds call off waiting once they are let go. -/
def callsOffOnRelease (actor : Actor) (events : List Event) : Bool :=
  !actor.isOpen && (actor.work events).any Behaviour.callsOffLater

end Actor

/-! ### Parked requests -/

/-- A `Request` with a `change` made to its call. -/
def Request.mapCall (change : {α : Type} → Call α → Call α) : Request → Request
  | .confirmation asked => .confirmation { asked with call := change asked.call }
  | .choice asked => .choice { asked with call := change asked.call }

/-- The `ledger` when nothing holds the workers of parked requests. -/
def Ledger.release (ledger : Ledger) : Ledger :=
  { ledger with parked := ledger.parked.map fun _ => Request.mapCall Call.released }

/-! ### The host -/

namespace Host

variable {ρ : Type}

/-- The `host` when all gates have been opened: workers that were held come to their end, and calls
    that are made from now on are not held. -/
def release (actors : List Actor) (host : Host ρ) : Host ρ :=
  { host with
    cancelled := host.cancelled || actors.any fun actor =>
      actor.callsOffOnRelease host.correspondence
    remotes := host.remotes.map fun _ remote => { remote with
      confirmations := remote.confirmations.map Call.opened
      choices := remote.choices.map Call.opened
      acknowledgements := remote.acknowledgements.map Call.opened } }

end Host

end Flak
