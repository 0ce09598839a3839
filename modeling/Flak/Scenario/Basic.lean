import Flak.Dice.Seeded
import Flak.Fire.Engagement
import Flak.Fire.Overflight

namespace Flak

/-!
# Scenarios and reports

* `Scenario` — a board, the acting player, a move if there is one, and any number of battles.
* `Report` — what fired, the dice, and what was lost.
* `Scenario.run` — plays a scenario to its end.
-/

/-- A `board` with a move and `battles` on it. -/
structure Scenario where
  board : Board
  player : PlayerId
  route : Option Route := none
  /-- The units that move along the route. -/
  units : List UnitId := []
  battles : List BattleFire := []
  /-- The seed of the dice; none or zero leaves it to chance. -/
  seed : Option Nat := none
  /-- Die values to replay in place of seeded dice. -/
  dice : Option (List Nat) := none
  /-- Whether every player takes part and agrees to everything. -/
  interactive : Bool := false

/-- Why the `scenario` is refused, if it is. -/
def Scenario.objection? (scenario : Scenario) : Option String :=
  if scenario.route.isNone && !scenario.units.isEmpty then
    some "moving units given without a route"
  else none

/-! ### Reports -/

/-- One firing group as it came out, with the units it `killed` and `damaged`. -/
structure GroupSummary where
  territory : String
  kind : String
  firingPlayer : PlayerId
  hitPlayer : PlayerId
  dice : List Nat
  hits : Nat
  killed : List UnitId
  damaged : List (UnitId × Nat)
  deriving DecidableEq

/-- What a report says of the group on `record`. -/
def GroupRecord.summary (record : GroupRecord) : GroupSummary :=
  let losses := record.losses.getD {}
  { territory := record.group.territory
    kind := record.group.kind
    firingPlayer := record.group.firingPlayer
    hitPlayer := record.group.hitPlayer
    dice := (record.dice.map fun roll => roll.dice.map Die.value).getD []
    hits := record.hits
    killed := losses.killed
    damaged := losses.damaged }

/-- What came of a `Scenario`. -/
structure Report where
  /-- The territories along the route where anti-air fired. -/
  firedIn : List String := []
  /-- The moving units killed, for the host to remove. -/
  casualties : List UnitId := []
  cantUndo : Option String := none
  /-- The units that battles removed from the board. -/
  battleCasualties : List UnitId := []
  groups : List GroupSummary := []
  history : List HistoryEntry := []
  /-- What each player was told, if players took part. -/
  messages : Std.ExtTreeMap PlayerId (List String) := ∅

/-! ### Messages -/

/-- The line that an entry of the correspondence leaves with a player who agrees to everything, and
    the address it went to. -/
def Event.line? : Event → Option (String × String)
  | .reported address message _ => some (address, message)
  | .asked address _ _ (.confirm notice) => some (address, s!"own: {notice.message}")
  | .informed address _ notice _ => some (address, s!"enemy: {notice.message}")
  | .asked _ _ _ (.choose _) => none
  | .settled _ _ _ _ => none

/-- The lines that the `correspondence` leaves at the `address`. -/
def linesAt (address : String) (correspondence : List Event) : List String :=
  correspondence.filterMap fun event =>
    match event.line? with
    | some (place, line) => if place = address then some line else none
    | none => none

/-! ### Running -/

namespace Scenario

variable {ρ : Type}

/-- The host of the `scenario` with these `dice`. Players who take part agree to everything. -/
def host (scenario : Scenario) (dice : ρ) : Host ρ :=
  let host : Host ρ :=
    { board := scenario.board, player := scenario.player, headless := !scenario.interactive, dice }
  if scenario.interactive then
    scenario.board.players.foldl
      (fun host player => host.connect player.id { address := player.id.name }) host
  else host

/-- The lines of every player who takes part in the `scenario`, by `linesAt`. -/
def messages (scenario : Scenario) (correspondence : List Event) :
    Std.ExtTreeMap PlayerId (List String) :=
  if scenario.interactive then
    scenario.board.players.foldl
      (fun messages player => messages.insert player.id (linesAt player.id.name correspondence)) ∅
  else ∅

variable [RandomSource ρ]

/-- The move of the `scenario`, if it has one. -/
def runMove (scenario : Scenario) (timing : Timing) (host : Host ρ) :
    Except Fault (Report × Host ρ) :=
  match scenario.route with
  | none => .ok ({}, host)
  | some route => do
      let firedIn ← host.board.firingTerritories host.player route scenario.units
      let (result, fire, handle, host) := ({ timing } : Overflight).fireAlong host route
        scenario.units BoardUnit.leastMovementFirst {}
      let casualties ← result
      return ({ firedIn, casualties, cantUndo := handle.cantUndo,
                groups := fire.ledger.groups.map GroupRecord.summary }, host)

/-- Firings that share a `Scene`, one after another, and the units that they killed. -/
def runBattles (timing : Timing) : List BattleFire → Scene ρ → Except Fault (List UnitId × Scene ρ)
  | [], scene => .ok ([], scene)
  | battle :: rest, scene => do
      let (result, _, scene) := ({} : Engagement).fire timing battle scene
      let killed ← result
      let (others, scene) ← runBattles timing rest scene
      return (killed ++ others, scene)

/-- Plays the `scenario` with these `dice`: first `runMove`, then `runBattles`. -/
def runWith (scenario : Scenario) (timing : Timing) (dice : ρ) : Except Fault Report := do
  let (report, host) ← scenario.runMove timing (scenario.host dice)
  let ledger : Ledger := { battle := ⟨1⟩, player := host.player, headless := host.headless }
  let (battleCasualties, scene) ← runBattles timing scenario.battles ⟨host, ledger⟩
  return { report with
    battleCasualties
    groups := report.groups ++ scene.ledger.groups.map GroupRecord.summary
    history := scene.host.history
    messages := scenario.messages scene.host.correspondence }

/-- The dice of the `scenario`: its script, or the `seed`, the given one before its own; `chance` if
    the seed is zero or there is none. -/
def source (scenario : Scenario) (seed : Option Nat) (chance : GameDice) : GameDice :=
  match scenario.dice with
  | some script => .ofScript script
  | none =>
      match (seed.or scenario.seed).getD 0 with
      | 0 => chance
      | seed => .ofSeed seed

/-- Plays the `scenario`. The `seed` that is given comes before the scenario's own. -/
def run (scenario : Scenario) (timing : Timing) (seed : Option Nat) (chance : GameDice) :
    Except Fault Report :=
  scenario.runWith timing (scenario.source seed chance)

end Scenario

end Flak
