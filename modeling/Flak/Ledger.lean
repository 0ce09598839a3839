import Flak.Firing.Group
import Flak.Remote.Letter

namespace Flak

/-!
# The ledger of an action

The steps of an action hold no more than the number of a firing group. What they find out is written
to the group's record in the `Ledger`, and the phase of the record says what is already there: a step
that runs again goes on where it stopped.
-/

/-- A firing `group` and what it has come to in its `phase`. -/
structure GroupRecord where
  id : GroupId
  group : FiringGroup
  phase : Phase := .pendingRoll
  /-- The firing units that were there when the dice were rolled. -/
  activeFiring : List UnitId := []
  /-- The targets that were there when the dice were rolled. -/
  validTargets : List UnitId := []
  dice : Option Roll := none
  losses : Option Losses := none
  /-- Whether the player who fired was shown the losses. -/
  enemyNotified : Bool := false
  deriving DecidableEq

/-- The hits on the `record` of a group, none before it has rolled. -/
def GroupRecord.hits (record : GroupRecord) : Nat := (record.dice.map Roll.hits).getD 0

/-- What is known of an action: the records of its `groups`, and what they have come to together. -/
structure Ledger where
  battle : BattleId := ⟨0⟩
  /-- The player whose turn runs the action. -/
  player : PlayerId := .nobody
  /-- Nobody is asked anything. -/
  headless : Bool := false
  groups : List GroupRecord := []
  /-- Every unit that the action may hit, in casualty order. -/
  targets : List UnitId := []
  /-- The units killed so far, in the order of selection. -/
  casualties : List UnitId := []
  /-- Why the move cannot be undone. -/
  cantUndo : Option String := none
  /-- Requests that are still out. They belong to the running game and are not saved. -/
  parked : Parked := ∅

namespace Ledger

/-- The `ledger` without its parked requests, as it is when it has been saved and loaded or
    copied. -/
def unparked (ledger : Ledger) : Ledger := { ledger with parked := ∅ }

/-! ### Groups -/

/-- Enters the `group`; its number is its position. -/
def openGroup (group : FiringGroup) (ledger : Ledger) : GroupId × Ledger :=
  let id : GroupId := ⟨ledger.groups.length⟩
  (id, { ledger with groups := ledger.groups ++ [{ id, group }] })

/-- The `record` of the group with this `id`. -/
def record (ledger : Ledger) (id : GroupId) : Except Fault GroupRecord :=
  match ledger.groups[id.index]? with
  | some record => .ok record
  | none => .error (.unknownGroup id)

/-- Makes a `change` to the record of the group with this `id`, if there is one. -/
def updateRecord (id : GroupId) (change : GroupRecord → GroupRecord) (ledger : Ledger) : Ledger :=
  { ledger with groups := ledger.groups.modify id.index change }

/-! ### Casualties -/

/-- Whether the `unit` is among the casualties of the action. -/
def isCasualty (ledger : Ledger) (unit : UnitId) : Bool := unit ∈ ledger.casualties

/-- The targets of the `ledger` that were not killed yet. -/
def remainingTargets (ledger : Ledger) : List UnitId :=
  ledger.targets.filter fun unit => !ledger.isCasualty unit

/-- Adds the `unit` to a list of `casualties` that does not hold it. -/
def addCasualty (casualties : List UnitId) (unit : UnitId) : List UnitId :=
  if unit ∈ casualties then casualties else casualties ++ [unit]

/-- Adds the `killed` units to the casualties of the `ledger`, each once. -/
def recordKilled (killed : List UnitId) (ledger : Ledger) : Ledger :=
  { ledger with casualties := killed.foldl addCasualty ledger.casualties }

/-- Notes why the move cannot be undone. The first `reason` stays. -/
def forbidUndo (reason : String) (ledger : Ledger) : Ledger :=
  { ledger with cantUndo := some (ledger.cantUndo.getD reason) }

/-! ### Parked requests -/

/-- Keeps the `request` for later, under its `RequestKey`. -/
def park (group : GroupId) (player : PlayerId) (request : Request) (ledger : Ledger) : Ledger :=
  { ledger with parked := ledger.parked.insert ⟨group, player⟩ request }

/-- Takes out the request kept for the `group` and `player`. -/
def unpark (group : GroupId) (player : PlayerId) (ledger : Ledger) : Option Request × Ledger :=
  (ledger.parked[(⟨group, player⟩ : RequestKey)]?,
    { ledger with parked := ledger.parked.erase ⟨group, player⟩ })

end Ledger

end Flak
