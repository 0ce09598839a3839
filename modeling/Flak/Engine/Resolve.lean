import Flak.Board.Census
import Flak.Engine.Exchange
import Flak.Losses.Check
import Flak.Losses.Select

namespace Flak

/-!
# The three steps of a firing group

* `Engine.rollDice` — rolls for the group.
* `Engine.selectCasualties` — decides who is lost and marks it on the board.
* `Engine.notifyCasualties` — has the losses confirmed and takes off the board what has to go.

Each step looks at the phase of the group first. A step whose work is already recorded does nothing.
-/

namespace Engine

variable {ρ : Type}

/-- Whether the work of a step is due on the `record`: not if the group is past the `expected`
    phase, and it is a fault if the group has not come so far. -/
def due (record : GroupRecord) (expected : Phase) : Except Fault Bool :=
  if record.phase = expected then .ok true
  else if expected.rank < record.phase.rank then .ok false
  else .error (.phaseMismatch record.id expected record.phase)

/-! ### Roll -/

/-- The targets of the `group` that are still on the board and not yet killed. -/
def openTargets (scene : Scene ρ) (group : FiringGroup) : List UnitId :=
  group.targets.filter fun unit =>
    !scene.ledger.isCasualty unit && scene.host.board.hasUnit unit

/-- The firing units that still stand in the `territory` of the `board`, with their abilities. -/
def gunsIn (board : Board) (territory : String) : List UnitId → Except Fault (List (UnitId × AntiAir))
  | [] => .ok []
  | unit :: rest =>
      if board.standsIn unit territory then do
        let (_, type) ← board.unitWithType unit
        let guns ← gunsIn board territory rest
        return match type.aa with
          | some aa => (unit, aa) :: guns
          | none => guns
      else gunsIn board territory rest

/-- The size of the die that these `guns` roll: that of the first, or the game's. -/
def sidesOf (rules : Rules) (guns : List (UnitId × AntiAir)) : Nat :=
  ((guns.head?.bind fun gun => gun.2.diceSides).getD rules.diceSides)

/-- Rolls the dice of the group `id`. Without targets or guns the group is done at once. -/
def rollDice [RandomSource ρ] (id : GroupId) : Engine ρ Unit := do
  let record ← record id
  if ← of (due record .pendingRoll) then
    let group := record.group
    let scene ← get
    let board := scene.host.board
    let targets := openTargets scene group
    let guns ← of (gunsIn board group.territory group.firingUnits)
    if targets.isEmpty || guns.isEmpty then
      changeLedger (·.updateRecord id fun record => { record with phase := .done })
    else
      let shooters := guns.map fun gun => Shooter.ofAbility gun.1 gun.2
      let roll ← withDice (Roll.fire shooters targets.length (sidesOf board.rules guns)
        board.rules.lowLuck s!"Roll {group.kind} in {group.territory}")
      changeLedger (·.updateRecord id fun record => { record with
        activeFiring := shooters.map Shooter.unit
        validTargets := targets
        dice := some roll
        phase := .rolled })

/-! ### Select -/

/-- What the player who is hit by the `group` is asked. -/
def requestOf (ledger : Ledger) (group : FiringGroup) (roll : Roll) (targets : List Target)
    (default : Losses) : CasualtyRequest where
  battle := ledger.battle
  territory := group.territory
  kind := group.kind
  dice := roll
  targets := targets.map Target.unit
  defaultSelection := default

/-- What the player chose, if it is valid for the `targets`; the `default` otherwise. -/
def ruling (targets : List Target) (hits : Nat) (default : Losses) : Option Losses → Losses
  | some losses =>
      match losses.check targets hits with
      | .ok () => losses
      | .error _ => default
  | none => default

/-- The losses of a group that scored hits: the player's choice if it is asked for and valid, the
    default of the `Losses.select` otherwise. -/
def chooseLosses [RandomSource ρ] (timing : Timing) (record : GroupRecord) (id : GroupId)
    (roll : Roll) (targets : List Target) : Engine ρ Losses := do
  let group := record.group
  let mode := (← get).host.board.rules.casualtyMode
  let default ← withDice (Losses.select mode targets roll.hits
    s!"{group.kind} casualties in {group.territory}")
  of (default.check targets roll.hits)
  let ledger := (← get).ledger
  if mode = .interactive ∧ !ledger.headless then
    let choice ← askForLosses timing id group.hitPlayer
      (requestOf ledger group roll targets default)
    return ruling targets roll.hits default choice
  else return default

/-- What the player whose turn it is hears of a selection of `losses`. -/
def hitReport (group : FiringGroup) (hits : Nat) (losses : Losses) : String :=
  if hits = 0 then s!"No {group.kind} hits in {group.territory}"
  else s!"{losses.size} {group.kind} hits in {group.territory}"

/-- Reports the `losses`, marks the damage and writes the dead into history and ledger. -/
def commitLosses (id : GroupId) (group : FiringGroup) (hits : Nat) (losses : Losses) :
    Engine ρ Unit := do
  let player := (← get).ledger.player
  changeHost (·.report player (hitReport group hits losses) group.kind)
  changeBoard (Board.markDamaged losses.damaged)
  if !losses.killed.isEmpty then
    let board := (← get).host.board
    changeHost (·.addHistory s!"{board.censusText losses.killed} lost in {group.territory}"
      losses.killed)
  changeLedger (·.recordKilled losses.killed)
  changeLedger (·.updateRecord id fun record =>
    { record with losses := some losses, phase := .casualtiesSelected })

/-- Decides who is lost to the hits of the group `id`. -/
def selectCasualties [RandomSource ρ] (timing : Timing) (id : GroupId) : Engine ρ Unit := do
  let record ← record id
  if ← of (due record .rolled) then
    let roll := record.dice.getD {}
    let targets ← of ((← get).host.board.targets record.validTargets)
    let losses ← if roll.hits = 0 then pure {} else chooseLosses timing record id roll targets
    commitLosses id record.group roll.hits losses

/-! ### Notify -/

/-- Takes the dead of a group off the board, if the group removes them at once; its `losses` name
    them. -/
def clearDead (record : GroupRecord) (losses : Losses) : Engine ρ Unit := do
  if record.group.removal = .removeFromBoard ∧ !losses.killed.isEmpty then
    changeBoard (Board.removeUnits record.group.territory losses.killed)

/-- The guns of a group that are spent on its hits, read off its `record`. -/
def spentGuns (board : Board) (record : GroupRecord) : List UnitId :=
  (record.activeFiring.filter fun unit => board.standsIn unit record.group.territory).take
    record.hits

/-- Takes the `spentGuns` of a group off the board. -/
def clearSpent (record : GroupRecord) : Engine ρ Unit := do
  if record.group.suicideOnHit ∧ 0 < record.hits then
    let spent := spentGuns (← get).host.board record
    if !spent.isEmpty then
      changeBoard (Board.removeUnits record.group.territory spent)

/-- Takes the dead of a group off the board by `clearDead`, and then the guns spent on them. -/
def clearBoard (record : GroupRecord) (losses : Losses) : Engine ρ Unit := do
  clearDead record losses
  clearSpent record

/-- What the player who was hit is asked to confirm: the `losses` of the group on `record`. -/
def noticeOf (ledger : Ledger) (record : GroupRecord) (losses : Losses) : CasualtyNotice where
  battle := ledger.battle
  message := s!"{record.group.hitPlayer.name} remove {record.group.kind} casualties"
  dice := record.dice.getD {}
  losses := losses

/-- Has the `losses` of the group `id` confirmed. -/
def confirm (id : GroupId) (record : GroupRecord) (losses : Losses) : Engine ρ Unit := do
  let ledger := (← get).ledger
  if !ledger.headless then
    confirmLosses id record.group (noticeOf ledger record losses)
  changeLedger (·.updateRecord id fun record => { record with phase := .confirmed })

/-- Ends the group `id`, whose `losses` are confirmed. -/
def finish (id : GroupId) (record : GroupRecord) (losses : Losses) : Engine ρ Unit := do
  clearBoard record losses
  changeLedger (·.updateRecord id fun record => { record with phase := .done })

/-- Has the losses of the group `id` confirmed and ends the group. -/
def notifyCasualties (id : GroupId) : Engine ρ Unit := do
  let record ← record id
  let losses := record.losses.getD {}
  match record.phase with
  | .done => pure ()
  | .confirmed => finish id record losses
  | _ =>
      if ← of (due record .casualtiesSelected) then
        confirm id record losses
        finish id record losses

end Engine

end Flak
