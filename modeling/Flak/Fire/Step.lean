import Flak.Agenda
import Flak.Engine.Resolve
import Flak.Fire.Route
import Flak.Firing.Muster

namespace Flak

/-!
# Steps of an action

* `BattleFire` — one firing of anti-air that opens a battle.
* `Plan` — fire in a territory on a route, or in a battle. It becomes one roll, one selection and
  one notice for each firing group.
* `Step` — a plan, or a stage of a group. `Step.perform` runs it and says what is to be done next.
-/

/-- A firing of anti-air in a `territory` that opens a battle. -/
structure BattleFire where
  territory : String
  firingPlayer : PlayerId
  hitPlayer : PlayerId
  firingUnits : List UnitId
  /-- The units that may be shot at, in casualty order. -/
  targets : List UnitId
  /-- Whether the units that fire defend; only then can airborne units be hit as such. -/
  defending : Bool
  deriving DecidableEq

/-- Fire that has not been split into groups yet: at an `overflight`, or in a `battle`. -/
inductive Plan where
  | overflight (territory : String) (targets : List UnitId)
  | battle (fire : BattleFire)
  deriving DecidableEq

/-- What a firing group goes through, from `roll` to `notify`. -/
inductive Stage where
  | roll
  | select
  | notify
  deriving DecidableEq

/-- A piece of an action that can fail and run again: a `plan`, or a `stage` of a group. -/
inductive Step where
  | plan (plan : Plan)
  | stage (stage : Stage) (group : GroupId)
  deriving DecidableEq

/-! ### Planning -/

/-- The groups that fire in the `territory` at units flying over. -/
def Board.overflightMuster (board : Board) (acting : PlayerId) (territory : Territory)
    (name : String) (remaining : List UnitId) : Muster :=
  let moving := remaining.filterMap board.unit?
  let player := movingPlayer acting moving
  { territory := name
    aaUnits := territory.units.filter (board.canFireAt moving player)
    candidates := remaining
    hitPlayer := player
    firingPlayer := none
    airborneAllowed := true
    removal := .returnToHost }

/-- The groups that `fire` in a battle, given the targets that were not killed yet. -/
def Board.battleMuster (board : Board) (fire : BattleFire) (candidates : List UnitId) : Muster where
  territory := fire.territory
  aaUnits := fire.firingUnits.filter fun unit =>
    board.standsIn unit fire.territory && (board.ability? unit).isSome
  candidates := candidates
  hitPlayer := fire.hitPlayer
  firingPlayer := some fire.firingPlayer
  airborneAllowed := fire.defending
  removal := .removeFromBoard

/-- Why a move cannot be undone once the `kind` of anti-air has fired. -/
def undoReason (kind : String) : String := s!"Move cannot be undone after {kind} has fired."

namespace Plan

variable {ρ : Type}

/-- The groups that a `Plan` comes to. Groups that fire at a move make it final. -/
def groups : Plan → Engine ρ (List FiringGroup)
  | .overflight name targets => do
      let scene ← get
      let board := scene.host.board
      let remaining := targets.filter fun unit =>
        !scene.ledger.isCasualty unit && board.hasUnit unit
      if remaining.isEmpty then return []
      let territory ← Engine.of (board.territory name)
      let groups := board.muster
        (board.overflightMuster scene.ledger.player territory name remaining)
      Engine.changeLedger fun ledger =>
        groups.foldl (fun ledger group => ledger.forbidUndo (undoReason group.kind)) ledger
      return groups
  | .battle fire => do
      let scene ← get
      let board := scene.host.board
      let _ ← Engine.of (board.territory fire.territory)
      let candidates := fire.targets.filter fun unit => !scene.ledger.isCasualty unit
      return board.muster (board.battleMuster fire candidates)

/-- Enters groups into the ledger by `openGroup`, in order. -/
def openGroups : List FiringGroup → Engine ρ (List GroupId)
  | [] => pure []
  | group :: rest => do
      let id ← modifyGet fun scene =>
        let (id, ledger) := scene.ledger.openGroup group
        (id, { scene with ledger })
      let ids ← openGroups rest
      return id :: ids

/-- Enters the groups of the `plan` into the ledger. -/
def carryOut (plan : Plan) : Engine ρ (List GroupId) := do
  openGroups (← plan.groups)

end Plan

/-! ### Performing -/

/-- Runs a stage of the `group`. -/
def Stage.perform {ρ : Type} [RandomSource ρ] (timing : Timing) (group : GroupId) :
    Stage → Engine ρ Unit
  | .roll => Engine.rollDice group
  | .select => Engine.selectCasualties timing group
  | .notify => Engine.notifyCasualties group

namespace Step

/-- All stages that the `group` goes through, in order. -/
def allOf (group : GroupId) : List Step :=
  [.stage .roll group, .stage .select group, .stage .notify group]

/-- Whether a step is a `plan`. -/
def isPlan : Step → Bool
  | .plan _ => true
  | .stage _ _ => false

/-- No plan is among all that `groups` go through. -/
theorem countP_isPlan_flatMap_allOf (groups : List GroupId) :
    (groups.flatMap allOf).countP isPlan = 0 := by
  induction groups with
  | nil => rfl
  | cons group rest ih =>
    rw [List.flatMap_cons, List.countP_append, ih]
    rfl

variable {ρ : Type} [RandomSource ρ]

/-- Runs a step; the result is what is to be done next, before everything else. A `plan` gives all
    stages of its groups, and a `stage` gives nothing. -/
def perform (timing : Timing) : Step → Engine ρ (List Step)
  | .plan p => do return (← p.carryOut).flatMap allOf
  | .stage s group => do
      s.perform timing group
      return []

/-- Runs a step from an agenda with `perform`, and queues what comes of it. -/
def execute (timing : Timing) : Agenda.Executor Step (Scene ρ) Fault :=
  fun step agenda scene =>
    match (step.perform timing).onScene scene with
    | (.error fault, scene) => (.error fault, agenda, scene)
    | (.ok next, scene) => (.ok (), agenda.pushAll next, scene)

/-! ### Running to the end -/

/-- Runs these `steps` and all that comes of them, and counts them in `done`. A plan leaves stages
    only and a stage leaves nothing, so this ends. -/
def drainQueued (timing : Timing) (done : Nat) (steps : List Step) (scene : Scene ρ) :
    Except Fault Nat × Agenda Step × Scene ρ :=
  match steps with
  | [] => (.ok done, {}, scene)
  | .stage s group :: rest =>
      match (s.perform timing group).onScene scene with
      | (.error fault, scene) => (.error fault, ⟨rest, some (.stage s group)⟩, scene)
      | (.ok (), scene) => drainQueued timing (done + 1) rest scene
  | .plan p :: rest =>
      match p.carryOut.onScene scene with
      | (.error fault, scene) => (.error fault, ⟨rest, some (.plan p)⟩, scene)
      | (.ok groups, scene) => drainQueued timing (done + 1) (groups.flatMap allOf ++ rest) scene
termination_by (steps.countP isPlan, steps.length)
decreasing_by
  · exact Prod.Lex.right' _ (by simp [isPlan]) (by simp)
  · refine Prod.Lex.left _ _ ?_
    rw [List.countP_append, countP_isPlan_flatMap_allOf, List.countP_cons_of_pos rfl]
    omega

end Step

namespace Agenda

variable {ρ : Type} [RandomSource ρ]

/-- Runs at most `limit` steps of the `agenda`, or all there are, and counts them. -/
def run (timing : Timing) (limit : Option Nat) (agenda : Agenda Step) (scene : Scene ρ) :
    Except Fault Nat × Agenda Step × Scene ρ :=
  match limit with
  | some limit => agenda.runSteps (Step.execute timing) limit scene
  | none => Step.drainQueued timing 0 agenda.pending scene

end Agenda

end Flak
