import Flak.Board.Basic

namespace Flak

/-!
# Losses

* `Losses` — the units that a roll killed, and those it damaged with the hits they took.
* `Target` — a unit that can be hit and the hit points it has left.
* `Board.targets` — the targets among units; units without hit points left are dropped.
* `Losses.ofApplied` — the losses when each target takes a given number of hits.
-/

/-- Units `killed`, and units `damaged` with the hits they take. -/
structure Losses where
  killed : List UnitId := []
  damaged : List (UnitId × Nat) := []
  deriving DecidableEq

namespace Losses

/-- Whether the `losses` name no unit at all. -/
def isEmpty (losses : Losses) : Bool := losses.killed.isEmpty && losses.damaged.isEmpty

/-- How many entries the `losses` have, killed and damaged together. -/
def size (losses : Losses) : Nat := losses.killed.length + losses.damaged.length

end Losses

/-- A unit that can be hit and the `hitPoints` it has left. -/
structure Target where
  unit : UnitId
  hitPoints : Nat
  deriving DecidableEq

/-- The hit points of all `targets` together. -/
def Target.capacity (targets : List Target) : Nat :=
  targets.foldl (fun points target => points + target.hitPoints) 0

/-- The targets on the `board` among the units, in their order. -/
def Board.targets (board : Board) : List UnitId → Except Fault (List Target)
  | [] => .ok []
  | id :: rest => do
      let (unit, type) ← board.unitWithType id
      let others ← board.targets rest
      let left := unit.hitPointsLeft type
      return if left = 0 then others else ⟨id, left⟩ :: others

/-- The losses when each `Target` takes the number of hits beside it: as many hits as it has points
    kill it, fewer damage it. -/
def Losses.ofApplied : List (Target × Nat) → Losses
  | [] => {}
  | (target, hits) :: rest =>
      let others := ofApplied rest
      if hits = 0 then others
      else if target.hitPoints ≤ hits then { others with killed := target.unit :: others.killed }
      else { others with damaged := (target.unit, hits) :: others.damaged }

end Flak
