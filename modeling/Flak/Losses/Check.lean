import Flak.Losses.Basic

namespace Flak.Losses

/-!
# Checking losses

`Losses.check` accepts losses that give out exactly the hits there are to valid targets: every unit
is a target, none comes up twice, a damaged unit survives, and the hits used up are as many as were
scored, or the hit points of all targets if those are fewer.
-/

/-- The hits that kill the units, each one of the `targets` and not seen before; and the units seen
    after them. -/
def killHits (targets : List Target) :
    List UnitId → List UnitId → Except Fault (Nat × List UnitId)
  | seen, [] => .ok (0, seen)
  | seen, unit :: rest =>
      match targets.find? fun target => target.unit = unit with
      | none => .error (.casualtyNotTargeted unit)
      | some target =>
          if unit ∈ seen then .error (.casualtyNotTargeted unit)
          else do
            let (hits, seen) ← killHits targets (unit :: seen) rest
            return (target.hitPoints + hits, seen)

/-- The hits on units that survive them, each one of the `targets` and not seen before. -/
def damageHits (targets : List Target) :
    List UnitId → List (UnitId × Nat) → Except Fault Nat
  | _, [] => .ok 0
  | seen, (unit, taken) :: rest =>
      match targets.find? fun target => target.unit = unit with
      | none => .error (.casualtyNotTargeted unit)
      | some target =>
          if unit ∈ seen ∨ taken = 0 ∨ target.hitPoints ≤ taken then
            .error (.casualtyNotTargeted unit)
          else do
            let hits ← damageHits targets (unit :: seen) rest
            return taken + hits

/-- Whether the `losses` give out exactly the `hits` available to valid `targets`. -/
def check (losses : Losses) (targets : List Target) (hits : Nat) : Except Fault Unit := do
  if targets.length < losses.size then
    throw (.casualtyOverflow losses.size targets.length)
  let (killing, seen) ← killHits targets [] losses.killed
  let damaging ← damageHits targets seen losses.damaged
  let consumed := killing + damaging
  let expected := min hits (Target.capacity targets)
  if consumed ≠ expected then throw (.casualtyOverflow consumed expected)

end Flak.Losses
