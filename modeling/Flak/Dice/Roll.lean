import Flak.Board.Unit
import Flak.Dice.Source

namespace Flak

/-!
# Rolling for a firing group

* `Shooter.allot` — one die for each target, handed to the strongest shooters first, each within
  its cap.
* `Roll` — the outcome of a roll. A die below its threshold is a hit.
* `Roll.standard` — every die against the strength of its shooter.
* `Roll.lowLuck` — the strengths are pooled: a hit for each full die, one die for the remainder.
* `Roll.fire` — either of them, with never more hits than targets.
-/

/-! ### Shooters -/

/-- The part of a firing `unit` in a roll: how strong its dice are, and how many it may roll. -/
structure Shooter where
  unit : UnitId
  strength : Nat
  maxAttacks : Int
  deriving DecidableEq

namespace Shooter

/-- The `unit` that fires with the ability `aa`. -/
def ofAbility (unit : UnitId) (aa : AntiAir) : Shooter := ⟨unit, aa.strength, aa.maxAttacks⟩

/-- The most dice the `shooter` may roll at this many `targets`. -/
def cap (shooter : Shooter) (targets : Nat) : Nat :=
  if shooter.maxAttacks < 0 then targets else min shooter.maxAttacks.toNat targets

/-- The `shooters` by falling strength, equal ones in the order given. -/
def strongestFirst (shooters : List Shooter) : List Shooter :=
  shooters.mergeSort fun a b => b.strength ≤ a.strength

/-- The strength behind each die: the dice that are left go to the shooters in turn, to each its
    `cap` for so many `targets`. -/
def deal (targets : Nat) : List Shooter → Nat → List Nat
  | [], _ => []
  | shooter :: rest, left =>
      let dice := min (shooter.cap targets) left
      List.replicate dice shooter.strength ++ deal targets rest (left - dice)

/-- The strength behind each die of a roll at this many `targets`, strongest `shooters` first. -/
def allot (shooters : List Shooter) (targets : Nat) : List Nat :=
  deal targets (strongestFirst shooters) targets

end Shooter

/-! ### Rolls -/

/-- A die as it fell: a `hit` if its `value` stayed below its `threshold`. -/
structure Die where
  value : Nat
  /-- Values below this hit. -/
  threshold : Nat
  hit : Bool
  deriving DecidableEq

/-- The `value` rolled against the `threshold`. -/
def Die.ofValue (value threshold : Nat) : Die := ⟨value, threshold, value < threshold⟩

/-- The outcome of the roll of a firing group: its `hits`, and the `dice` behind them. -/
structure Roll where
  hits : Nat := 0
  sides : Nat := 0
  dice : List Die := []
  /-- The hits that pooled strength gives without a die. -/
  pooledHits : Nat := 0
  deriving DecidableEq

namespace Roll

/-- How many `dice` of the `roll` missed. -/
def misses (roll : Roll) : Nat := roll.dice.countP fun die => !die.hit

variable {ρ : Type} [RandomSource ρ]

/-- One die with this many `sides` for each of the `strengths`. -/
def standard (strengths : List Nat) (sides : Nat) (purpose : String) (dice : ρ) : Roll × ρ :=
  let (values, dice) := RandomSource.draw sides strengths.length purpose dice
  let fallen := List.zipWith Die.ofValue values strengths
  ({ hits := fallen.countP Die.hit, sides, dice := fallen }, dice)

/-- Strengths are added up modulo `strengthModulus`, as numbers of 32 bits are. -/
def strengthModulus : Nat := UInt32.size

/-- The `strengths` of a roll in one pool, added up one after another modulo `strengthModulus`. -/
def pooledStrength (strengths : List Nat) : Nat :=
  strengths.foldl (fun total strength => (total + strength) % strengthModulus) 0

/-- Pooled `strengths`: a sure hit for each full die of `pooledStrength`, and one die for the
    remainder if there is any. A source that gives no value gives a miss. -/
def lowLuck (strengths : List Nat) (sides : Nat) (purpose : String) (dice : ρ) : Roll × ρ :=
  let total := pooledStrength strengths
  let pooled := total / sides
  let remainder := total % sides
  if remainder = 0 then ({ hits := pooled, sides, pooledHits := pooled }, dice)
  else
    let (values, dice) := RandomSource.draw sides 1 purpose dice
    let die := Die.ofValue (values.head?.getD sides) remainder
    ({ hits := if die.hit then pooled + 1 else pooled, sides, dice := [die], pooledHits := pooled },
      dice)

/-- The fire of these `shooters` at this many `targets`, by the `standard` rule or by `lowLuck`.
    Nothing is drawn if there is no die to roll. -/
def fire (shooters : List Shooter) (targets sides : Nat) (lowLuckRule : Bool) (purpose : String)
    (dice : ρ) : Roll × ρ :=
  let sides := max sides 1
  let strengths := Shooter.allot shooters targets
  if strengths.isEmpty then ({ sides }, dice)
  else
    let (roll, dice) :=
      if lowLuckRule then lowLuck strengths sides purpose dice
      else standard strengths sides purpose dice
    ({ roll with hits := min roll.hits targets }, dice)

end Roll

end Flak
