import Flak.Board.Rules
import Flak.Dice.Source
import Flak.Losses.Basic

namespace Flak.Losses

/-!
# Selecting losses

* `Losses.automatic` — hits damage as far as they can, then kill, both in target order.
* `Losses.random` — one hit after another falls on a target that still has hit points, each with
  the same chance.
* `Losses.select` — what a mode selects without asking anybody.
-/

/-! ### The fixed rule -/

/-- Hits the `target` can take and survive. -/
def absorbable (target : Target) : Nat := target.hitPoints - 1

/-- Gives hits to targets in turn, to each as many as `room` allows, until none are left. The result
    is the hits of each target and the excess. -/
def pour (room : Target × Nat → Nat) : List (Target × Nat) → Nat → List (Target × Nat) × Nat
  | [], left => ([], left)
  | (target, applied) :: rest, left =>
      let taken := min (room (target, applied)) left
      let (filled, excess) := pour room rest (left - taken)
      ((target, applied + taken) :: filled, excess)

/-- Hits are counted modulo `hitModulus`, as numbers of 32 bits are. -/
def hitModulus : Nat := UInt32.size

/-- The `hits` of each target by the fixed rule: first what it can survive, then what it has
    left. -/
def automaticHits (targets : List Target) (hits : Nat) : List (Target × Nat) :=
  let (damaged, left) :=
    pour (fun entry => absorbable entry.1) (targets.map (·, 0)) (hits % hitModulus)
  (pour (fun entry => entry.1.hitPoints - entry.2) damaged left).1

/-- Damage first, then kill, both in the order of the `targets`. -/
def automatic (targets : List Target) (hits : Nat) : Losses :=
  ofApplied (automaticHits targets hits)

/-! ### Chance -/

/-- Whether the target of an `entry` has hit points left after the hits beside it. -/
def isOpen (entry : Target × Nat) : Bool := entry.2 < entry.1.hitPoints

/-- One more hit for the target that is `n`-th among those still open. -/
def hitOpen : List (Target × Nat) → Nat → List (Target × Nat)
  | [], _ => []
  | entry :: rest, n =>
      if isOpen entry then
        match n with
        | 0 => (entry.1, entry.2 + 1) :: rest
        | n + 1 => entry :: hitOpen rest n
      else entry :: hitOpen rest n

variable {ρ : Type} [RandomSource ρ]

/-- Lets hits fall one at a time until there are no more or no target `isOpen`. The source is asked
    for a value below the number of open targets, which it is told in 32 bits. A source that gives
    no value picks the first open target. -/
def scatter (purpose : String) : Nat → List (Target × Nat) → ρ → List (Target × Nat) × ρ
  | 0, entries, dice => (entries, dice)
  | hits + 1, entries, dice =>
      let openTargets := entries.countP isOpen
      if openTargets = 0 then (entries, dice)
      else
        let (values, dice) := RandomSource.draw (openTargets % UInt32.size) 1 purpose dice
        let pick := (values.head?.getD 0) % openTargets
        scatter purpose hits (hitOpen entries pick) dice

/-- Each of the `hits` falls on a random target, by `scatter`. -/
def random (targets : List Target) (hits : Nat) (purpose : String) (dice : ρ) : Losses × ρ :=
  let (entries, dice) := scatter purpose hits (targets.map (·, 0)) dice
  (ofApplied entries, dice)

/-! ### By the rules of the game -/

/-- The losses that the `mode` selects without asking anybody. Where the player chooses, the fixed
    rule makes the proposal. -/
def select (mode : CasualtyMode) (targets : List Target) (hits : Nat) (purpose : String)
    (dice : ρ) : Losses × ρ :=
  match mode with
  | .random => random targets hits purpose dice
  | .automatic | .interactive => (automatic targets hits, dice)

end Flak.Losses
