namespace Flak

/-!
# Sources of dice

* `RandomSource` — what can be asked for die values; a source may answer with any list.
* `ScriptedDice` — replays a script, over and over.
* `Recorded` — a source that remembers what it was asked and what it answered.
-/

/-- A source of die values. `draw max count purpose` asks for `count` values below `max`. -/
class RandomSource (ρ : Type) where
  draw (max count : Nat) (purpose : String) (dice : ρ) : List Nat × ρ

/-! ### Scripts -/

/-- Die values that are replayed in a circle, `consumed` of them so far; an empty `script` gives
    zeros. -/
structure ScriptedDice where
  script : List Nat
  /-- How many values were handed out. -/
  consumed : Nat := 0

namespace ScriptedDice

/-- The value at the `position` of the endless replay, cut down below `max`. -/
def valueAt (dice : ScriptedDice) (max position : Nat) : Nat :=
  (dice.script[position % dice.script.length]?).getD 0 % Nat.max max 1

instance : RandomSource ScriptedDice where
  draw max count _ dice :=
    ((List.range count).map fun i => dice.valueAt max (dice.consumed + i),
      { dice with consumed := dice.consumed + count })

end ScriptedDice

/-! ### Records -/

/-- One request to a source and the `values` that answered it. -/
structure Draw where
  max : Nat
  count : Nat
  purpose : String
  values : List Nat
  deriving DecidableEq

/-- A `source` together with its record of `draws`. -/
structure Recorded (ρ : Type) where
  source : ρ
  draws : List Draw := []

instance {ρ : Type} [RandomSource ρ] : RandomSource (Recorded ρ) where
  draw max count purpose dice :=
    let (values, source) := RandomSource.draw max count purpose dice.source
    (values, ⟨source, dice.draws ++ [⟨max, count, purpose, values⟩]⟩)

/-- A `Recorded` source answers as its own source does, and notes the draw. -/
theorem draw_recorded {ρ : Type} [RandomSource ρ] (max count : Nat) (purpose : String) (dice : ρ)
    (draws : List Draw) :
    RandomSource.draw max count purpose (⟨dice, draws⟩ : Recorded ρ) =
      ((RandomSource.draw max count purpose dice).1,
        ⟨(RandomSource.draw max count purpose dice).2,
          draws ++ [⟨max, count, purpose, (RandomSource.draw max count purpose dice).1⟩]⟩) := rfl

end Flak
