import Flak.Dice.Source

namespace Flak

/-!
# Dice from a seed

* `Xoshiro` — the generator xoshiro256++, seeded by expanding a 64-bit seed.
* `Xoshiro.below` — a value below a bound, without bias: draws outside the largest multiple of the
  bound are thrown away.
-/

/-! ### Seeding -/

/-- One word of seed material from the `state` of the seed sequence: its high bits, mixed and
    rotated by an amount that its highest bits give. -/
def seedWord (state : UInt64) : UInt32 :=
  let mixed := (((state >>> 18) ^^^ state) >>> 27).toUInt32
  let rotation := (state >>> 59).toUInt32
  (mixed >>> rotation) ||| (mixed <<< ((32 - rotation) % 32))

/-- The next `state` of the seed sequence. -/
def nextSeed (state : UInt64) : UInt64 :=
  state * 6364136223846793005 + 11634580027462260723

/-- Two words of seed material from the `state` as one, the first being the low half; and the state
    after them. -/
def seedPair (state : UInt64) : UInt64 × UInt64 :=
  let first := nextSeed state
  let second := nextSeed first
  ((seedWord first).toUInt64 ||| ((seedWord second).toUInt64 <<< 32), second)

/-! ### The generator -/

/-- The state of the generator, four words. -/
structure Xoshiro where
  s0 : UInt64
  s1 : UInt64
  s2 : UInt64
  s3 : UInt64

namespace Xoshiro

/-- The generator that the `seed` gives: each of its words is a `seedPair`. -/
def ofSeed (seed : UInt64) : Xoshiro :=
  let (s0, state) := seedPair seed
  let (s1, state) := seedPair state
  let (s2, state) := seedPair state
  let (s3, _) := seedPair state
  ⟨s0, s1, s2, s3⟩

/-- The `word` with its bits turned to the left by this `amount`. -/
def rotateLeft (word amount : UInt64) : UInt64 :=
  (word <<< amount) ||| (word >>> (64 - amount))

/-- The next 64 bits, and the `state` after them. -/
def next (state : Xoshiro) : UInt64 × Xoshiro :=
  let result := rotateLeft (state.s0 + state.s3) 23 + state.s0
  let s2 := state.s2 ^^^ state.s0
  let s3 := state.s3 ^^^ state.s1
  let s1 := state.s1 ^^^ s2
  let s0 := state.s0 ^^^ s3
  (result, ⟨s0, s1, s2 ^^^ (state.s1 <<< 17), rotateLeft s3 45⟩)

/-- The next 32 bits: the high half of what `next` gives. -/
def next32 (state : Xoshiro) : Nat × Xoshiro :=
  let (bits, state) := state.next
  (bits.toNat / UInt32.size, state)

/-- The last low half that is accepted for the `bound`: one below the bound shifted up as far as 32
    bits allow. -/
def zone (bound : Nat) : Nat := (bound <<< (31 - Nat.log2 bound)) - 1

/-- How often a value is drawn again before it is taken as it is: `redraws` times. Each draw is
    accepted with a chance of at least one half, so that this is never seen. -/
def redraws : Nat := 4096

/-- A value below a positive `bound`: the high half of the product of the bound and 32 random bits,
    if its low half lies in the `zone`. -/
def below (bound : Nat) : Nat → Xoshiro → Nat × Xoshiro
  | 0, state =>
      let (bits, state) := state.next32
      (bits * bound / UInt32.size, state)
  | redraws + 1, state =>
      let (bits, state) := state.next32
      if bits * bound % UInt32.size ≤ zone bound then (bits * bound / UInt32.size, state)
      else below bound redraws state

/-- This many values, each `below` a positive bound. -/
def values (bound : Nat) : Nat → Xoshiro → List Nat × Xoshiro
  | 0, state => ([], state)
  | count + 1, state =>
      let (value, state) := below bound redraws state
      let (rest, state) := values bound count state
      (value :: rest, state)

instance : RandomSource Xoshiro where
  draw max count _ state := values (Nat.max max 1) count state

end Xoshiro

/-! ### Either kind -/

/-- Dice from a script or from a seed, as one `RandomSource`. -/
inductive GameDice where
  | scripted (dice : ScriptedDice)
  | seeded (dice : Xoshiro)

namespace GameDice

/-- Dice that always show zero: a `script` without values. -/
def zeros : GameDice := .scripted ⟨[], 0⟩

/-- Dice that replay the `script`. -/
def ofScript (script : List Nat) : GameDice := .scripted ⟨script, 0⟩

/-- Dice that the `seed` determines. -/
def ofSeed (seed : Nat) : GameDice := .seeded (.ofSeed seed.toUInt64)

instance : RandomSource GameDice where
  draw max count purpose
    | .scripted dice =>
        let (values, dice) := RandomSource.draw max count purpose dice
        (values, .scripted dice)
    | .seeded dice =>
        let (values, dice) := RandomSource.draw max count purpose dice
        (values, .seeded dice)

end GameDice

end Flak
