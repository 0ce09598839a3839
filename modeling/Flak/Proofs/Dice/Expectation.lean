import Flak.Proofs.Dice.Allotment
import Mathlib.Algebra.BigOperators.Fin
import Mathlib.Algebra.Order.BigOperators.Group.List
import Mathlib.Algebra.Order.Field.Rat
import Mathlib.Order.Interval.Finset.Fin
import Mathlib.Tactic.Linarith
import Mathlib.Tactic.Ring

namespace Flak

/-!
# Low luck expects as many hits

Low luck rolls one die where a standard roll has many, and on the whole it hits as often. If no
strength is above the sides of the die:

* `Roll.pooledStrength_eq` — the pool holds the sum of the strengths, if that stays below
  `Roll.strengthModulus`;
* `Roll.sum_lowLuck` — over all values of its one die low luck has as many hits as there is strength
  in the pool;
* `Roll.sum_hitsOf`, `Roll.sum_standard` — over all outcomes of a standard roll each die hits for as
  many values as its strength;
* `Roll.fire_lowLuck`, `Roll.fire_standard_uncapped` — there are never more hits than dice, and so
  never more than targets;
* `Roll.abs_hits_sub_lt_one` — low luck is within one hit of what it expects;
* `Roll.lowLuck_expects` — all of this for the fire of shooters.
-/

namespace Shooter

/-- The strength behind each die by `allot` is that of a shooter. -/
theorem exists_of_mem_allot {shooters : List Shooter} {targets strength : Nat}
    (h : strength ∈ allot shooters targets) :
    ∃ shooter ∈ shooters, shooter.strength = strength := by
  rw [allot_eq_take] at h
  obtain ⟨shooter, hshooter, hmem⟩ := List.mem_flatMap.1 (List.mem_of_mem_take h)
  exact ⟨shooter, (strongestFirst_perm shooters).mem_iff.1 hshooter,
    (List.eq_of_mem_replicate hmem).symm⟩

end Shooter

namespace Roll

variable {ρ : Type} [RandomSource ρ] {strengths : List Nat} {sides : Nat}

/-! ### Low luck -/

/-- The pool wraps around once, no matter how often the addition does: it is the sum modulo
    `strengthModulus`. -/
theorem pooledStrength_eq_mod (strengths : List Nat) :
    pooledStrength strengths = strengths.sum % strengthModulus := by
  have hfold (total : Nat) : strengths.foldl (fun total strength =>
      (total + strength) % strengthModulus) (total % strengthModulus) =
        (total + strengths.sum) % strengthModulus := by
    induction strengths generalizing total with
    | nil => simp
    | cons strength rest ih =>
      rw [List.foldl_cons, Nat.mod_add_mod, ih, List.sum_cons, Nat.add_assoc]
  have hempty := hfold 0
  rwa [Nat.zero_mod, Nat.zero_add] at hempty

/-- The pool is the sum of the `strengths` as long as that stays below `strengthModulus`. -/
theorem pooledStrength_eq (hfits : strengths.sum < strengthModulus) :
    pooledStrength strengths = strengths.sum := by
  rw [pooledStrength_eq_mod, Nat.mod_eq_of_lt hfits]

/-- Two strengths of half the modulus leave nothing in the pool. -/
example : pooledStrength [2147483648, 2147483648] = 0 := by decide

/-- There is never more in the pool than the `strengths` come to. -/
theorem pooledStrength_le (strengths : List Nat) : pooledStrength strengths ≤ strengths.sum := by
  rw [pooledStrength_eq_mod]
  exact Nat.mod_le _ _

/-- The hits of `lowLuck`: one for each full die of strength, and one more if the value drawn is
    below the remainder. Without a remainder no value is below it. -/
theorem hits_lowLuck (strengths : List Nat) (sides : Nat) (purpose : String) (dice : ρ) :
    (lowLuck strengths sides purpose dice).1.hits =
      pooledStrength strengths / sides +
        if ((RandomSource.draw sides 1 purpose dice).1.head?).getD sides <
            pooledStrength strengths % sides
          then 1 else 0 := by
  unfold lowLuck
  by_cases hnone : pooledStrength strengths % sides = 0
  · simp [hnone]
  · simp only [hnone, if_false, Die.ofValue, decide_eq_true_eq]
    split <;> rfl

/-- Over all values of the one die the hits of `lowLuck` come to the strength in the pool. -/
theorem sum_lowLuck (hsides : 1 ≤ sides) (strengths : List Nat) (purpose : String)
    {one : Fin sides → ρ}
    (hone : ∀ value, (RandomSource.draw sides 1 purpose (one value)).1 = [value.val]) :
    ∑ value, (lowLuck strengths sides purpose (one value)).1.hits =
      pooledStrength strengths := by
  have hlt : pooledStrength strengths % sides < sides := Nat.mod_lt _ hsides
  have hbelow :
      (∑ value : Fin sides, if value.val < pooledStrength strengths % sides then 1 else 0) =
        pooledStrength strengths % sides := by
    rw [Finset.sum_boole, Fin.card_filter_val_lt, Nat.cast_id, Nat.min_eq_right hlt.le]
  simp only [hits_lowLuck, hone, List.head?_cons, Option.getD_some]
  rw [Finset.sum_add_distrib, hbelow, Finset.sum_const, Finset.card_univ, Fintype.card_fin,
    smul_eq_mul, Nat.div_add_mod]

/-- Where no strength is above the `sides`, a die full of each comes to at least as much. -/
theorem sum_le_mul_length (hstrengths : ∀ strength ∈ strengths, strength ≤ sides) :
    strengths.sum ≤ sides * strengths.length := by
  have hsum := List.sum_le_card_nsmul strengths sides hstrengths
  rwa [smul_eq_mul, Nat.mul_comm] at hsum

/-- By `lowLuck` there are no more hits than a standard roll has dice, whatever the source
    answers. -/
theorem hits_lowLuck_le (hstrengths : ∀ strength ∈ strengths, strength ≤ sides) (purpose : String)
    (dice : ρ) :
    (lowLuck strengths sides purpose dice).1.hits ≤ strengths.length := by
  have hsum := (pooledStrength_le strengths).trans (sum_le_mul_length hstrengths)
  have hfull : pooledStrength strengths / sides ≤ strengths.length :=
    Nat.div_le_of_le_mul hsum
  rw [hits_lowLuck]
  split
  next hhit =>
    -- There is a remainder, so that not every die is full.
    have hparts := Nat.div_add_mod (pooledStrength strengths) sides
    have hne : pooledStrength strengths / sides ≠ strengths.length := by
      intro heq
      rw [heq] at hparts
      omega
    omega
  next => exact hfull

/-- By `lowLuck` the hits are less than one away from the full dice in the pool. -/
theorem abs_hits_sub_lt_one (hsides : 1 ≤ sides) (strengths : List Nat) (purpose : String)
    (dice : ρ) :
    |((lowLuck strengths sides purpose dice).1.hits : ℚ) - pooledStrength strengths / sides| <
      1 := by
  set total := pooledStrength strengths with htotal
  have hlt : total % sides < sides := Nat.mod_lt _ hsides
  have hparts := Nat.div_add_mod total sides
  have hpos : (0 : ℚ) < sides := by exact_mod_cast hsides
  -- In whole numbers first: the remainder makes a difference of one hit at most.
  have hmore : (lowLuck strengths sides purpose dice).1.hits * sides < total + sides := by
    rw [hits_lowLuck, ← htotal, Nat.add_mul, Nat.mul_comm (total / sides)]
    split <;> omega
  have hfewer : total < ((lowLuck strengths sides purpose dice).1.hits + 1) * sides := by
    rw [hits_lowLuck, ← htotal, Nat.add_mul, Nat.add_mul, Nat.mul_comm (total / sides)]
    split <;> omega
  rw [abs_sub_lt_iff]
  constructor
  · rw [sub_lt_iff_lt_add, ← mul_lt_mul_iff_left₀ hpos, add_mul, div_mul_cancel₀ _ hpos.ne']
    have : ((lowLuck strengths sides purpose dice).1.hits : ℚ) * sides < total + sides := by
      exact_mod_cast hmore
    linarith
  · rw [sub_lt_iff_lt_add, div_lt_iff₀ hpos]
    have : (total : ℚ) < ((lowLuck strengths sides purpose dice).1.hits + 1) * sides := by
      exact_mod_cast hfewer
    linarith

/-! ### Standard rolls -/

/-- The first die and the others fall independently: a sum over all their outcomes is one over the
    first `value` and one over the others. -/
theorem sum_outcomes {count : Nat} (f : (Fin (count + 1) → Fin sides) → Nat) :
    ∑ values, f values = ∑ value, ∑ values, f (Fin.cons value values) := by
  rw [← (Fin.consEquiv fun _ : Fin (count + 1) => Fin sides).sum_comp f, Fintype.sum_prod_type]
  rfl

/-- The values of dice that have `fallen`. -/
def valuesOf {count : Nat} (fallen : Fin count → Fin sides) : List Nat :=
  List.ofFn fun die => (fallen die).val

/-- The values of a first die and others are its own `value` and theirs. -/
theorem valuesOf_cons {count : Nat} (value : Fin sides) (others : Fin count → Fin sides) :
    valuesOf (Fin.cons value others : Fin (count + 1) → Fin sides) =
      value.val :: valuesOf others := by
  rw [valuesOf, List.ofFn_succ]
  rfl

/-- How many of these `values` are below the strength beside them. -/
def hitsOf (values strengths : List Nat) : Nat :=
  (List.zipWith Die.ofValue values strengths).countP Die.hit

/-- The first die hits just if its `value` is below its strength. -/
theorem hitsOf_cons (value strength : Nat) (values strengths : List Nat) :
    hitsOf (value :: values) (strength :: strengths) =
      (if value < strength then 1 else 0) + hitsOf values strengths := by
  rw [hitsOf, List.zipWith_cons_cons, List.countP_cons, Nat.add_comm]
  simp [hitsOf, Die.ofValue]

/-- Over all outcomes of as many dice as there are `strengths`, each die hits for as many values as
    its strength, and that for all values of the others. -/
theorem sum_hitsOf {count : Nat} (hcount : strengths.length = count)
    (hstrengths : ∀ strength ∈ strengths, strength ≤ sides) :
    sides * ∑ fallen : Fin count → Fin sides, hitsOf (valuesOf fallen) strengths =
      strengths.sum * sides ^ count := by
  induction count generalizing strengths with
  | zero => simp [List.length_eq_zero_iff.1 hcount, hitsOf]
  | succ count ih =>
    obtain ⟨strength, rest, rfl⟩ := List.exists_cons_of_length_eq_add_one hcount
    obtain ⟨hstrength, hrest⟩ := List.forall_mem_cons.1 hstrengths
    -- The first die hits for as many values as its strength.
    have hbelow : (∑ value : Fin sides, if value.val < strength then 1 else 0) = strength := by
      rw [Finset.sum_boole, Fin.card_filter_val_lt, Nat.cast_id, Nat.min_eq_right hstrength]
    calc sides * ∑ fallen : Fin (count + 1) → Fin sides, hitsOf (valuesOf fallen) (strength :: rest)
        = sides * ∑ value : Fin sides, ∑ others : Fin count → Fin sides,
            ((if value.val < strength then 1 else 0) + hitsOf (valuesOf others) rest) := by
          simp only [sum_outcomes, valuesOf_cons, hitsOf_cons]
      _ = sides * (strength * sides ^ count +
            sides * ∑ others : Fin count → Fin sides, hitsOf (valuesOf others) rest) := by
          simp only [Finset.sum_add_distrib, Finset.sum_const, Finset.card_univ, Fintype.card_fin,
            Fintype.card_fun, smul_eq_mul]
          rw [← Finset.mul_sum, hbelow, Nat.mul_comm (sides ^ _)]
      _ = (strength :: rest).sum * sides ^ (count + 1) := by
          rw [ih (Nat.succ.inj hcount) hrest, List.sum_cons]
          ring

/-- Over all outcomes of a `standard` roll of at least one die, the hits come to the strength, once
    for each way in which all dice but one can fall. -/
theorem sum_standard (hstrengths : ∀ strength ∈ strengths, strength ≤ sides)
    (hsides : 1 ≤ sides) (hsome : 1 ≤ strengths.length) (purpose : String)
    {all : (Fin strengths.length → Fin sides) → ρ}
    (hall : ∀ fallen,
      (RandomSource.draw sides strengths.length purpose (all fallen)).1 = valuesOf fallen) :
    strengths.sum * sides ^ (strengths.length - 1) =
      ∑ fallen, (standard strengths sides purpose (all fallen)).1.hits := by
  have hhits (fallen : Fin strengths.length → Fin sides) :
      (standard strengths sides purpose (all fallen)).1.hits =
        hitsOf (valuesOf fallen) strengths := by
    rw [← hall fallen]
    rfl
  have hpower : sides ^ strengths.length = sides * sides ^ (strengths.length - 1) := by
    rw [← Nat.pow_succ', Nat.succ_eq_add_one, Nat.sub_add_cancel hsome]
  have htimes := sum_hitsOf rfl hstrengths
  rw [hpower, Nat.mul_left_comm] at htimes
  rw [Finset.sum_congr rfl fun fallen _ => hhits fallen]
  exact (Nat.eq_of_mul_eq_mul_left hsides htimes).symm

/-! ### The cap on hits -/

/-- There is no more than one hit for each die of a `standard` roll. -/
theorem hits_standard_le (strengths : List Nat) (sides : Nat) (purpose : String) (dice : ρ) :
    (standard strengths sides purpose dice).1.hits ≤ strengths.length := by
  refine List.countP_le_length.trans ?_
  rw [List.length_zipWith]
  exact Nat.min_le_right _ _

section Fire

variable {shooters : List Shooter} {targets : Nat}

/-- No more dice are given out by `allot` than there are targets. -/
theorem length_allot_le (shooters : List Shooter) (targets : Nat) :
    (Shooter.allot shooters targets).length ≤ targets := by
  rw [Shooter.length_allot]
  exact Nat.min_le_left _ _

/-- The `fire` of at least one die is the `roll` itself, if that never has more hits than dice. -/
theorem fire_of_hits_le (hsides : 1 ≤ sides) (hsome : Shooter.allot shooters targets ≠ [])
    (lowLuckRule : Bool) (purpose : String) (dice : ρ) {roll : Roll × ρ}
    (hroll : (if lowLuckRule then lowLuck (Shooter.allot shooters targets) sides purpose dice
      else standard (Shooter.allot shooters targets) sides purpose dice) = roll)
    (hle : roll.1.hits ≤ (Shooter.allot shooters targets).length) :
    fire shooters targets sides lowLuckRule purpose dice = roll := by
  have hisEmpty : (Shooter.allot shooters targets).isEmpty = false :=
    List.isEmpty_eq_false_iff.2 hsome
  have hhits : min roll.1.hits targets = roll.1.hits :=
    Nat.min_eq_left (hle.trans (length_allot_le shooters targets))
  simp only [fire, Nat.max_eq_left hsides, hisEmpty, Bool.false_eq_true, if_false, hroll, hhits]

/-- Low luck never has more hits than `targets`, so that the cap on hits takes none away and the
    fire is that of `lowLuck`. -/
theorem fire_lowLuck (hsides : 1 ≤ sides)
    (hstrengths : ∀ shooter ∈ shooters, shooter.strength ≤ sides) (targets : Nat)
    (purpose : String) (dice : ρ) :
    fire shooters targets sides true purpose dice =
      lowLuck (Shooter.allot shooters targets) sides purpose dice := by
  by_cases hnone : Shooter.allot shooters targets = []
  · rw [fire_silent hnone, hnone, Nat.max_eq_left hsides]
    simp [lowLuck, pooledStrength]
  · refine fire_of_hits_le hsides hnone true purpose dice (if_pos rfl) ?_
    refine hits_lowLuck_le (fun strength hstrength => ?_) purpose dice
    obtain ⟨shooter, hshooter, rfl⟩ := Shooter.exists_of_mem_allot hstrength
    exact hstrengths shooter hshooter

/-- Nor has a `standard` roll. -/
theorem fire_standard_uncapped (hsides : 1 ≤ sides) (hsome : Shooter.allot shooters targets ≠ [])
    (purpose : String) (dice : ρ) :
    fire shooters targets sides false purpose dice =
      standard (Shooter.allot shooters targets) sides purpose dice :=
  fire_of_hits_le hsides hsome false purpose dice (if_neg Bool.false_ne_true)
    (hits_standard_le _ sides purpose dice)

/-- Let no strength be above the `sides` of the die and the strengths of all dice together below
    `strengthModulus`, and take sources in which the one die of low luck shows each value once, and
    the dice of a standard roll fall in each way once. Then the hits of `lowLuck` come to the
    strength behind the dice; where no die is rolled, the same hits count for each value. The hits
    of the `standard` roll come to that strength times the number of ways in which all dice but one
    can fall, so that one die has as many on average. From any source the cap on hits takes none
    away, and low luck is less than one hit away from the strength in full dice. -/
theorem lowLuck_expects (hsides : 1 ≤ sides)
    (hstrengths : ∀ shooter ∈ shooters, shooter.strength ≤ sides) (targets : Nat)
    (hfits : (Shooter.allot shooters targets).sum < strengthModulus)
    (purpose : String) {one : Fin sides → ρ}
    (hone : ∀ value, (RandomSource.draw sides 1 purpose (one value)).1 = [value.val])
    {all : (Fin (Shooter.allot shooters targets).length → Fin sides) → ρ}
    (hall : ∀ fallen, (RandomSource.draw sides (Shooter.allot shooters targets).length purpose
      (all fallen)).1 = valuesOf fallen) :
    let strengths := Shooter.allot shooters targets
    let lucky := fun dice : ρ => fire shooters targets sides true purpose dice
    let usual := fun dice : ρ => fire shooters targets sides false purpose dice
    ∑ value, (lucky (one value)).1.hits = strengths.sum ∧
      (1 ≤ strengths.length →
        strengths.sum * sides ^ (strengths.length - 1) = ∑ fallen, (usual (all fallen)).1.hits) ∧
      ∀ dice : ρ,
        lucky dice = lowLuck strengths sides purpose dice ∧
        (1 ≤ strengths.length → usual dice = standard strengths sides purpose dice) ∧
        |((lucky dice).1.hits : ℚ) - strengths.sum / sides| < 1 := by
  intro strengths lucky usual
  -- The cap on hits is out of the way, so that both are the rolls themselves.
  have hlucky (dice : ρ) : lucky dice = lowLuck strengths sides purpose dice :=
    fire_lowLuck hsides hstrengths targets purpose dice
  have husual (hsome : 1 ≤ strengths.length) (dice : ρ) :
      usual dice = standard strengths sides purpose dice :=
    fire_standard_uncapped hsides (List.length_pos_iff.1 hsome) purpose dice
  have hassigned : ∀ strength ∈ strengths, strength ≤ sides := by
    intro strength hstrength
    obtain ⟨shooter, hshooter, rfl⟩ := Shooter.exists_of_mem_allot hstrength
    exact hstrengths shooter hshooter
  refine ⟨?_, fun hsome => ?_, fun dice => ⟨hlucky dice, fun hsome => husual hsome dice, ?_⟩⟩
  · simp only [hlucky]
    exact (sum_lowLuck hsides strengths purpose hone).trans (pooledStrength_eq hfits)
  · simp only [husual hsome]
    exact sum_standard hassigned hsides hsome purpose hall
  · have hclose := abs_hits_sub_lt_one hsides strengths purpose dice
    rw [pooledStrength_eq hfits] at hclose
    rw [hlucky]
    exact hclose

end Fire

/-! ### A battery -/

/-- A `script` that is asked for as many values as it has gives them all. -/
theorem draw_whole_script {script : List Nat} {max : Nat} (hbelow : ∀ value ∈ script, value < max)
    (purpose : String) :
    (RandomSource.draw max script.length purpose (⟨script, 0⟩ : ScriptedDice)).1 = script := by
  refine List.ext_getElem (by simp [RandomSource.draw]) fun i _ hi => ?_
  have hlt : script[i] < max := hbelow _ (List.getElem_mem hi)
  have hmax : Nat.max max 1 = max := Nat.max_eq_left (by omega)
  simp [RandomSource.draw, ScriptedDice.valueAt, Nat.mod_eq_of_lt hi, hi, hmax,
    Nat.mod_eq_of_lt hlt]

/-- A gun without a cap and a stronger one with a single die, at three `targets`: low luck has one
    hit for five of the six values of its die, and three dice that fall in every way have 180, which
    is five times as many as two dice have ways to fall. -/
theorem lowLuck_expects_battery :
    let shooters : List Shooter := [⟨⟨1⟩, 1, -1⟩, ⟨⟨2⟩, 3, 1⟩]
    (∀ shooter ∈ shooters, shooter.strength ≤ 6) ∧
      (Shooter.allot shooters 3).sum < strengthModulus ∧
      ∑ value : Fin 6,
        (fire shooters 3 6 true "Flak" (⟨[value.val], 0⟩ : ScriptedDice)).1.hits = 5 ∧
      ∑ fallen : Fin (Shooter.allot shooters 3).length → Fin 6,
        (fire shooters 3 6 false "Flak" (⟨valuesOf fallen, 0⟩ : ScriptedDice)).1.hits = 180 := by
  intro shooters
  have hallot : Shooter.allot shooters 3 = [3, 1, 1] := by cbv
  have hsum : (Shooter.allot shooters 3).sum = 5 := by rw [hallot]; rfl
  have hlength : (Shooter.allot shooters 3).length = 3 := by rw [hallot]; rfl
  have hstrengths : ∀ shooter ∈ shooters, shooter.strength ≤ 6 := by decide
  have hfits : (Shooter.allot shooters 3).sum < strengthModulus := by
    rw [hsum]
    decide
  have hone (value : Fin 6) : (RandomSource.draw 6 1 "Flak"
      (⟨[value.val], 0⟩ : ScriptedDice)).1 = [value.val] :=
    draw_whole_script (by simp) "Flak"
  have hall (fallen : Fin (Shooter.allot shooters 3).length → Fin 6) :
      (RandomSource.draw 6 (Shooter.allot shooters 3).length "Flak"
        (⟨valuesOf fallen, 0⟩ : ScriptedDice)).1 = valuesOf fallen := by
    have hbelow : ∀ value ∈ valuesOf fallen, value < 6 := by simp [valuesOf, List.mem_ofFn]
    have hdrawn := draw_whole_script hbelow "Flak"
    rwa [valuesOf, List.length_ofFn] at hdrawn
  obtain ⟨hlucky, husual, -⟩ := lowLuck_expects (by decide) hstrengths 3 hfits "Flak" hone hall
  refine ⟨hstrengths, hfits, hlucky.trans hsum, (husual (by omega)).symm.trans ?_⟩
  rw [hsum, hlength]
  rfl

end Roll

end Flak
