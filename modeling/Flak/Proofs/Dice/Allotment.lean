import Flak.Dice.Roll
import Mathlib.Algebra.BigOperators.Group.List.Basic
import Mathlib.Algebra.GroupWithZero.Nat
import Mathlib.Data.List.Forall2
import Mathlib.Data.List.Permutation

namespace Flak

/-!
# The dice go to the strongest shooters

A roll hands out its dice in turn, to each shooter as many as its cap allows. As the strongest come
first, no other way to hand out as many dice has more strength behind them:

* `Shooter.Distribution` — dice given to shooters within their caps, no more than there are targets;
* `Shooter.strengthsOf` — the strengths behind dice that are given out like that;
* `Shooter.volley` — the strengths behind all dice that shooters may roll;
* `Shooter.deal_eq_take` — dealing dice takes the first of them;
* `Shooter.sum_le_sum_take` — no entries of a falling list come to more than as many at its front;
* `Shooter.Strongest` — thresholds that fall, that a distribution gives, and that no other
  distribution exceeds; `Shooter.strongest_allot` — those of a roll are like that;
* `Roll.standard_strongest` — what a roll of one die for each strength draws and counts.
-/

namespace Shooter

variable {shooters others : List Shooter} {plan : List (Shooter × Nat)} {targets : Nat}

/-! ### Ways to give out dice -/

/-- Dice beside `shooters`, to each of them no more than its cap and altogether no more than there
    are `targets`. -/
structure Distribution (shooters : List Shooter) (targets : Nat) (plan : List (Shooter × Nat)) :
    Prop where
  shooters : plan.map Prod.fst = shooters
  within : ∀ entry ∈ plan, entry.2 ≤ entry.1.cap targets
  total : (plan.map Prod.snd).sum ≤ targets

/-- The strength behind each die of a `plan`. -/
def strengthsOf (plan : List (Shooter × Nat)) : List Nat :=
  plan.flatMap fun entry => List.replicate entry.2 entry.1.strength

/-- There are as many dice as the `plan` gives out. -/
theorem length_strengthsOf (plan : List (Shooter × Nat)) :
    (strengthsOf plan).length = (plan.map Prod.snd).sum := by
  simp [strengthsOf, List.length_flatMap]

/-- Dice that are given to `shooters` can be given to the same shooters in another order. -/
theorem Distribution.exists_perm (h : Distribution shooters targets plan)
    (hothers : others.Perm shooters) :
    ∃ plan', Distribution others targets plan' ∧ plan'.Perm plan := by
  obtain ⟨rfl, hwithin, htotal⟩ := h
  have hbeside : List.Forall₂ (fun shooter entry => shooter = Prod.fst entry)
      (plan.map Prod.fst) plan :=
    List.forall₂_map_left_iff.2 (List.forall₂_same.2 fun _ _ => rfl)
  obtain ⟨plan', hbeside', hperm⟩ := List.perm_comp_forall₂ hothers hbeside
  refine ⟨plan', ⟨?_, fun entry hentry => ?_, ?_⟩, hperm⟩
  · have hsame : List.Forall₂ Eq others (plan'.map Prod.fst) :=
      List.forall₂_map_right_iff.2 hbeside'
    rw [List.forall₂_eq_eq_eq] at hsame
    exact hsame.symm
  · exact hwithin entry (hperm.mem_iff.1 hentry)
  · rwa [(hperm.map Prod.snd).sum_eq]

/-! ### All dice that may be rolled -/

/-- The strength behind each die that `shooters` may roll, in their order, each as many as its
    `cap`. -/
def volley (targets : Nat) (shooters : List Shooter) : List Nat :=
  shooters.flatMap fun shooter => List.replicate (shooter.cap targets) shooter.strength

/-- In a `volley` there are as many dice as all caps together allow. -/
theorem length_volley (targets : Nat) (shooters : List Shooter) :
    (volley targets shooters).length =
      (shooters.map fun shooter => shooter.cap targets).sum := by
  simp [volley, List.length_flatMap]

/-- By `deal`, dice are handed out from the front of those that may be rolled. -/
theorem deal_eq_take (targets : Nat) (shooters : List Shooter) (left : Nat) :
    deal targets shooters left = (volley targets shooters).take left := by
  induction shooters generalizing left with
  | nil => simp [deal, volley]
  | cons shooter rest ih =>
    have hrest : left - min (shooter.cap targets) left = left - shooter.cap targets := by omega
    have hvolley : volley targets (shooter :: rest) =
        List.replicate (shooter.cap targets) shooter.strength ++ volley targets rest := rfl
    rw [deal, ih, hrest, hvolley, List.take_append, List.take_replicate, List.length_replicate,
      Nat.min_comm]

/-- The dice that `deal` gives to `shooters`, beside them. -/
theorem exists_deal (targets : Nat) (shooters : List Shooter) (left : Nat) :
    ∃ plan : List (Shooter × Nat), plan.map Prod.fst = shooters ∧
      (∀ entry ∈ plan, entry.2 ≤ entry.1.cap targets) ∧ (plan.map Prod.snd).sum ≤ left ∧
        deal targets shooters left = strengthsOf plan := by
  induction shooters generalizing left with
  | nil => exact ⟨[], rfl, by simp, Nat.zero_le left, rfl⟩
  | cons shooter rest ih =>
    obtain ⟨plan, rfl, hwithin, htotal, hdeal⟩ := ih (left - min (shooter.cap targets) left)
    refine ⟨(shooter, min (shooter.cap targets) left) :: plan, rfl, ?_, ?_, ?_⟩
    · exact List.forall_mem_cons.2 ⟨Nat.min_le_left _ _, hwithin⟩
    · simp only [List.map_cons, List.sum_cons]
      omega
    · rw [deal, hdeal]
      rfl

/-- Dice within the caps are among those of the `volley`. -/
theorem strengthsOf_sublist (hwithin : ∀ entry ∈ plan, entry.2 ≤ entry.1.cap targets) :
    (strengthsOf plan).Sublist (volley targets (plan.map Prod.fst)) := by
  induction plan with
  | nil => exact List.Sublist.refl []
  | cons entry rest ih =>
    obtain ⟨hentry, hrest⟩ := List.forall_mem_cons.1 hwithin
    exact List.Sublist.append ((List.replicate_sublist_replicate _).2 hentry) (ih hrest)

/-! ### The strongest first -/

/-- No shooter is lost or doubled by `strongestFirst`. -/
theorem strongestFirst_perm (shooters : List Shooter) :
    (strongestFirst shooters).Perm shooters :=
  List.mergeSort_perm shooters _

/-- Strengths fall from shooter to shooter by `strongestFirst`. -/
theorem pairwise_strongestFirst (shooters : List Shooter) :
    (strongestFirst shooters).Pairwise fun a b => b.strength ≤ a.strength := by
  have hsorted : (strongestFirst shooters).Pairwise
      fun a b => decide (b.strength ≤ a.strength) = true := by
    apply List.pairwise_mergeSort
    · intro a b c hab hbc
      simp only [decide_eq_true_eq] at *
      omega
    · intro a b
      simp only [Bool.or_eq_true, decide_eq_true_eq]
      omega
  exact hsorted.imp fun h => of_decide_eq_true h

/-- Where strengths fall from shooter to shooter, they fall from die to die of the `volley`. -/
theorem pairwise_volley (h : shooters.Pairwise fun a b => b.strength ≤ a.strength) :
    (volley targets shooters).Pairwise (· ≥ ·) := by
  apply List.pairwise_flatMap.2
  constructor
  · intro shooter _
    exact List.pairwise_replicate.2 (.inr (Nat.le_refl _))
  · refine h.imp fun {a b} hle => ?_
    intro x hx y hy
    rw [List.eq_of_mem_replicate hx, List.eq_of_mem_replicate hy]
    exact hle

/-- No entries of the `falling` list come to more than as many of them at its front. -/
theorem sum_le_sum_take {falling some : List Nat} (hfalling : falling.Pairwise (· ≥ ·))
    (hsublist : some.Sublist falling) {count : Nat} (hcount : some.length ≤ count) :
    some.sum ≤ (falling.take count).sum := by
  induction falling generalizing some count with
  | nil =>
    rw [List.sublist_nil.1 hsublist]
    exact Nat.zero_le _
  | cons first rest ih =>
    obtain ⟨hfirst, hrest⟩ := List.pairwise_cons.1 hfalling
    cases some with
    | nil => exact Nat.zero_le _
    | cons second others =>
      cases count with
      | zero => simp at hcount
      | succ count =>
        -- Whichever entry comes first, it is no more than the one in front.
        have hsecond : second ≤ first := by
          rcases List.mem_cons.1 (hsublist.subset List.mem_cons_self) with rfl | hmem
          · exact Nat.le_refl second
          · exact hfirst second hmem
        have hothers := ih hrest hsublist.of_cons_cons (Nat.le_of_succ_le_succ hcount)
        rw [List.take_succ_cons, List.sum_cons, List.sum_cons]
        omega

/-! ### The dice of a roll -/

/-- Whether these `thresholds` fall, are given by some `Distribution` of dice, and are exceeded by
    none. -/
structure Strongest (shooters : List Shooter) (targets : Nat) (thresholds : List Nat) : Prop where
  falling : thresholds.Pairwise (· ≥ ·)
  given : ∃ plan, Distribution shooters targets plan ∧ thresholds.Perm (strengthsOf plan)
  most : ∀ plan, Distribution shooters targets plan → (strengthsOf plan).sum ≤ thresholds.sum

/-- A roll is given the front of the `volley` of its shooters, the strongest first. -/
theorem allot_eq_take (shooters : List Shooter) (targets : Nat) :
    allot shooters targets = (volley targets (strongestFirst shooters)).take targets :=
  deal_eq_take targets (strongestFirst shooters) targets

/-- There are as many dice as `targets`, unless the caps allow fewer. -/
theorem length_allot (shooters : List Shooter) (targets : Nat) :
    (allot shooters targets).length =
      min targets (shooters.map fun shooter => shooter.cap targets).sum := by
  rw [allot_eq_take, List.length_take, length_volley,
    ((strongestFirst_perm shooters).map fun shooter => shooter.cap targets).sum_eq]

/-- No way to give out dice to the `shooters` is stronger than `allot`, the one that a roll
    takes. -/
theorem strongest_allot (shooters : List Shooter) (targets : Nat) :
    Strongest shooters targets (allot shooters targets) := by
  have hperm := strongestFirst_perm shooters
  have hfalling := @pairwise_volley _ targets (pairwise_strongestFirst shooters)
  refine ⟨?_, ?_, fun plan hplan => ?_⟩
  · rw [allot_eq_take]
    exact hfalling.sublist (List.take_sublist _ _)
  -- The deal is a distribution among the sorted shooters, and so one among those given.
  · obtain ⟨dealt, hdealt, hwithin, htotal, hallot⟩ :=
      exists_deal targets (strongestFirst shooters) targets
    obtain ⟨plan, hplan, hsame⟩ :=
      Distribution.exists_perm ⟨hdealt, hwithin, htotal⟩ hperm.symm
    refine ⟨plan, hplan, ?_⟩
    rw [allot, hallot]
    exact hsame.symm.flatMap_right _
  · obtain ⟨sorted, ⟨hsorted, hwithin, htotal⟩, hsame⟩ := hplan.exists_perm hperm
    -- Whatever is distributed is part of the volley, of which the deal takes the strongest.
    have hsublist := strengthsOf_sublist hwithin
    rw [hsorted] at hsublist
    calc (strengthsOf plan).sum
        = (strengthsOf sorted).sum := (hsame.flatMap_right _).sum_eq.symm
      _ ≤ ((volley targets (strongestFirst shooters)).take targets).sum :=
          sum_le_sum_take hfalling hsublist (by rwa [length_strengthsOf])
      _ = (allot shooters targets).sum := by rw [allot_eq_take]

end Shooter

namespace Roll

variable {ρ : Type} [RandomSource ρ] {shooters : List Shooter} {targets : Nat}

/-! ### Standard rolls -/

/-- Nothing is rolled where `allot` hands out no die. -/
theorem fire_silent (h : Shooter.allot shooters targets = []) (sides : Nat) (lowLuck : Bool)
    (purpose : String) (dice : ρ) :
    fire shooters targets sides lowLuck purpose dice = ({ sides := max sides 1 }, dice) := by
  simp only [fire, h, List.isEmpty_nil, if_true]

/-- Otherwise there is one die for each strength: the fire is the `standard` roll, its hits
    capped. -/
theorem fire_standard (h : Shooter.allot shooters targets ≠ []) (sides : Nat) (purpose : String)
    (dice : ρ) :
    fire shooters targets sides false purpose dice =
      let strengths := Shooter.allot shooters targets
      let drawn := RandomSource.draw (max sides 1) strengths.length purpose dice
      let fallen := List.zipWith Die.ofValue drawn.1 strengths
      ({ hits := min (fallen.countP Die.hit) targets, sides := max sides 1, dice := fallen },
        drawn.2) := by
  have hsome : (Shooter.allot shooters targets).isEmpty = false := List.isEmpty_eq_false_iff.2 h
  simp only [fire, hsome, Bool.false_eq_true, if_false, standard]

/-- A die for each of the `values` shows that value, has the threshold beside it, and hits below
    it. -/
theorem map_ofValue {values strengths : List Nat} (h : values.length = strengths.length) :
    (List.zipWith Die.ofValue values strengths).map Die.value = values ∧
      (List.zipWith Die.ofValue values strengths).map Die.threshold = strengths := by
  induction values generalizing strengths with
  | nil =>
    obtain rfl : strengths = [] := List.length_eq_zero_iff.1 h.symm
    exact ⟨rfl, rfl⟩
  | cons value values ih =>
    cases strengths with
    | nil => simp at h
    | cons strength strengths =>
      obtain ⟨hvalues, hstrengths⟩ := ih (Nat.succ.inj h)
      simp only [List.zipWith_cons_cons, List.map_cons, hvalues, hstrengths]
      exact ⟨rfl, rfl⟩

/-- The dice that `hit` are those that show less than their threshold. -/
theorem countP_ofValue (values strengths : List Nat) :
    (List.zipWith Die.ofValue values strengths).countP Die.hit =
      (List.zipWith Die.ofValue values strengths).countP fun die => die.value < die.threshold := by
  induction values generalizing strengths with
  | nil => rfl
  | cons value values ih =>
    cases strengths with
    | nil => rfl
    | cons strength strengths =>
      rw [List.zipWith_cons_cons, List.countP_cons, List.countP_cons, ih]
      rfl

/-- For a source that gives as many values as it is asked for, a standard roll makes one draw, of as
    many dice as the `targets` and the caps together allow, or none if that is no die; to record it
    changes nothing. The thresholds are the `Strongest` that can be handed out, a die hits below its
    own, and there are never more hits than targets. -/
theorem standard_strongest
    (hanswers : ∀ (max count : Nat) (purpose : String) (dice : ρ),
      (RandomSource.draw max count purpose dice).1.length = count)
    (shooters : List Shooter) (targets sides : Nat) (purpose : String) (dice : ρ) :
    let count := min targets (shooters.map fun shooter => shooter.cap targets).sum
    let plain := fire shooters targets sides false purpose dice
    let fired := fire shooters targets sides false purpose (⟨dice, []⟩ : Recorded ρ)
    let fallen := fired.1.dice
    fired.1 = plain.1 ∧ fired.2.source = plain.2 ∧
      (fired.2.draws.map fun draw => (draw.max, draw.count)) =
        (if count = 0 then [] else [(max sides 1, count)]) ∧
      fallen.map Die.value = fired.2.draws.flatMap Draw.values ∧ fallen.length = count ∧
      Shooter.Strongest shooters targets (fallen.map Die.threshold) ∧
      fired.1.hits = fallen.countP (fun die => die.value < die.threshold) ∧
      fired.1.hits ≤ targets := by
  have hlength := Shooter.length_allot shooters targets
  have hstrongest := Shooter.strongest_allot shooters targets
  rw [← hlength]
  by_cases hnone : Shooter.allot shooters targets = []
  · rw [fire_silent hnone, fire_silent hnone]
    rw [hnone] at hstrongest ⊢
    exact ⟨rfl, rfl, rfl, rfl, rfl, hstrongest, rfl, Nat.zero_le targets⟩
  · have hsome : (Shooter.allot shooters targets).length ≠ 0 := by
      rwa [Ne, List.length_eq_zero_iff]
    have hfull := hanswers (max sides 1) (Shooter.allot shooters targets).length purpose dice
    obtain ⟨hvalues, hthresholds⟩ := map_ofValue hfull
    rw [fire_standard hnone, fire_standard hnone]
    dsimp only
    rw [draw_recorded]
    dsimp only
    generalize RandomSource.draw (max sides 1) (Shooter.allot shooters targets).length purpose dice
      = drawn at *
    have hdice : (List.zipWith Die.ofValue drawn.1 (Shooter.allot shooters targets)).length =
        (Shooter.allot shooters targets).length := by
      rw [List.length_zipWith, hfull, Nat.min_self]
    refine ⟨rfl, rfl, (if_neg hsome).symm, ?_, hdice, ?_, ?_, Nat.min_le_right _ _⟩
    · simpa using hvalues
    · rwa [hthresholds]
    · -- There are no more dice than targets, so that all hits count.
      have hle := List.countP_le_length (p := Die.hit)
        (l := List.zipWith Die.ofValue drawn.1 (Shooter.allot shooters targets))
      rw [← countP_ofValue]
      omega

/-- A gun without a cap, a stronger one with a single die and the strongest with none, at three
    `targets`: the single die comes first, and no other three dice have more strength than five. -/
theorem standard_strongest_battery :
    let shooters : List Shooter := [⟨⟨1⟩, 1, -1⟩, ⟨⟨2⟩, 3, 1⟩, ⟨⟨3⟩, 6, 0⟩]
    let fired := fire shooters 3 6 false "Flak" (⟨⟨[2, 0, 4], 0⟩, []⟩ : Recorded ScriptedDice)
    (∀ (max count : Nat) (purpose : String) (dice : ScriptedDice),
      (RandomSource.draw max count purpose dice).1.length = count) ∧
      fired.1.dice = [⟨2, 3, true⟩, ⟨0, 1, true⟩, ⟨4, 1, false⟩] ∧ fired.1.hits = 2 ∧
      ∀ plan, Shooter.Distribution shooters 3 plan → (Shooter.strengthsOf plan).sum ≤ 5 := by
  have hanswers : ∀ (max count : Nat) (purpose : String) (dice : ScriptedDice),
      (RandomSource.draw max count purpose dice).1.length = count := by
    intro max count purpose dice
    simp [RandomSource.draw]
  have hfired : (fire [⟨⟨1⟩, 1, -1⟩, ⟨⟨2⟩, 3, 1⟩, ⟨⟨3⟩, 6, 0⟩] 3 6 false "Flak"
      (⟨⟨[2, 0, 4], 0⟩, []⟩ : Recorded ScriptedDice)).1 =
        { hits := 2, sides := 6, dice := [⟨2, 3, true⟩, ⟨0, 1, true⟩, ⟨4, 1, false⟩] } := by
    cbv
  obtain ⟨-, -, -, -, -, ⟨-, -, hmost⟩, -, -⟩ := standard_strongest hanswers
    [⟨⟨1⟩, 1, -1⟩, ⟨⟨2⟩, 3, 1⟩, ⟨⟨3⟩, 6, 0⟩] 3 6 "Flak" (⟨[2, 0, 4], 0⟩ : ScriptedDice)
  rw [hfired] at hmost
  dsimp only
  rw [hfired]
  exact ⟨hanswers, rfl, rfl, hmost⟩

end Roll

end Flak
