import Flak.Proofs.Losses.Selection

namespace Flak.Losses

/-!
# How the fixed rule counts hits

The fixed rule counts hits modulo `hitModulus`; the check that its losses have to pass does not. The
two part ways beyond the modulus:

* `check_of_check` — losses that are accepted for some hits, checked against other hits;
* `automatic_mod` — the fixed rule sees no more of the hits than their remainder;
* `min_mod_eq_iff` — when the remainder does for the hits themselves;
* `check_automatic_counted` — so its losses are accepted just up to the modulus, or where what is
  counted is enough to kill all targets;
* `not_check_automatic` — a single target and as many hits as the modulus: nobody is selected.
-/

variable {targets : List Target} {losses : Losses} {hits : Nat}

/-- Losses that `check` accepts for some `hits` are accepted for `others` just if these use up as
    much. -/
theorem check_of_check (h : losses.check targets hits = .ok ()) (others : Nat) :
    losses.check targets others =
      if min hits (Target.capacity targets) = min others (Target.capacity targets) then .ok ()
      else .error (.casualtyOverflow (min hits (Target.capacity targets))
        (min others (Target.capacity targets))) := by
  obtain ⟨killing, seen, damaging, hkill, hdamage, hsum⟩ := exists_of_check h
  rw [check_of_parts (valid_of_check h).size_le hkill hdamage, hsum]

/-- The fixed rule sees only the remainder of `hits` by the `hitModulus`. -/
theorem automatic_mod (targets : List Target) (hits : Nat) :
    automatic targets (hits % hitModulus) = automatic targets hits := by
  unfold automatic automaticHits
  rw [Nat.mod_mod]

/-- The remainder of a number is as good as the number under a bound, its `capacity`, just if
    nothing is cut off or if the bound cuts off as much. -/
theorem min_mod_eq_iff {modulus : Nat} (hmodulus : 0 < modulus) (hits capacity : Nat) :
    min (hits % modulus) capacity = min hits capacity ↔
      hits < modulus ∨ capacity ≤ hits % modulus := by
  have hlt : hits % modulus < modulus := Nat.mod_lt hits hmodulus
  have hle : hits % modulus ≤ hits := Nat.mod_le hits modulus
  constructor
  · intro h
    by_cases hcapacity : capacity ≤ hits % modulus
    · exact .inr hcapacity
    · left
      omega
  · rintro (h | h)
    · rw [Nat.mod_eq_of_lt h]
    · omega

/-- The losses that the fixed rule selects for distinct `targets` are accepted just if the `hits`
    are below the `hitModulus`, or if what is counted of them is enough for all hit points.
    Otherwise they use up what is counted, and the check says so. -/
theorem check_automatic_counted (hnodup : (targets.map Target.unit).Nodup) (hits : Nat) :
    (automatic targets hits).check targets hits =
      if hits < hitModulus ∨ Target.capacity targets ≤ hits % hitModulus then .ok ()
      else .error
        (.casualtyOverflow (hits % hitModulus) (min hits (Target.capacity targets))) := by
  obtain ⟨points, hpoints⟩ := exists_points hnodup
  have hmodulus : 0 < hitModulus := by decide
  have hcounted := check_automatic hnodup hpoints (Nat.mod_lt hits hmodulus)
  rw [automatic_mod] at hcounted
  rw [check_of_check hcounted hits]
  by_cases h : hits < hitModulus ∨ Target.capacity targets ≤ hits % hitModulus
  · rw [if_pos h, if_pos ((min_mod_eq_iff hmodulus _ _).2 h)]
  · have hfewer : min (hits % hitModulus) (Target.capacity targets) = hits % hitModulus := by omega
    rw [if_neg h, if_neg (mt (min_mod_eq_iff hmodulus _ _).1 h), hfewer]

/-- A target of three hit points and one of one, under two hits more than `hitModulus`: two hits are
    used up and four would have to be. -/
theorem check_automatic_counted_pair :
    let targets : List Target := [⟨⟨1⟩, 3⟩, ⟨⟨2⟩, 1⟩]
    (targets.map Target.unit).Nodup ∧
      (automatic targets (hitModulus + 2)).check targets (hitModulus + 2) =
        .error (.casualtyOverflow 2 4) := by
  refine ⟨by decide, ?_⟩
  rw [check_automatic_counted (by decide)]
  rfl

/-- The hits that fit into 64 bits can be too many for the `automatic` rule: as many as the modulus
    select nobody, though there is a target. -/
theorem not_check_automatic :
    ¬ ∀ (targets : List Target) (hits : Nat), (targets.map Target.unit).Nodup →
      (∀ target ∈ targets, 0 < target.hitPoints) → hits < UInt64.size →
        (automatic targets hits).check targets hits = .ok () := by
  intro h
  have haccepted := h [⟨⟨1⟩, 1⟩] hitModulus (by decide) (by decide) (by decide)
  have hrefused : (automatic [⟨⟨1⟩, 1⟩] hitModulus).check [⟨⟨1⟩, 1⟩] hitModulus =
      .error (.casualtyOverflow 0 1) := rfl
  rw [hrefused] at haccepted
  nomatch haccepted

end Flak.Losses
