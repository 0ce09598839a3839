import Flak.Proofs.Board.Reduced
import Flak.Proofs.Losses.Selection

namespace Flak.Losses

/-!
# Accepted losses are those that hits can cause

`Losses.check` reads two lists that a player may have put together in any way. It accepts them just
if they tell what becomes of the targets when each of them takes a number of hits:

* `Realised` — losses that come of the hits that targets take;
* `ofApplied_eq` — what is lost by hits beside targets, as two filters of them;
* `check_of_perm` — it does not matter in which order losses are listed;
* `takenIn` — the hits that losses put on a target; `realised_of_check` — accepted losses come of
  them;
* `check_iff_realised` — so the check accepts what is realised, and nothing else.
-/

variable {targets : List Target} {entries : List (Target × Nat)} {losses : Losses} {hits : Nat}

/-- Whether the `losses` come of the hits `taken` by `targets`, none of which takes more than it has
    hit points: the killed are those that take all of them, the damaged those that take some and
    survive. -/
structure Realised (targets : List Target) (taken : Target → Nat) (losses : Losses) : Prop where
  fits : ∀ target ∈ targets, taken target ≤ target.hitPoints
  killed : losses.killed.Perm
    ((targets.filter fun target => taken target = target.hitPoints).map Target.unit)
  damaged : losses.damaged.Perm
    ((targets.filter fun target => 0 < taken target ∧ taken target < target.hitPoints).map
      fun target => (target.unit, taken target))

/-! ### Losses as filters of the targets -/

/-- By `ofApplied`, of targets with hit points those are killed that take all of them, and those are
    damaged that take some and survive. -/
theorem ofApplied_eq (hpositive : ∀ entry ∈ entries, 0 < entry.1.hitPoints)
    (hfits : ∀ entry ∈ entries, entry.2 ≤ entry.1.hitPoints) :
    ofApplied entries =
      ⟨(entries.filter fun entry => entry.2 = entry.1.hitPoints).map fun entry => entry.1.unit,
        (entries.filter fun entry => 0 < entry.2 ∧ entry.2 < entry.1.hitPoints).map
          fun entry => (entry.1.unit, entry.2)⟩ := by
  induction entries with
  | nil => rfl
  | cons entry rest ih =>
    obtain ⟨target, taken⟩ := entry
    obtain ⟨hfirst, hpositive⟩ := List.forall_mem_cons.1 hpositive
    obtain ⟨hle, hfits⟩ := List.forall_mem_cons.1 hfits
    dsimp only at hfirst hle
    rw [ofApplied, ih hpositive hfits]
    -- A target has taken nothing, some of its hit points, or all of them.
    rcases Nat.eq_zero_or_pos taken with rfl | hsome
    · have hlives : ¬ 0 = target.hitPoints := by omega
      simp [hlives]
    · have hhit : ¬ taken = 0 := by omega
      rcases Nat.lt_or_eq_of_le hle with hlt | rfl
      · have hlives : ¬ target.hitPoints ≤ taken := by omega
        have hleft : ¬ taken = target.hitPoints := by omega
        simp [hhit, hlives, hleft, hsome, hlt]
      · simp [hhit, hsome]

/-- The hits `taken` by targets are `given` to them one by one. -/
theorem given_beside (taken : Target → Nat) (targets : List Target) :
    given (targets.map fun target => (target, taken target)) = (targets.map taken).sum := by
  simp [given, Function.comp_def]

/-- The hits that realise `losses`, beside the `targets`, are `Applied` to them. -/
theorem Realised.applied {taken : Target → Nat} (h : Realised targets taken losses) :
    Applied targets (targets.map fun target => (target, taken target)) where
  targets := by simp [Function.comp_def]
  fits := List.forall_mem_map.2 h.fits

/-- What is lost when each target takes some number of hits is `Realised` by them. -/
theorem Realised.ofApplied {taken : Target → Nat}
    (hpositive : ∀ target ∈ targets, 0 < target.hitPoints)
    (hfits : ∀ target ∈ targets, taken target ≤ target.hitPoints) :
    Realised targets taken (Losses.ofApplied (targets.map fun target => (target, taken target))) := by
  have heq := @ofApplied_eq (targets.map fun target => (target, taken target))
    (List.forall_mem_map.2 hpositive) (List.forall_mem_map.2 hfits)
  simp only [List.filter_map, List.map_map, Function.comp_def] at heq
  refine ⟨hfits, ?_, ?_⟩
  · rw [heq]
  · rw [heq]

/-- The same hits `taken` realise the same `losses`, in some order. -/
theorem Realised.perm {taken : Target → Nat} {other : Losses} (h : Realised targets taken losses)
    (hother : Realised targets taken other) :
    losses.killed.Perm other.killed ∧ losses.damaged.Perm other.damaged :=
  ⟨h.killed.trans hother.killed.symm, h.damaged.trans hother.damaged.symm⟩

/-- It does not matter to the check in which order `losses` are listed. -/
theorem check_of_perm {other : Losses} (hnodup : (targets.map Target.unit).Nodup)
    (h : losses.check targets hits = .ok ()) (hkilled : other.killed.Perm losses.killed)
    (hdamaged : other.damaged.Perm losses.damaged) : other.check targets hits = .ok () := by
  obtain ⟨points, hpoints⟩ := exists_points hnodup
  have hvalid := valid_of_check h
  refine check_eq_ok hpoints ⟨fun unit hunit => ?_, fun entry hentry => ?_, ?_⟩ ?_
  · exact hvalid.killed unit (hkilled.mem_iff.1 hunit)
  · exact hvalid.damaged entry (hdamaged.mem_iff.1 hentry)
  · exact (hkilled.append (hdamaged.map Prod.fst)).nodup_iff.2 hvalid.nodup
  · rw [(hkilled.map points).sum_eq, (hdamaged.map Prod.snd).sum_eq, sum_of_check hpoints h]

/-! ### The hits behind losses -/

/-- The hits that `losses` put on the `target`: all its hit points if it is killed, else its
    damage. -/
def takenIn (losses : Losses) (target : Target) : Nat :=
  if target.unit ∈ losses.killed then target.hitPoints
  else damageIn losses.damaged target.unit

/-- A `target` of valid losses takes all its hit points if it is killed. Otherwise it survives, and
    it is listed with the hits it takes unless there are none. -/
theorem Valid.takenIn_cases (h : Valid targets losses) (hnodup : (targets.map Target.unit).Nodup)
    (hpositive : ∀ target ∈ targets, 0 < target.hitPoints) {target : Target}
    (htarget : target ∈ targets) :
    target.unit ∈ losses.killed ∧ takenIn losses target = target.hitPoints ∨
      target.unit ∉ losses.killed ∧ takenIn losses target < target.hitPoints ∧
        (takenIn losses target = 0 ∨
          (target.unit, takenIn losses target) ∈ losses.damaged) := by
  by_cases hkilled : target.unit ∈ losses.killed
  · exact .inl ⟨hkilled, if_pos hkilled⟩
  · have htaken : takenIn losses target = damageIn losses.damaged target.unit := if_neg hkilled
    refine .inr ⟨hkilled, ?_⟩
    rw [htaken]
    rcases damageIn_cases (List.nodup_append.1 h.nodup).2.1 target.unit with
      hzero | ⟨taken, hmem, heq⟩
    · rw [hzero]
      exact ⟨hpositive target htarget, .inl rfl⟩
    · -- The entry is about this very target, as no two of them share a unit.
      obtain ⟨other, hother, hunit, -, hlt⟩ := h.damaged _ hmem
      obtain rfl : other = target := List.inj_on_of_nodup_map hnodup hother htarget hunit
      rw [heq]
      exact ⟨hlt, .inr hmem⟩

/-- Whoever is listed as damaged takes the hits it is listed with, by `takenIn`. -/
theorem Valid.takenIn_of_damaged (h : Valid targets losses) {target : Target} {taken : Nat}
    (hmem : (target.unit, taken) ∈ losses.damaged) : takenIn losses target = taken := by
  obtain ⟨-, hdistinct, hapart⟩ := List.nodup_append.1 h.nodup
  have halive : target.unit ∉ losses.killed := fun hkilled =>
    hapart _ hkilled _ (List.mem_map_of_mem hmem) rfl
  rw [takenIn, if_neg halive, damageIn_of_mem hdistinct hmem]

/-- Losses that are `Valid` are realised by the hits that they put on the `targets`. -/
theorem Valid.realised (h : Valid targets losses) (hnodup : (targets.map Target.unit).Nodup)
    (hpositive : ∀ target ∈ targets, 0 < target.hitPoints) :
    Realised targets (takenIn losses) losses := by
  have hdistinct : targets.Nodup := hnodup.of_map
  obtain ⟨hkilled, hdamaged, -⟩ := List.nodup_append.1 h.nodup
  refine ⟨fun target htarget => ?_, ?_, ?_⟩
  · rcases h.takenIn_cases hnodup hpositive htarget with ⟨-, heq⟩ | ⟨-, hlt, -⟩
    · omega
    · omega
  -- Lists without repetition that have the same members are in another order at most.
  · apply (List.perm_ext_iff_of_nodup hkilled (hnodup.sublist (List.filter_sublist.map _))).2
    intro unit
    simp only [List.mem_map, List.mem_filter, decide_eq_true_eq]
    constructor
    · intro hunit
      obtain ⟨target, htarget, rfl⟩ := List.mem_map.1 (h.killed unit hunit)
      exact ⟨target, ⟨htarget, if_pos hunit⟩, rfl⟩
    · rintro ⟨target, ⟨htarget, hall⟩, rfl⟩
      rcases h.takenIn_cases hnodup hpositive htarget with ⟨hunit, -⟩ | ⟨-, hlt, -⟩
      · exact hunit
      · omega
  · have hentries : ((targets.filter fun target =>
        0 < takenIn losses target ∧ takenIn losses target < target.hitPoints).map
          fun target => (target.unit, takenIn losses target)).Nodup := by
      apply List.Nodup.of_map Prod.fst
      rw [List.map_map]
      exact hnodup.sublist (List.filter_sublist.map _)
    apply (List.perm_ext_iff_of_nodup hdamaged.of_map hentries).2
    rintro ⟨unit, taken⟩
    simp only [List.mem_map, List.mem_filter, decide_eq_true_eq, Prod.mk.injEq]
    constructor
    · intro hmem
      obtain ⟨target, htarget, rfl, hsome, hlt⟩ := h.damaged _ hmem
      obtain rfl := h.takenIn_of_damaged hmem
      exact ⟨target, ⟨htarget, hsome, hlt⟩, rfl, rfl⟩
    · rintro ⟨target, ⟨htarget, hsome, hlt⟩, rfl, rfl⟩
      rcases h.takenIn_cases hnodup hpositive htarget with ⟨-, heq⟩ | ⟨-, -, hzero | hmem⟩
      · omega
      · omega
      · exact hmem

/-! ### The check -/

/-- Accepted `losses` come of the `hits` they put on the `targets`, which are as many as there are,
    or as many as all targets can take. -/
theorem realised_of_check (hnodup : (targets.map Target.unit).Nodup)
    (hpositive : ∀ target ∈ targets, 0 < target.hitPoints)
    (h : losses.check targets hits = .ok ()) :
    Realised targets (takenIn losses) losses ∧
      (targets.map (takenIn losses)).sum = min hits (Target.capacity targets) := by
  obtain ⟨points, hpoints⟩ := exists_points hnodup
  have hrealised := (valid_of_check h).realised hnodup hpositive
  refine ⟨hrealised, ?_⟩
  obtain ⟨hkilled, hdamaged⟩ := hrealised.perm (.ofApplied hpositive hrealised.fits)
  -- What the same hits do to the targets one by one uses up as much.
  have hsum := @sum_ofApplied points (targets.map fun target => (target, takenIn losses target))
    (by rwa [hrealised.applied.targets]) hrealised.applied.fits
  calc (targets.map (takenIn losses)).sum
      = given (targets.map fun target => (target, takenIn losses target)) :=
        (given_beside _ _).symm
    _ = (losses.killed.map points).sum + (losses.damaged.map Prod.snd).sum := by
        rw [← hsum, (hkilled.map points).sum_eq, (hdamaged.map Prod.snd).sum_eq]
    _ = min hits (Target.capacity targets) := sum_of_check hpoints h

/-- For distinct `targets` with hit points, the `check` accepts `losses` just if there are `hits` on
    the targets that realise them: as many as there are, or as many as all targets can take. -/
theorem check_iff_realised (hnodup : (targets.map Target.unit).Nodup)
    (hpositive : ∀ target ∈ targets, 0 < target.hitPoints) (losses : Losses) (hits : Nat) :
    losses.check targets hits = .ok () ↔
      ∃ taken : Target → Nat, Realised targets taken losses ∧
        (targets.map taken).sum = min hits (Target.capacity targets) := by
  constructor
  · intro h
    exact ⟨takenIn losses, realised_of_check hnodup hpositive h⟩
  · rintro ⟨taken, hrealised, hsum⟩
    obtain ⟨points, hpoints⟩ := exists_points hnodup
    have hgiven := (given_beside taken targets).trans hsum
    have haccepted := hrealised.applied.check_ofApplied hnodup hpoints hgiven
    obtain ⟨hkilled, hdamaged⟩ := hrealised.perm (.ofApplied hpositive hrealised.fits)
    exact check_of_perm hnodup haccepted hkilled hdamaged

/-- Two of three `targets` killed, listed backwards, and one damaged: four hits can do that. That a
    target is damaged and killed at once no hits can do. -/
theorem check_iff_realised_trio :
    let targets : List Target := [⟨⟨1⟩, 3⟩, ⟨⟨2⟩, 1⟩, ⟨⟨3⟩, 2⟩]
    (targets.map Target.unit).Nodup ∧ (∀ target ∈ targets, 0 < target.hitPoints) ∧
      (∃ taken : Target → Nat, Realised targets taken ⟨[⟨3⟩, ⟨2⟩], [(⟨1⟩, 1)]⟩ ∧
        (targets.map taken).sum = 4) ∧
      ¬ ∃ taken : Target → Nat, Realised targets taken ⟨[⟨1⟩], [(⟨1⟩, 1)]⟩ ∧
        (targets.map taken).sum = 4 := by
  refine ⟨by decide, by decide, ?_, ?_⟩
  · exact (check_iff_realised (by decide) (by decide) ⟨[⟨3⟩, ⟨2⟩], [(⟨1⟩, 1)]⟩ 4).1 rfl
  · intro h
    have hchecked := (check_iff_realised (by decide) (by decide) ⟨[⟨1⟩], [(⟨1⟩, 1)]⟩ 4).2 h
    nomatch hchecked

end Flak.Losses
