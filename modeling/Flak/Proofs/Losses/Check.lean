import Flak.Losses.Check
import Flak.Proofs.Board.Changes
import Mathlib.Algebra.GroupWithZero.Nat

namespace Flak

/-!
# What accepted losses are made of

* `exists_of_killHits_cons`, `exists_of_damageHits_cons`, `exists_of_check` — what was made sure of
  when the check goes on; `check_of_parts` — what it comes to then;
* `Valid` — what `Losses.check` makes sure of unit by unit; `valid_of_check` says that it does;
* `Exact` — losses that use up the hits there are, or all that the units of a board can take;
* `exact_of_check` — so do losses that are accepted for targets found on the board.
-/

namespace Losses

/-- Whether the `losses` name `targets` only, none of them twice, and damage only those who survive
    it. -/
structure Valid (targets : List Target) (losses : Losses) : Prop where
  killed : ∀ unit ∈ losses.killed, unit ∈ targets.map Target.unit
  damaged : ∀ entry ∈ losses.damaged, ∃ target ∈ targets,
    target.unit = entry.1 ∧ 0 < entry.2 ∧ entry.2 < target.hitPoints
  nodup : (losses.killed ++ losses.damaged.map Prod.fst).Nodup

/-- Without hits nobody may be lost: `check` accepts that nobody is. -/
theorem check_empty (targets : List Target) : check {} targets 0 = .ok () := by
  have hsize : ¬ targets.length < size {} := Nat.not_lt_zero _
  simp [check, hsize, killHits, damageHits]
  rfl

/-- The `target` that is found is one of the `targets` and has the number looked for. -/
theorem mem_of_find? {targets : List Target} {unit : UnitId} {target : Target}
    (h : (targets.find? fun target => target.unit = unit) = some target) :
    target ∈ targets ∧ target.unit = unit :=
  ⟨List.mem_of_find?_eq_some h, by simpa using List.find?_some h⟩

/-- What `killHits` made sure of when it has accepted the first `unit`. -/
theorem exists_of_killHits_cons {targets : List Target} {seen rest after : List UnitId}
    {unit : UnitId} {hits : Nat} (h : killHits targets seen (unit :: rest) = .ok (hits, after)) :
    ∃ target ∈ targets, target.unit = unit ∧ unit ∉ seen ∧
      ∃ more, killHits targets (unit :: seen) rest = .ok (more, after) ∧
        hits = target.hitPoints + more := by
  rw [killHits] at h
  cases hfind : targets.find? fun target => target.unit = unit with
  | none => simp [hfind] at h
  | some target =>
    obtain ⟨hmem, rfl⟩ := mem_of_find? hfind
    by_cases hseen : target.unit ∈ seen
    · simp [hfind, hseen] at h
    · simp only [hfind, hseen, if_false] at h
      obtain ⟨⟨more, restSeen⟩, hrest, hlast⟩ := Fault.exists_of_bind h
      obtain ⟨rfl, rfl⟩ := Prod.mk.inj (Except.ok.inj hlast)
      exact ⟨target, hmem, rfl, hseen, more, hrest, rfl⟩

/-- What `damageHits` made sure of when it has accepted the first entry. -/
theorem exists_of_damageHits_cons {targets : List Target} {seen : List UnitId} {unit : UnitId}
    {taken hits : Nat} {rest : List (UnitId × Nat)}
    (h : damageHits targets seen ((unit, taken) :: rest) = .ok hits) :
    ∃ target ∈ targets, target.unit = unit ∧ unit ∉ seen ∧ 0 < taken ∧
      taken < target.hitPoints ∧
        ∃ more, damageHits targets (unit :: seen) rest = .ok more ∧ hits = taken + more := by
  rw [damageHits] at h
  cases hfind : targets.find? fun target => target.unit = unit with
  | none => simp [hfind] at h
  | some target =>
    obtain ⟨hmem, rfl⟩ := mem_of_find? hfind
    by_cases hbad : target.unit ∈ seen ∨ taken = 0 ∨ target.hitPoints ≤ taken
    · simp [hfind, hbad] at h
    · simp only [hfind, hbad, if_false] at h
      obtain ⟨more, hrest, hlast⟩ := Fault.exists_of_bind h
      obtain ⟨hseen, hsome, hfits⟩ : target.unit ∉ seen ∧ ¬ taken = 0 ∧
          ¬ target.hitPoints ≤ taken := by simpa [not_or] using hbad
      exact ⟨target, hmem, rfl, hseen, by omega, by omega, more, hrest,
        (Except.ok.inj hlast).symm⟩

/-- The parts of a `check` that accepts. -/
theorem exists_of_check {targets : List Target} {losses : Losses} {hits : Nat}
    (h : losses.check targets hits = .ok ()) :
    ∃ killing seen damaging, killHits targets [] losses.killed = .ok (killing, seen) ∧
      damageHits targets seen losses.damaged = .ok damaging ∧
        killing + damaging = min hits (Target.capacity targets) := by
  by_cases hsize : targets.length < losses.size
  · rw [check, if_pos hsize] at h
    obtain ⟨_, hfault, -⟩ := Fault.exists_of_bind h
    nomatch hfault
  rw [check, if_neg hsize] at h
  obtain ⟨⟨killing, seen⟩, hkill, hrest⟩ := Fault.exists_of_bind h
  obtain ⟨damaging, hdamage, hlast⟩ := Fault.exists_of_bind hrest
  refine ⟨killing, seen, damaging, hkill, hdamage, ?_⟩
  -- Any other number of hits is refused at the end.
  by_cases hne : killing + damaging ≠ min hits (Target.capacity targets)
  · dsimp only at hlast
    rw [if_pos hne] at hlast
    nomatch hlast
  · exact Decidable.not_not.1 hne

/-- What the `check` makes of its parts when each of them goes on: it compares the `hits` used
    up. -/
theorem check_of_parts {targets : List Target} {losses : Losses} {killing damaging : Nat}
    {seen : List UnitId} (hsize : losses.size ≤ targets.length)
    (hkill : killHits targets [] losses.killed = .ok (killing, seen))
    (hdamage : damageHits targets seen losses.damaged = .ok damaging) (hits : Nat) :
    losses.check targets hits =
      if killing + damaging = min hits (Target.capacity targets) then .ok ()
      else .error (.casualtyOverflow (killing + damaging) (min hits (Target.capacity targets))) := by
  have hfits : ¬ targets.length < losses.size := by omega
  rw [check, if_neg hfits]
  show (killHits targets [] losses.killed >>= fun result =>
    damageHits targets result.2 losses.damaged >>= fun damaging => _) = _
  rw [hkill]
  show (damageHits targets seen losses.damaged >>= fun damaging => _) = _
  rw [hdamage]
  by_cases hsum : killing + damaging = min hits (Target.capacity targets)
  · rw [if_pos hsum]
    exact if_neg fun hne => hne hsum
  · rw [if_neg hsum]
    exact if_pos hsum

/-! ### What is named -/

/-- Killed `units` are `targets` not `seen` before, each listed once, and are seen afterwards. -/
theorem killHits_eq_ok {targets : List Target} {seen units : List UnitId} {hits : Nat}
    {after : List UnitId} (h : killHits targets seen units = .ok (hits, after)) :
    (∀ unit ∈ units, unit ∈ targets.map Target.unit ∧ unit ∉ seen) ∧ units.Nodup ∧
      ∀ unit, unit ∈ after ↔ unit ∈ units ∨ unit ∈ seen := by
  induction units generalizing seen hits after with
  | nil =>
    obtain ⟨-, rfl⟩ : 0 = hits ∧ seen = after := by simpa [killHits] using h
    simp
  | cons unit rest ih =>
    obtain ⟨target, hmem, rfl, hseen, more, hrest, -⟩ := exists_of_killHits_cons h
    obtain ⟨hfresh, hnodup, hiff⟩ := ih hrest
    refine ⟨?_, ?_, ?_⟩
    · intro other hother
      rcases List.mem_cons.1 hother with rfl | hother
      · exact ⟨List.mem_map_of_mem hmem, hseen⟩
      · obtain ⟨htarget, hnew⟩ := hfresh other hother
        exact ⟨htarget, fun h => hnew (List.mem_cons_of_mem _ h)⟩
    · -- The rest has to be new beside this unit too.
      refine List.nodup_cons.2 ⟨fun hmem => ?_, hnodup⟩
      exact (hfresh _ hmem).2 List.mem_cons_self
    · intro other
      rw [hiff other, List.mem_cons, List.mem_cons]
      exact or_left_comm.trans or_assoc.symm

/-- Damaged units are `targets` not `seen` before that survive, each listed once. -/
theorem damageHits_eq_ok {targets : List Target} {seen : List UnitId}
    {damaged : List (UnitId × Nat)} {hits : Nat} (h : damageHits targets seen damaged = .ok hits) :
    (∀ entry ∈ damaged, entry.1 ∉ seen ∧ ∃ target ∈ targets,
      target.unit = entry.1 ∧ 0 < entry.2 ∧ entry.2 < target.hitPoints) ∧
      (damaged.map Prod.fst).Nodup := by
  induction damaged generalizing seen hits with
  | nil => simp
  | cons entry rest ih =>
    obtain ⟨target, hmem, hunit, hseen, hsome, hfits, more, hrest, -⟩ := exists_of_damageHits_cons h
    obtain ⟨hall, hnodup⟩ := ih hrest
    refine ⟨?_, ?_⟩
    · intro other hother
      rcases List.mem_cons.1 hother with rfl | hother
      · exact ⟨hseen, target, hmem, hunit, hsome, hfits⟩
      · obtain ⟨hnew, hfits⟩ := hall other hother
        exact ⟨fun h => hnew (List.mem_cons_of_mem _ h), hfits⟩
    · refine List.nodup_cons.2 ⟨fun hmem => ?_, hnodup⟩
      obtain ⟨other, hother, heq⟩ := List.mem_map.1 hmem
      exact (hall other hother).1 (heq ▸ List.mem_cons_self)

/-- What the `check` accepts is `Valid`. -/
theorem valid_of_check {targets : List Target} {losses : Losses} {hits : Nat}
    (h : losses.check targets hits = .ok ()) : Valid targets losses := by
  obtain ⟨killing, seen, damaging, hkill, hdamage, -⟩ := exists_of_check h
  obtain ⟨hkilled, hnodup, hseen⟩ := killHits_eq_ok hkill
  obtain ⟨hdamaged, hnodup'⟩ := damageHits_eq_ok hdamage
  refine ⟨fun unit hunit => (hkilled unit hunit).1,
    fun entry hentry => (hdamaged entry hentry).2,
    List.nodup_append.2 ⟨hnodup, hnodup', ?_⟩⟩
  -- What is damaged was not seen among the killed.
  intro unit hunit other hother heq
  obtain ⟨entry, hentry, rfl⟩ := List.mem_map.1 hother
  exact (hdamaged entry hentry).1 ((hseen _).2 (.inl (heq ▸ hunit)))

/-! ### Hits used up -/

/-- Killed `units` use up the hit `points` they have left. -/
theorem killHits_eq_sum {targets : List Target} {points : UnitId → Nat}
    (hpoints : ∀ target ∈ targets, target.hitPoints = points target.unit)
    {seen units : List UnitId} {hits : Nat} {after : List UnitId}
    (h : killHits targets seen units = .ok (hits, after)) : hits = (units.map points).sum := by
  induction units generalizing seen hits after with
  | nil =>
    obtain ⟨rfl, -⟩ : 0 = hits ∧ seen = after := by simpa [killHits] using h
    rfl
  | cons unit rest ih =>
    obtain ⟨target, hmem, rfl, -, more, hrest, rfl⟩ := exists_of_killHits_cons h
    rw [List.map_cons, List.sum_cons, hpoints target hmem, ih hrest]

/-- Damaged units use up the `hits` they take. -/
theorem damageHits_eq_sum {targets : List Target} {seen : List UnitId}
    {damaged : List (UnitId × Nat)} {hits : Nat} (h : damageHits targets seen damaged = .ok hits) :
    hits = (damaged.map Prod.snd).sum := by
  induction damaged generalizing seen hits with
  | nil =>
    obtain rfl : 0 = hits := by simpa [damageHits] using h
    rfl
  | cons entry rest ih =>
    obtain ⟨_, _, _, _, _, _, more, hrest, rfl⟩ := exists_of_damageHits_cons h
    rw [List.map_cons, List.sum_cons, ih hrest]

/-- Accepted `losses` use up the `hits` there are, or the hit `points` of all `targets` if they are
    fewer. -/
theorem sum_of_check {targets : List Target} {points : UnitId → Nat}
    (hpoints : ∀ target ∈ targets, target.hitPoints = points target.unit) {losses : Losses}
    {hits : Nat} (h : losses.check targets hits = .ok ()) :
    (losses.killed.map points).sum + (losses.damaged.map Prod.snd).sum =
      min hits (Target.capacity targets) := by
  obtain ⟨killing, seen, damaging, hkill, hdamage, hsum⟩ := exists_of_check h
  rw [← killHits_eq_sum hpoints hkill, ← damageHits_eq_sum hdamage, hsum]

end Losses

namespace Board

/-- The hit points that the unit `id` has left on the `board`, none if it is not known. -/
def hitPointsLeft (board : Board) (id : UnitId) : Nat :=
  match board.unitWithType id with
  | .ok (unit, type) => unit.hitPointsLeft type
  | .error _ => 0

/-- What `Board.targets` gives has the hit points that its `units` have left, and together they have
    all there are. -/
theorem hitPoints_targets {board : Board} {units : List UnitId} {targets : List Target}
    (h : board.targets units = .ok targets) :
    (∀ target ∈ targets, target.hitPoints = board.hitPointsLeft target.unit) ∧
      (targets.map Target.hitPoints).sum = (units.map board.hitPointsLeft).sum := by
  induction units generalizing targets with
  | nil =>
    obtain rfl : [] = targets := by simpa [Board.targets] using h
    simp
  | cons id rest ih =>
    obtain ⟨unit, type, others, hid, hrest, rfl⟩ := exists_of_targets_cons h
    obtain ⟨hpoints, hsum⟩ := ih hrest
    have hleft : board.hitPointsLeft id = unit.hitPointsLeft type := by rw [hitPointsLeft, hid]
    rw [List.map_cons, List.sum_cons, hleft, ← hsum]
    -- A unit without hit points left is no target, and it adds nothing.
    by_cases hnone : unit.hitPointsLeft type = 0
    · simp only [hnone, if_true, Nat.zero_add]
      exact ⟨hpoints, trivial⟩
    · simp only [hnone, if_false]
      refine ⟨fun target htarget => ?_, by simp⟩
      rcases List.mem_cons.1 htarget with rfl | htarget
      · exact hleft.symm
      · exact hpoints target htarget

/-- Whoever is among the `targets` has hit points left. -/
theorem hitPoints_pos_of_targets {board : Board} {units : List UnitId} {targets : List Target}
    (h : board.targets units = .ok targets) : ∀ target ∈ targets, 0 < target.hitPoints := by
  induction units generalizing targets with
  | nil =>
    obtain rfl : [] = targets := by simpa [Board.targets] using h
    simp
  | cons id rest ih =>
    obtain ⟨unit, type, others, -, hrest, rfl⟩ := exists_of_targets_cons h
    by_cases hnone : unit.hitPointsLeft type = 0
    · simp only [hnone, if_true]
      exact ih hrest
    · simp only [hnone, if_false]
      exact List.forall_mem_cons.2 ⟨Nat.pos_of_ne_zero hnone, ih hrest⟩

end Board

namespace Losses

/-- Whether the `losses` use up as many `hits` as there are, or all that these `units` of the
    `board` can take if that is less, and leave each damaged unit its last hit point. -/
structure Exact (losses : Losses) (board : Board) (units : List UnitId) (hits : Nat) : Prop where
  consumed : (losses.killed.map board.hitPointsLeft).sum + (losses.damaged.map Prod.snd).sum =
    min hits (units.map board.hitPointsLeft).sum
  survive : ∀ entry ∈ losses.damaged, entry.2 < board.hitPointsLeft entry.1

/-- The capacity of `targets` is the sum of their hit points. -/
theorem capacity_eq_sum (targets : List Target) :
    Target.capacity targets = (targets.map Target.hitPoints).sum := by
  rw [Target.capacity, List.sum_eq_foldl, List.foldl_map]

/-- Losses that `check` accepts for targets on the `board` are `Exact`. -/
theorem exact_of_check {board : Board} {units : List UnitId} {targets : List Target}
    {losses : Losses} {hits : Nat} (htargets : board.targets units = .ok targets)
    (h : losses.check targets hits = .ok ()) : losses.Exact board units hits := by
  obtain ⟨hpoints, hsum⟩ := Board.hitPoints_targets htargets
  refine ⟨?_, fun entry hentry => ?_⟩
  · rw [sum_of_check hpoints h, capacity_eq_sum, hsum]
  · obtain ⟨target, htarget, hunit, -, hlt⟩ := (valid_of_check h).damaged entry hentry
    rw [hpoints target htarget, hunit] at hlt
    exact hlt

end Losses

end Flak
