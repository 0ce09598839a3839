import Flak.Proofs.Losses.Selection
import Mathlib.Algebra.Order.BigOperators.Group.List
import Mathlib.Algebra.Order.Group.Nat

namespace Flak.Losses

/-!
# The fixed rule loses as few units as possible

Hits that targets can survive are given out first. When hits are left after that, every target is
down to its last hit point, so that each of them kills one target:

* `absorption` — the hits that targets can survive together; `wounds` — targets that took as many;
* `pour_of_roomOf_le`, `exists_of_pour` — how hits are given out in turn;
* `automaticHits_of_le`, `automaticHits_of_ge` — what the fixed rule gives to each target;
* `DamagedInTurn`, `automatic_of_le`, `automatic_of_ge` — who is damaged and who is lost by it;
* `consumed_le` — every hit that is used up kills a unit or is one that a target can survive;
* `automatic_fewest` — so no selection that is accepted kills fewer.
-/

variable {targets : List Target} {entries : List (Target × Nat)} {room : Target × Nat → Nat}
  {hits left : Nat}

/-- The hits that the `targets` can survive together. -/
def absorption (targets : List Target) : Nat := (targets.map absorbable).sum

/-- The `targets` when they have taken all the hits they can survive. -/
def wounds (targets : List Target) : List (UnitId × Nat) :=
  (targets.filter fun target => 0 < absorbable target).map fun target =>
    (target.unit, absorbable target)

/-- A target with hit points has one more than it can lose: that makes the difference between
    capacity and `absorption`. -/
theorem capacity_eq_absorption_add (hpositive : ∀ target ∈ targets, 0 < target.hitPoints) :
    Target.capacity targets = absorption targets + targets.length := by
  rw [capacity_eq_sum]
  induction targets with
  | nil => rfl
  | cons target rest ih =>
    obtain ⟨hfirst, hrest⟩ := List.forall_mem_cons.1 hpositive
    have hothers := ih hrest
    have hlast : absorbable target + 1 = target.hitPoints := by unfold absorbable; omega
    simp only [absorption, List.map_cons, List.sum_cons, List.length_cons] at hothers ⊢
    omega

/-! ### Hits given out in turn -/

/-- To `pour` no hits changes nothing. -/
theorem pour_zero (room : Target × Nat → Nat) (entries : List (Target × Nat)) :
    (pour room entries 0).1 = entries := by
  induction entries with
  | nil => rfl
  | cons entry rest ih => simp only [pour, Nat.min_zero, Nat.sub_zero, Nat.add_zero, ih]

/-- Hits that are enough for the `room` of all targets fill them. -/
theorem pour_of_roomOf_le (h : roomOf room entries ≤ left) :
    (pour room entries left).1 = entries.map fun entry => (entry.1, entry.2 + room entry) := by
  induction entries generalizing left with
  | nil => rfl
  | cons entry rest ih =>
    have hroom : roomOf room (entry :: rest) = room entry + roomOf room rest := rfl
    have htaken : min (room (entry.1, entry.2)) left = room entry := by
      show min (room entry) left = room entry
      omega
    simp only [pour, htaken, List.map_cons]
    rw [ih (by omega)]

/-- Hits that are not enough for the `room` of all fill the targets in front, and one behind them in
    part. -/
theorem exists_of_pour (h : left < roomOf room entries) :
    ∃ full entry rest taken, entries = full ++ entry :: rest ∧ taken < room entry ∧
      (pour room entries left).1 = (full.map fun entry => (entry.1, entry.2 + room entry)) ++
        (entry.1, entry.2 + taken) :: rest := by
  induction entries generalizing left with
  | nil => simp [roomOf] at h
  | cons entry rest ih =>
    have hroom : roomOf room (entry :: rest) = room entry + roomOf room rest := rfl
    by_cases hlast : left < room entry
    · -- All that is left goes to the first target.
      have htaken : min (room (entry.1, entry.2)) left = left := by
        show min (room entry) left = left
        omega
      refine ⟨[], entry, rest, left, rfl, hlast, ?_⟩
      simp only [pour, htaken, Nat.sub_self, pour_zero, List.map_nil, List.nil_append]
    · have htaken : min (room (entry.1, entry.2)) left = room entry := by
        show min (room entry) left = room entry
        omega
      obtain ⟨full, next, others, taken, rfl, hlt, hpour⟩ := @ih (left - room entry) (by omega)
      refine ⟨entry :: full, next, others, taken, rfl, hlt, ?_⟩
      simp only [pour, htaken, hpour, List.map_cons, List.cons_append]

/-- Where every target is down to its last hit point, each hit by `pour` takes the last one of the
    next. -/
theorem pour_lastPoints (hpositive : ∀ target ∈ targets, 0 < target.hitPoints) (left : Nat) :
    (pour (fun entry => entry.1.hitPoints - entry.2)
      (targets.map fun target => (target, absorbable target)) left).1 =
        ((targets.take left).map fun target => (target, target.hitPoints)) ++
          (targets.drop left).map fun target => (target, absorbable target) := by
  induction targets generalizing left with
  | nil => rw [List.take_nil, List.drop_nil]; rfl
  | cons target rest ih =>
    obtain ⟨hfirst, hrest⟩ := List.forall_mem_cons.1 hpositive
    cases left with
    | zero => rw [pour_zero]; rfl
    | succ left =>
      have hlast : absorbable target + 1 = target.hitPoints := by unfold absorbable; omega
      have htaken : min (target.hitPoints - absorbable target) (left + 1) = 1 := by omega
      simp only [List.map_cons, pour, htaken, hlast, Nat.add_sub_cancel, ih hrest,
        List.take_succ_cons, List.drop_succ_cons, List.cons_append]

/-! ### What each target takes -/

/-- The room of targets that nothing has hit, by `absorbable`, is their `absorption`. -/
theorem roomOf_absorbable (targets : List Target) :
    roomOf (fun entry => absorbable entry.1) (targets.map (·, 0)) = absorption targets := by
  simp only [roomOf, absorption, List.map_map]
  rfl

/-- The hits that the `targets` can survive together are survived: only the first `pour` gives
    any. -/
theorem automaticHits_of_le (hhits : hits < hitModulus) (h : hits ≤ absorption targets) :
    automaticHits targets hits =
      (pour (fun entry => absorbable entry.1) (targets.map (·, 0)) hits).1 := by
  have hexcess := (pour_eq (fun entry => absorbable entry.1) (targets.map (·, 0)) hits).2
  rw [roomOf_absorbable, Nat.sub_eq_zero_of_le h] at hexcess
  rw [automaticHits, Nat.mod_eq_of_lt hhits]
  dsimp only
  rw [hexcess, pour_zero]

/-- Hits beyond the `absorption` of the targets kill, each the next target. -/
theorem automaticHits_of_ge (hpositive : ∀ target ∈ targets, 0 < target.hitPoints)
    (hhits : hits < hitModulus) (h : absorption targets ≤ hits) :
    automaticHits targets hits =
      ((targets.take (hits - absorption targets)).map fun target => (target, target.hitPoints)) ++
        (targets.drop (hits - absorption targets)).map fun target =>
          (target, absorbable target) := by
  have hroom := roomOf_absorbable targets
  have hexcess := (pour_eq (fun entry => absorbable entry.1) (targets.map (·, 0)) hits).2
  have hfull := pour_of_roomOf_le (hroom ▸ h)
  rw [hroom] at hexcess
  rw [automaticHits, Nat.mod_eq_of_lt hhits]
  dsimp only
  rw [hfull, hexcess, List.map_map, ← pour_lastPoints hpositive]
  simp only [Function.comp_def, Nat.zero_add]

/-! ### Who is lost -/

/-- The losses of some targets and others behind them, by `ofApplied`, are the two put together. -/
theorem ofApplied_append (first second : List (Target × Nat)) :
    ofApplied (first ++ second) =
      ⟨(ofApplied first).killed ++ (ofApplied second).killed,
        (ofApplied first).damaged ++ (ofApplied second).damaged⟩ := by
  induction first with
  | nil => rfl
  | cons entry rest ih =>
    obtain ⟨target, hits⟩ := entry
    simp only [List.cons_append, ofApplied, ih]
    split
    · rfl
    · split <;> rfl

/-- Nobody is lost by `ofApplied` where nobody is hit. -/
theorem ofApplied_unhit (targets : List Target) : ofApplied (targets.map (·, 0)) = {} := by
  induction targets with
  | nil => rfl
  | cons target rest ih => simpa [ofApplied] using ih

/-- By `ofApplied`, targets that take all their hit points are killed. -/
theorem ofApplied_hitPoints (hpositive : ∀ target ∈ targets, 0 < target.hitPoints) :
    ofApplied (targets.map fun target => (target, target.hitPoints)) =
      ⟨targets.map Target.unit, []⟩ := by
  induction targets with
  | nil => rfl
  | cons target rest ih =>
    obtain ⟨hfirst, hrest⟩ := List.forall_mem_cons.1 hpositive
    have hsome : ¬ target.hitPoints = 0 := by omega
    simp only [List.map_cons, ofApplied, ih hrest, hsome, if_false, Nat.le_refl, if_true]

/-- By `ofApplied`, targets that take what they can survive are damaged, unless that is nothing. -/
theorem ofApplied_absorbable (hpositive : ∀ target ∈ targets, 0 < target.hitPoints) :
    ofApplied (targets.map fun target => (target, absorbable target)) = ⟨[], wounds targets⟩ := by
  induction targets with
  | nil => rfl
  | cons target rest ih =>
    obtain ⟨hfirst, hrest⟩ := List.forall_mem_cons.1 hpositive
    have hsurvives : ¬ target.hitPoints ≤ absorbable target := by unfold absorbable; omega
    simp only [List.map_cons, ofApplied, ih hrest, hsurvives, if_false]
    by_cases hnone : absorbable target = 0
    · simp [hnone, wounds]
    · have hsome : 0 < absorbable target := by omega
      simp [hnone, hsome, wounds]

/-- Damage in target order: the `targets` in front have taken all they can survive, the next one may
    have taken fewer hits, and those behind it have taken none. -/
def DamagedInTurn (targets : List Target) (damaged : List (UnitId × Nat)) : Prop :=
  ∃ full rest part, targets = full ++ rest ∧ damaged = wounds full ++ part ∧
    (part = [] ∨ ∃ target others taken, rest = target :: others ∧ 0 < taken ∧
      taken < absorbable target ∧ part = [(target.unit, taken)])

/-- The `wounds` of all targets are damage in target order. -/
theorem damagedInTurn_wounds (targets : List Target) : DamagedInTurn targets (wounds targets) :=
  ⟨targets, [], [], (List.append_nil targets).symm, (List.append_nil _).symm, .inl rfl⟩

/-- As many `hits` as can be survived kill nobody and damage the targets in turn. -/
theorem automatic_of_le (hpositive : ∀ target ∈ targets, 0 < target.hitPoints)
    (hhits : hits < hitModulus) (h : hits ≤ absorption targets) :
    ∃ damaged, automatic targets hits = ⟨[], damaged⟩ ∧ DamagedInTurn targets damaged := by
  have hroom := roomOf_absorbable targets
  rw [automatic, automaticHits_of_le hhits h]
  rcases Nat.lt_or_eq_of_le h with hlt | heq
  · obtain ⟨full, entry, rest, taken, hentries, htaken, hpour⟩ := exists_of_pour (hroom ▸ hlt)
    -- The entries come from the targets, and nobody has taken a hit yet.
    obtain ⟨front, back, rfl, rfl, hback⟩ := List.map_eq_append_iff.1 hentries
    obtain ⟨target, others, rfl, rfl, rfl⟩ := List.map_eq_cons_iff.1 hback
    have hfront : ∀ target ∈ front, 0 < target.hitPoints := fun target htarget =>
      hpositive target (List.mem_append_left _ htarget)
    have hfull : (front.map (·, 0)).map (fun entry => (entry.1, entry.2 + absorbable entry.1)) =
        front.map fun target => (target, absorbable target) := by
      simp only [List.map_map, Function.comp_def, Nat.zero_add]
    have hlive : ¬ target.hitPoints ≤ taken := by
      have : taken < target.hitPoints - 1 := htaken
      omega
    rw [hpour, hfull, ofApplied_append, ofApplied_absorbable hfront]
    simp only [Nat.zero_add, ofApplied, ofApplied_unhit, hlive, if_false]
    by_cases hnone : taken = 0
    · refine ⟨wounds front, ?_, front, target :: others, [], rfl, ?_, .inl rfl⟩
      · simp only [hnone, if_true, List.append_nil]
      · rw [List.append_nil]
    · refine ⟨wounds front ++ [(target.unit, taken)], ?_, front, target :: others, _, rfl, rfl, ?_⟩
      · simp only [hnone, if_false, List.append_nil]
      · exact .inr ⟨target, others, taken, rfl, by omega, htaken, rfl⟩
  · have hfull := pour_of_roomOf_le (hroom.trans heq.symm).le
    refine ⟨wounds targets, ?_, damagedInTurn_wounds targets⟩
    rw [hfull, List.map_map]
    simp only [Function.comp_def, Nat.zero_add, ofApplied_absorbable hpositive]

/-- As many `hits` as go beyond the `absorption` kill the first targets, one each, and leave the
    others their last hit point. -/
theorem automatic_of_ge (hpositive : ∀ target ∈ targets, 0 < target.hitPoints)
    (hhits : hits < hitModulus) (h : absorption targets ≤ hits) :
    automatic targets hits = ⟨(targets.take (hits - absorption targets)).map Target.unit,
      wounds (targets.drop (hits - absorption targets))⟩ := by
  rw [automatic, automaticHits_of_ge hpositive hhits h, ofApplied_append,
    ofApplied_hitPoints fun target htarget => hpositive target (List.mem_of_mem_take htarget),
    ofApplied_absorbable fun target htarget => hpositive target (List.mem_of_mem_drop htarget),
    List.append_nil, List.nil_append]

/-! ### Any other selection -/

/-- Every hit that is used up kills a unit or is one of the `absorption`, which targets can
    survive. -/
theorem consumed_le (hnodup : (targets.map Target.unit).Nodup) {losses : Losses}
    (h : losses.check targets hits = .ok ()) :
    min hits (Target.capacity targets) ≤ losses.killed.length + absorption targets := by
  obtain ⟨points, hpoints⟩ := exists_points hnodup
  have hvalid := valid_of_check h
  let spare : UnitId → Nat := fun unit => points unit - 1
  -- What those who are lost can survive is among what all targets can.
  have hlost : ((losses.killed ++ losses.damaged.map Prod.fst).map spare).sum ≤
      absorption targets := by
    obtain ⟨lost, hperm, hsublist⟩ := List.subperm_of_subset hvalid.nodup hvalid.subset
    have htargets : (targets.map Target.unit).map spare = targets.map absorbable := by
      rw [List.map_map]
      refine List.map_congr_left fun target htarget => ?_
      show points target.unit - 1 = target.hitPoints - 1
      rw [hpoints target htarget]
    calc ((losses.killed ++ losses.damaged.map Prod.fst).map spare).sum
        = (lost.map spare).sum := ((hperm.map spare).sum_eq).symm
      _ ≤ ((targets.map Target.unit).map spare).sum :=
          (hsublist.map spare).sum_le_sum fun _ _ => Nat.zero_le _
      _ = absorption targets := by rw [htargets, absorption]
  -- A unit that is killed takes one hit more than it can survive.
  have hkilled : (losses.killed.map points).sum ≤
      losses.killed.length + (losses.killed.map spare).sum := by
    have hle : (losses.killed.map points).sum ≤ (losses.killed.map fun unit => 1 + spare unit).sum :=
      List.sum_le_sum fun unit _ => by show points unit ≤ 1 + (points unit - 1); omega
    simpa [List.sum_map_add] using hle
  have hdamaged : (losses.damaged.map Prod.snd).sum ≤
      ((losses.damaged.map Prod.fst).map spare).sum := by
    rw [List.map_map]
    refine List.sum_le_sum fun entry hentry => ?_
    obtain ⟨target, htarget, hunit, -, hlt⟩ := hvalid.damaged entry hentry
    show entry.2 ≤ points entry.1 - 1
    rw [← hunit, ← hpoints target htarget]
    omega
  have hconsumed := sum_of_check hpoints h
  rw [List.map_append, List.sum_append] at hlost
  omega

/-! ### The fewest -/

/-- For distinct `targets` with hit points and `hits` that can be counted, the fixed rule kills as
    many targets as there are hits beyond those that the targets can survive together, the first
    ones first. What it selects is accepted, and nothing that is accepted kills fewer. If somebody
    is killed, all others are down to their last hit point; otherwise the targets are damaged in
    turn. -/
theorem automatic_fewest (hnodup : (targets.map Target.unit).Nodup)
    (hpositive : ∀ target ∈ targets, 0 < target.hitPoints) (hhits : hits < hitModulus) :
    let losses := automatic targets hits
    let kills := min hits (Target.capacity targets) - absorption targets
    losses.killed.length = kills ∧ losses.killed = (targets.take kills).map Target.unit ∧
      losses.check targets hits = .ok () ∧
      (∀ other : Losses, other.check targets hits = .ok () → kills ≤ other.killed.length) ∧
      (losses.killed ≠ [] → losses.damaged = wounds (targets.drop kills)) ∧
      (losses.killed = [] → DamagedInTurn targets losses.damaged) := by
  dsimp only
  have hcapacity := capacity_eq_absorption_add hpositive
  have haccepted : (automatic targets hits).check targets hits = .ok () := by
    obtain ⟨points, hpoints⟩ := exists_points hnodup
    exact check_automatic hnodup hpoints hhits
  have hfewest : ∀ other : Losses, other.check targets hits = .ok () →
      min hits (Target.capacity targets) - absorption targets ≤ other.killed.length := by
    intro other hother
    have := consumed_le hnodup hother
    omega
  rcases Nat.le_total hits (absorption targets) with hle | hge
  · obtain ⟨damaged, hautomatic, hturn⟩ := automatic_of_le hpositive hhits hle
    have hnone : min hits (Target.capacity targets) - absorption targets = 0 := by omega
    rw [hnone] at hfewest ⊢
    rw [hautomatic] at haccepted ⊢
    exact ⟨rfl, rfl, haccepted, hfewest, fun hsome => absurd rfl hsome, fun _ => hturn⟩
  · -- Beyond the last target there is nobody to kill, however many hits are left.
    have hkills : min hits (Target.capacity targets) - absorption targets =
        min (hits - absorption targets) targets.length := by omega
    have hautomatic := automatic_of_ge hpositive hhits hge
    rw [hkills] at hfewest ⊢
    rw [← List.take_eq_take_min, ← List.drop_eq_drop_min]
    rw [hautomatic] at haccepted ⊢
    refine ⟨?_, rfl, haccepted, hfewest, fun _ => rfl, fun hnobody => ?_⟩
    · rw [List.length_map, List.length_take]
    · have hall : targets.drop (hits - absorption targets) = targets := by
        have htake := List.take_append_drop (hits - absorption targets) targets
        rwa [List.map_eq_nil_iff.1 hnobody, List.nil_append] at htake
      rw [hall]
      exact damagedInTurn_wounds targets

/-- A target of three hit points, one of one and one of two under five hits by `automatic`: two are
    killed, and the third is left one hit point. -/
theorem automatic_fewest_trio :
    let targets : List Target := [⟨⟨1⟩, 3⟩, ⟨⟨2⟩, 1⟩, ⟨⟨3⟩, 2⟩]
    (targets.map Target.unit).Nodup ∧ (∀ target ∈ targets, 0 < target.hitPoints) ∧ 5 < hitModulus ∧
      automatic targets 5 = ⟨[⟨1⟩, ⟨2⟩], [(⟨3⟩, 1)]⟩ ∧
      ∀ other : Losses, other.check targets 5 = .ok () → 2 ≤ other.killed.length := by
  refine ⟨by decide, by decide, by decide, by decide, ?_⟩
  obtain ⟨-, -, -, hfewest, -, -⟩ := @automatic_fewest [⟨⟨1⟩, 3⟩, ⟨⟨2⟩, 1⟩, ⟨⟨3⟩, 2⟩] 5
    (by decide) (by decide) (by decide)
  exact hfewest

end Flak.Losses
