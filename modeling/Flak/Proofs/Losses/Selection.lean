import Flak.Losses.Select
import Flak.Proofs.Losses.Check
import Mathlib.Algebra.BigOperators.Group.List.Basic
import Mathlib.Data.List.Nodup
import Mathlib.Data.List.Perm.Subperm

namespace Flak.Losses

/-!
# What is selected by default is accepted

`Losses.check` accepts all that it makes sure of, and both ways to select losses without asking
anybody keep to it:

* `check_eq_ok` — valid losses that use up the right number of hits are accepted;
* `Applied` — hits beside targets, none of which takes more than it can;
* `Applied.check_ofApplied` — the losses made from them are accepted if all hits were given out;
* `pour_eq`, `automaticHits_applied` — the fixed rule gives out hits like that;
* `hitOpen_applied`, `scatter_closed`, `scatter_open`, `scatter_applied` — so does chance;
* `check_automatic`, `check_random`, `check_select` — what a mode selects is accepted.
-/

/-! ### The check is complete -/

variable {targets : List Target} {points : UnitId → Nat}

/-- A target of the `unit` is found if there is one among the `targets`. -/
theorem exists_find? {unit : UnitId} (h : unit ∈ targets.map Target.unit) :
    ∃ target, (targets.find? fun target => target.unit = unit) = some target := by
  obtain ⟨target, htarget, hunit⟩ := List.mem_map.1 h
  exact Option.isSome_iff_exists.1 (List.find?_isSome.2 ⟨target, htarget, by simpa using hunit⟩)

/-- Distinct `targets` are told apart by their units, so that hit points can be a function of
    these. -/
theorem exists_points (hnodup : (targets.map Target.unit).Nodup) :
    ∃ points : UnitId → Nat, ∀ target ∈ targets, target.hitPoints = points target.unit := by
  refine ⟨fun unit => ((targets.find? fun target => target.unit = unit).map
    Target.hitPoints).getD 0, fun target htarget => ?_⟩
  obtain ⟨found, hfind⟩ := exists_find? (List.mem_map_of_mem htarget)
  obtain ⟨hfound, hunit⟩ := mem_of_find? hfind
  have hsame : found = target := List.inj_on_of_nodup_map hnodup hfound htarget hunit
  simp only [hfind, hsame, Option.map_some, Option.getD_some]

/-- Distinct `units` not seen before, each of a target, pass `killHits`. -/
theorem exists_killHits {seen units : List UnitId}
    (hunits : ∀ unit ∈ units, unit ∈ targets.map Target.unit ∧ unit ∉ seen)
    (hnodup : units.Nodup) : ∃ result, killHits targets seen units = .ok result := by
  induction units generalizing seen with
  | nil => exact ⟨_, rfl⟩
  | cons unit rest ih =>
    obtain ⟨hnew, hrest⟩ := List.nodup_cons.1 hnodup
    obtain ⟨htarget, hunseen⟩ := hunits unit List.mem_cons_self
    obtain ⟨target, hfind⟩ := exists_find? htarget
    -- The rest has not been seen either, and this unit is not among it.
    obtain ⟨result, hresult⟩ := @ih (unit :: seen) (fun other hother => by
      obtain ⟨hmem, hother'⟩ := hunits other (List.mem_cons_of_mem unit hother)
      refine ⟨hmem, fun h => ?_⟩
      rcases List.mem_cons.1 h with rfl | h
      · exact hnew hother
      · exact hother' h) hrest
    rw [killHits, hfind, hresult]
    simp only [hunseen, if_false]
    exact ⟨_, rfl⟩

/-- Damage to distinct units not seen before, each of a target that survives it, passes
    `damageHits`. -/
theorem exists_damageHits (hpoints : ∀ target ∈ targets, target.hitPoints = points target.unit)
    {seen : List UnitId} {damaged : List (UnitId × Nat)}
    (hdamaged : ∀ entry ∈ damaged, entry.1 ∉ seen ∧ entry.1 ∈ targets.map Target.unit ∧
      0 < entry.2 ∧ entry.2 < points entry.1)
    (hnodup : (damaged.map Prod.fst).Nodup) :
    ∃ hits, damageHits targets seen damaged = .ok hits := by
  induction damaged generalizing seen with
  | nil => exact ⟨0, rfl⟩
  | cons entry rest ih =>
    obtain ⟨unit, taken⟩ := entry
    obtain ⟨hnew, hrest⟩ := List.nodup_cons.1 hnodup
    obtain ⟨hunseen, htarget, hpositive, hlt⟩ := hdamaged (unit, taken) List.mem_cons_self
    obtain ⟨target, hfind⟩ := exists_find? htarget
    obtain ⟨hmem, rfl⟩ := mem_of_find? hfind
    -- None of the complaints of the check applies to the first entry.
    have hgood : ¬ (target.unit ∈ seen ∨ taken = 0 ∨ target.hitPoints ≤ taken) := by
      rw [hpoints target hmem]
      dsimp only at hunseen hpositive hlt
      rintro (h | h | h)
      · exact hunseen h
      · omega
      · omega
    obtain ⟨hits, hhits⟩ := @ih (target.unit :: seen) (fun other hother => by
      obtain ⟨hunseen', hothers⟩ := hdamaged other (List.mem_cons_of_mem _ hother)
      refine ⟨fun h => ?_, hothers⟩
      rcases List.mem_cons.1 h with heq | h
      · exact hnew (List.mem_map.2 ⟨other, hother, heq⟩)
      · exact hunseen' h) hrest
    rw [damageHits, hfind, hhits]
    simp only [hgood, if_false]
    exact ⟨_, rfl⟩

/-- Whoever is lost by `Valid` losses is a target. -/
theorem Valid.subset {losses : Losses} (h : Valid targets losses) :
    losses.killed ++ losses.damaged.map Prod.fst ⊆ targets.map Target.unit := by
  intro unit hunit
  rcases List.mem_append.1 hunit with hkilled | hdamaged
  · exact h.killed unit hkilled
  · obtain ⟨entry, hentry, rfl⟩ := List.mem_map.1 hdamaged
    obtain ⟨target, htarget, hunit, -⟩ := h.damaged entry hentry
    exact hunit ▸ List.mem_map_of_mem htarget

/-- Losses that are `Valid` are no more than there are `targets`. -/
theorem Valid.size_le {losses : Losses} (h : Valid targets losses) :
    losses.size ≤ targets.length := by
  have hle := (List.subperm_of_subset h.nodup h.subset).length_le
  simpa [size] using hle

/-- What is `Valid` and gives out all `hits`, or all that the `targets` can take, is accepted. -/
theorem check_eq_ok (hpoints : ∀ target ∈ targets, target.hitPoints = points target.unit)
    {losses : Losses} {hits : Nat} (hvalid : Valid targets losses)
    (hsum : (losses.killed.map points).sum + (losses.damaged.map Prod.snd).sum =
      min hits (Target.capacity targets)) : losses.check targets hits = .ok () := by
  obtain ⟨hkilled, hdamaged, hapart⟩ := List.nodup_append.1 hvalid.nodup
  obtain ⟨⟨killing, seen⟩, hkill⟩ := @exists_killHits targets [] losses.killed
    (fun unit hunit => ⟨hvalid.killed unit hunit, by simp⟩) hkilled
  obtain ⟨-, -, hseen⟩ := killHits_eq_ok hkill
  have hfresh : ∀ entry ∈ losses.damaged, entry.1 ∉ seen ∧ entry.1 ∈ targets.map Target.unit ∧
      0 < entry.2 ∧ entry.2 < points entry.1 := by
    intro entry hentry
    obtain ⟨target, htarget, hunit, hpositive, hlt⟩ := hvalid.damaged entry hentry
    -- The check has seen the dead, and nobody who is damaged is one of them.
    refine ⟨fun hmem => ?_, hunit ▸ List.mem_map_of_mem htarget, hpositive, ?_⟩
    · have hdead : entry.1 ∈ losses.killed := by simpa using (hseen _).1 hmem
      exact hapart _ hdead _ (List.mem_map_of_mem hentry) rfl
    · rwa [hpoints target htarget, hunit] at hlt
  obtain ⟨damaging, hdamage⟩ := exists_damageHits hpoints hfresh hdamaged
  rw [check_of_parts hvalid.size_le hkill hdamage]
  apply if_pos
  rw [killHits_eq_sum hpoints hkill, damageHits_eq_sum hdamage, hsum]

/-! ### Hits beside targets -/

/-- Hits beside these `targets`, none of which takes more than it has hit points. -/
structure Applied (targets : List Target) (entries : List (Target × Nat)) : Prop where
  targets : entries.map Prod.fst = targets
  fits : ∀ entry ∈ entries, entry.2 ≤ entry.1.hitPoints

/-- How many hits the `entries` give out. -/
def given (entries : List (Target × Nat)) : Nat := (entries.map Prod.snd).sum

variable {entries : List (Target × Nat)}

/-- The hits `given` by an entry and by the rest add up. -/
theorem given_cons (entry : Target × Nat) (rest : List (Target × Nat)) :
    given (entry :: rest) = entry.2 + given rest := by
  rw [given, List.map_cons, List.sum_cons, given]

/-- No hits at all can be `Applied` to any targets. -/
theorem Applied.unhit (targets : List Target) : Applied targets (targets.map (·, 0)) where
  targets := by simp [Function.comp_def]
  fits := by simp

/-- No hits at all are `given` to targets that are not hit. -/
theorem given_unhit (targets : List Target) : given (targets.map (·, 0)) = 0 := by
  induction targets with
  | nil => rfl
  | cons target rest ih => simpa [given] using ih

/-- Only targets are lost by `ofApplied`. -/
theorem mem_of_mem_ofApplied {unit : UnitId}
    (h : unit ∈ (ofApplied entries).killed ++ (ofApplied entries).damaged.map Prod.fst) :
    unit ∈ (entries.map Prod.fst).map Target.unit := by
  induction entries with
  | nil => simp [ofApplied] at h
  | cons entry rest ih =>
    obtain ⟨target, hits⟩ := entry
    simp only [ofApplied] at h
    split at h
    · exact List.mem_cons_of_mem _ (ih h)
    · split at h
      · rcases List.mem_cons.1 h with rfl | h
        · exact List.mem_cons_self
        · exact List.mem_cons_of_mem _ (ih h)
      · rw [List.map_cons] at h
        rcases List.mem_cons.1 (List.perm_middle.mem_iff.1 h) with rfl | h
        · exact List.mem_cons_self
        · exact List.mem_cons_of_mem _ (ih h)

/-- Distinct targets are lost at most once each by `ofApplied`. -/
theorem nodup_ofApplied (hnodup : ((entries.map Prod.fst).map Target.unit).Nodup) :
    ((ofApplied entries).killed ++ (ofApplied entries).damaged.map Prod.fst).Nodup := by
  induction entries with
  | nil => simp [ofApplied]
  | cons entry rest ih =>
    obtain ⟨target, hits⟩ := entry
    obtain ⟨hnew, hrest⟩ := List.nodup_cons.1 hnodup
    have hfresh := mt mem_of_mem_ofApplied hnew
    simp only [ofApplied]
    split
    · exact ih hrest
    · split
      · exact List.nodup_cons.2 ⟨hfresh, ih hrest⟩
      -- It comes behind the dead, which is a matter of order only.
      · exact List.perm_middle.nodup_iff.2 (List.nodup_cons.2 ⟨hfresh, ih hrest⟩)

/-- Those that are damaged by `ofApplied` survive. -/
theorem damaged_ofApplied : ∀ entry ∈ (ofApplied entries).damaged,
    ∃ target ∈ entries.map Prod.fst, target.unit = entry.1 ∧ 0 < entry.2 ∧
      entry.2 < target.hitPoints := by
  induction entries with
  | nil => simp [ofApplied]
  | cons entry rest ih =>
    obtain ⟨target, hits⟩ := entry
    have hothers : ∀ entry ∈ (ofApplied rest).damaged, ∃ other ∈ target :: rest.map Prod.fst,
        other.unit = entry.1 ∧ 0 < entry.2 ∧ entry.2 < other.hitPoints := by
      intro entry hentry
      obtain ⟨other, hother, hfits⟩ := ih entry hentry
      exact ⟨other, List.mem_cons_of_mem target hother, hfits⟩
    simp only [ofApplied]
    -- A target that was not hit, or that was killed, adds no entry.
    split
    · exact hothers
    · split
      · exact hothers
      · intro entry hentry
        rcases List.mem_cons.1 hentry with rfl | hentry
        · exact ⟨target, List.mem_cons_self, rfl, by dsimp only; omega, by dsimp only; omega⟩
        · exact hothers entry hentry

/-- The losses by `ofApplied` use up all hits that were `given`. -/
theorem sum_ofApplied
    (hpoints : ∀ target ∈ entries.map Prod.fst, target.hitPoints = points target.unit)
    (hfits : ∀ entry ∈ entries, entry.2 ≤ entry.1.hitPoints) :
    ((ofApplied entries).killed.map points).sum + ((ofApplied entries).damaged.map Prod.snd).sum =
      given entries := by
  induction entries with
  | nil => rfl
  | cons entry rest ih =>
    obtain ⟨target, hits⟩ := entry
    have hleft := hpoints target List.mem_cons_self
    have hle : hits ≤ target.hitPoints := hfits (target, hits) List.mem_cons_self
    have hothers := ih (fun other hother => hpoints other (List.mem_cons_of_mem target hother))
      fun other hother => hfits other (List.mem_cons_of_mem _ hother)
    rw [given_cons]
    simp only [ofApplied]
    -- A target that was not hit adds nothing; one that was killed adds all its hit points.
    split
    · omega
    · split
      · simp only [List.map_cons, List.sum_cons]
        omega
      · simp only [List.map_cons, List.sum_cons]
        omega

/-- The losses from hits that were all `given` to distinct `targets` are accepted. -/
theorem Applied.check_ofApplied (h : Applied targets entries)
    (hnodup : (targets.map Target.unit).Nodup)
    (hpoints : ∀ target ∈ targets, target.hitPoints = points target.unit) {hits : Nat}
    (hgiven : given entries = min hits (Target.capacity targets)) :
    (ofApplied entries).check targets hits = .ok () := by
  obtain ⟨rfl, hfits⟩ := h
  refine check_eq_ok hpoints ⟨?_, damaged_ofApplied, nodup_ofApplied hnodup⟩ ?_
  · exact fun unit hunit => mem_of_mem_ofApplied (List.mem_append_left _ hunit)
  · rw [sum_ofApplied hpoints hfits, hgiven]

/-! ### The fixed rule -/

/-- The `room` that all `entries` have together. -/
def roomOf (room : Target × Nat → Nat) (entries : List (Target × Nat)) : Nat :=
  (entries.map room).sum

/-- By `pour`, as many hits are given out as there is `room` for, and the others are `left`. -/
theorem pour_eq (room : Target × Nat → Nat) (entries : List (Target × Nat)) (left : Nat) :
    given (pour room entries left).1 = given entries + min left (roomOf room entries) ∧
      (pour room entries left).2 = left - roomOf room entries := by
  induction entries generalizing left with
  | nil => exact ⟨by simp [pour, roomOf], rfl⟩
  | cons entry rest ih =>
    obtain ⟨target, applied⟩ := entry
    obtain ⟨hgiven, hexcess⟩ := ih (left - min (room (target, applied)) left)
    have hroom : roomOf room ((target, applied) :: rest) =
        room (target, applied) + roomOf room rest := rfl
    simp only [given, pour, List.map_cons, List.sum_cons] at hgiven ⊢
    rw [hgiven, hexcess, hroom]
    omega

/-- The hits that `pour` gives out where there is `room` fit. -/
theorem pour_applied (room : Target × Nat → Nat) (h : Applied targets entries)
    (hroom : ∀ entry ∈ entries, entry.2 + room entry ≤ entry.1.hitPoints) (left : Nat) :
    Applied targets (pour room entries left).1 := by
  obtain ⟨rfl, -⟩ := h
  induction entries generalizing left with
  | nil => exact ⟨rfl, by simp [pour]⟩
  | cons entry rest ih =>
    obtain ⟨target, applied⟩ := entry
    obtain ⟨htargets, hfits⟩ := ih (fun other hother => hroom other (List.mem_cons_of_mem _ hother))
      (left - min (room (target, applied)) left)
    have hle : applied + room (target, applied) ≤ target.hitPoints :=
      hroom (target, applied) List.mem_cons_self
    refine ⟨?_, fun other hother => ?_⟩
    · simp only [pour, List.map_cons, htargets]
    · rcases List.mem_cons.1 hother with rfl | hother
      · dsimp only
        omega
      · exact hfits other hother

/-- What `targets` can take beyond the hits `given` to them makes up their capacity. -/
theorem roomOf_left (h : Applied targets entries) :
    given entries + roomOf (fun entry => entry.1.hitPoints - entry.2) entries =
      Target.capacity targets := by
  obtain ⟨rfl, hfits⟩ := h
  rw [capacity_eq_sum]
  induction entries with
  | nil => rfl
  | cons entry rest ih =>
    have hrest := ih fun other hother => hfits other (List.mem_cons_of_mem _ hother)
    have hle := hfits entry List.mem_cons_self
    simp only [given, roomOf, List.map_cons, List.sum_cons] at hrest ⊢
    omega

/-- The fixed rule, `automaticHits`, gives out as many `hits` as there are, or all that the
    `targets` can take. -/
theorem automaticHits_applied (targets : List Target) {hits : Nat} (hhits : hits < hitModulus) :
    Applied targets (automaticHits targets hits) ∧
      given (automaticHits targets hits) = min hits (Target.capacity targets) := by
  have hunhit := Applied.unhit targets
  obtain ⟨hgiven, hexcess⟩ := pour_eq (fun entry => absorbable entry.1) (targets.map (·, 0)) hits
  have hfirst := pour_applied (fun entry => absorbable entry.1) hunhit (by
    intro entry hentry
    obtain ⟨target, -, rfl⟩ := List.mem_map.1 hentry
    simp [absorbable]) hits
  have hmod : hits % hitModulus = hits := Nat.mod_eq_of_lt hhits
  rw [automaticHits, hmod]
  dsimp only
  generalize pour (fun entry => absorbable entry.1) (targets.map (·, 0)) hits = damaged at *
  rw [given_unhit] at hgiven
  have hsecond := pour_applied (fun entry => entry.1.hitPoints - entry.2) hfirst (by
    intro entry hentry
    have := hfirst.fits entry hentry
    omega) damaged.2
  refine ⟨hsecond, ?_⟩
  -- What is left of the hits meets what is left of the hit points.
  have hleft := roomOf_left hfirst
  rw [(pour_eq _ _ _).1, hexcess]
  omega

/-- What the fixed rule, `automatic`, selects for distinct `targets` is accepted, if the hits can be
    counted. -/
theorem check_automatic (hnodup : (targets.map Target.unit).Nodup)
    (hpoints : ∀ target ∈ targets, target.hitPoints = points target.unit) {hits : Nat}
    (hhits : hits < hitModulus) : (automatic targets hits).check targets hits = .ok () := by
  obtain ⟨happlied, hgiven⟩ := automaticHits_applied targets hhits
  exact happlied.check_ofApplied hnodup hpoints hgiven

/-! ### Chance -/

/-- A target that is not open is passed over by `hitOpen`. -/
theorem hitOpen_skip {entry : Target × Nat} (h : ¬ isOpen entry = true)
    (rest : List (Target × Nat)) (n : Nat) :
    hitOpen (entry :: rest) n = entry :: hitOpen rest n := by
  cases n <;> simp [hitOpen, h]

/-- A hit by `hitOpen` on a target that is open fits. -/
theorem hitOpen_applied {n : Nat} (h : Applied targets entries)
    (hopen : n < entries.countP isOpen) :
    Applied targets (hitOpen entries n) ∧ given (hitOpen entries n) = given entries + 1 := by
  obtain ⟨rfl, hfits⟩ := h
  induction entries generalizing n with
  | nil => simp at hopen
  | cons entry rest ih =>
    have hrest : ∀ other ∈ rest, other.2 ≤ other.1.hitPoints :=
      fun other hother => hfits other (List.mem_cons_of_mem entry hother)
    -- The hit falls on a target further on.
    have hlater {m : Nat} (hm : m < rest.countP isOpen) :
        Applied ((entry :: rest).map Prod.fst) (entry :: hitOpen rest m) ∧
          given (entry :: hitOpen rest m) = given (entry :: rest) + 1 := by
      obtain ⟨⟨htargets, hfits'⟩, hgiven⟩ := ih hm hrest
      refine ⟨⟨by rw [List.map_cons, List.map_cons, htargets], fun other hother => ?_⟩, ?_⟩
      · rcases List.mem_cons.1 hother with rfl | hother
        · exact hfits other List.mem_cons_self
        · exact hfits' other hother
      · rw [given_cons, given_cons]
        omega
    by_cases hentry : isOpen entry = true
    · rw [List.countP_cons_of_pos hentry] at hopen
      cases n with
      | zero =>
        have hlt : entry.2 < entry.1.hitPoints := by simpa [isOpen] using hentry
        rw [hitOpen, if_pos hentry]
        refine ⟨⟨rfl, fun other hother => ?_⟩, ?_⟩
        · rcases List.mem_cons.1 hother with rfl | hother
          · exact hlt
          · exact hrest other hother
        · rw [given_cons, given_cons]
          omega
      | succ n =>
        rw [hitOpen, if_pos hentry]
        exact hlater (by omega)
    · rw [List.countP_cons_of_neg hentry] at hopen
      rw [hitOpen_skip hentry]
      exact hlater hopen

/-- No more can be `given` than the targets can take. -/
theorem Applied.given_le (h : Applied targets entries) :
    given entries ≤ Target.capacity targets := by
  have hleft := roomOf_left h
  omega

/-- No target `isOpen` just if all have taken what they can. -/
theorem closed_iff_given (h : Applied targets entries) :
    entries.countP isOpen = 0 ↔ given entries = Target.capacity targets := by
  have hleft := roomOf_left h
  have hroom : roomOf (fun entry => entry.1.hitPoints - entry.2) entries = 0 ↔
      ∀ entry ∈ entries, entry.1.hitPoints - entry.2 = 0 := by
    rw [roomOf, List.sum_eq_zero_iff_forall_eq_nat, List.forall_mem_map]
  have hfull : (∀ entry ∈ entries, entry.1.hitPoints - entry.2 = 0) ↔
      entries.countP isOpen = 0 := by
    simp only [List.countP_eq_zero, isOpen, decide_eq_true_eq, Nat.not_lt, Nat.sub_eq_zero_iff_le]
  rw [← hfull, ← hroom]
  omega

variable {ρ : Type} [RandomSource ρ]

/-- No hit falls by `scatter` when no target is open. -/
theorem scatter_closed (purpose : String) (hits : Nat) (h : entries.countP isOpen = 0) (dice : ρ) :
    scatter purpose hits entries dice = (entries, dice) := by
  cases hits with
  | zero => rfl
  | succ hits => simp only [scatter, h, if_true]

/-- The next hit of `scatter` falls on the open target that the draw picks. -/
theorem scatter_open (purpose : String) (hits : Nat) (h : entries.countP isOpen ≠ 0) (dice : ρ) :
    scatter purpose (hits + 1) entries dice =
      let drawn := RandomSource.draw (entries.countP isOpen % UInt32.size) 1 purpose dice
      scatter purpose hits
        (hitOpen entries (drawn.1.head?.getD 0 % entries.countP isOpen)) drawn.2 := by
  simp only [scatter, h, if_false]

/-- By `scatter`, chance gives out as many `hits` as there are, or all that the `targets` can take,
    whatever the source of chance says. -/
theorem scatter_applied (purpose : String) (hits : Nat) (h : Applied targets entries) (dice : ρ) :
    Applied targets (scatter purpose hits entries dice).1 ∧
      given (scatter purpose hits entries dice).1 =
        min (given entries + hits) (Target.capacity targets) := by
  induction hits generalizing entries dice with
  | zero =>
    have hle := h.given_le
    refine ⟨h, ?_⟩
    show given entries = _
    omega
  | succ hits ih =>
    by_cases hclosed : entries.countP isOpen = 0
    · rw [scatter_closed purpose _ hclosed]
      have hgiven := (closed_iff_given h).1 hclosed
      refine ⟨h, ?_⟩
      show given entries = _
      omega
    · rw [scatter_open purpose hits hclosed]
      -- Whatever the source answers, it is cut down to an open target.
      generalize RandomSource.draw (entries.countP isOpen % UInt32.size) 1 purpose dice = drawn
      have hpick := Nat.mod_lt (drawn.1.head?.getD 0) (Nat.pos_of_ne_zero hclosed)
      obtain ⟨hnext, hgiven⟩ := hitOpen_applied h hpick
      obtain ⟨hlast, htotal⟩ := ih hnext drawn.2
      refine ⟨hlast, ?_⟩
      rw [htotal, hgiven, Nat.add_assoc, Nat.add_comm 1 hits]

/-- What chance, by `random`, selects for distinct `targets` is accepted, whatever the source
    says. -/
theorem check_random (hnodup : (targets.map Target.unit).Nodup)
    (hpoints : ∀ target ∈ targets, target.hitPoints = points target.unit) (hits : Nat)
    (purpose : String) (dice : ρ) :
    (random targets hits purpose dice).1.check targets hits = .ok () := by
  obtain ⟨happlied, hgiven⟩ := scatter_applied purpose hits (.unhit targets) dice
  rw [given_unhit, Nat.zero_add] at hgiven
  exact happlied.check_ofApplied hnodup hpoints hgiven

/-! ### By the rules of the game -/

/-- What the `mode` selects for distinct `targets` is accepted, whatever the source of chance
    says. -/
theorem check_select (hnodup : (targets.map Target.unit).Nodup)
    (hpoints : ∀ target ∈ targets, target.hitPoints = points target.unit) {hits : Nat}
    (hhits : hits < hitModulus) (mode : CasualtyMode) (purpose : String) (dice : ρ) :
    (select mode targets hits purpose dice).1.check targets hits = .ok () := by
  cases mode with
  | automatic => exact check_automatic hnodup hpoints hhits
  | interactive => exact check_automatic hnodup hpoints hhits
  | random => exact check_random hnodup hpoints hits purpose dice

end Flak.Losses
