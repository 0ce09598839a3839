import Flak.Proofs.Losses.Realised

namespace Flak.Losses

/-!
# Chance selects just what is accepted

Hits that fall one at a time on targets that are still open can do all that the check allows, and
nothing else:

* `scatter_recorded` — the draws behind the hits: one for each, with as many sides as there are
  targets open at that time;
* `InOrder` — losses listed as the targets are; there is one such list only (`InOrder.eq`);
* `Within` — hits on the way to others; `exists_hitOpen` — the next hit that stays on the way;
* `exists_script` — so any hits that fit are reached by some draws;
* `random_recorded`, `random_inOrder` — the draws behind a selection, and its order;
* `exists_script_random` — the draws that select given losses;
* `random_reaches_accepted` — chance selects what is accepted, and all of it.
-/

variable {targets : List Target} {entries goal : List (Target × Nat)} {losses : Losses} {hits : Nat}

/-! ### One hit after another -/

section Draws

variable {ρ : Type} [RandomSource ρ]

/-- How many `targets` have hit points left when this many `hits` have fallen at random. -/
def openAfter (targets : List Target) (hits : Nat) (purpose : String) (dice : ρ) : Nat :=
  (scatter purpose hits (targets.map (·, 0)) dice).1.countP isOpen

/-- To record the `draws` changes nothing. By `scatter` there is one draw for each hit that falls,
    of a single value, below the number of `targets` that are open by then. -/
theorem scatter_recorded (purpose : String) (hits : Nat) (h : Applied targets entries) (dice : ρ)
    (draws : List Draw) :
    ∃ more, scatter purpose hits entries (⟨dice, draws⟩ : Recorded ρ) =
        ((scatter purpose hits entries dice).1,
          ⟨(scatter purpose hits entries dice).2, draws ++ more⟩) ∧
      given entries + more.length = given (scatter purpose hits entries dice).1 ∧
      ∀ i draw, more[i]? = some draw → draw.count = 1 ∧ draw.purpose = purpose ∧
        draw.max = (scatter purpose i entries dice).1.countP isOpen % UInt32.size := by
  -- By induction on the hits, each of which draws once as long as some target is open.
  induction hits generalizing entries dice draws with
  | zero => exact ⟨[], by simp [scatter], rfl, by simp⟩
  | succ hits ih =>
    by_cases hclosed : entries.countP isOpen = 0
    · rw [scatter_closed purpose _ hclosed, scatter_closed purpose _ hclosed]
      exact ⟨[], by simp, rfl, by simp⟩
    · rw [scatter_open purpose hits hclosed, draw_recorded]
      have hnext := fun hits => scatter_open purpose hits hclosed dice
      generalize hdrawn : RandomSource.draw (entries.countP isOpen % UInt32.size) 1 purpose dice
        = drawn at *
      have hpick := Nat.mod_lt (drawn.1.head?.getD 0) (Nat.pos_of_ne_zero hclosed)
      obtain ⟨happlied, hgiven⟩ := hitOpen_applied h hpick
      obtain ⟨more, hscatter, hlength, hdraws⟩ := ih happlied drawn.2
        (draws ++ [⟨entries.countP isOpen % UInt32.size, 1, purpose, drawn.1⟩])
      dsimp only at hnext
      refine ⟨⟨entries.countP isOpen % UInt32.size, 1, purpose, drawn.1⟩ :: more, ?_, ?_, ?_⟩
      · rw [hnext]
        simpa using hscatter
      · rw [hnext, ← hlength, hgiven, List.length_cons]
        omega
      · intro i draw hdraw
        cases i with
        | zero =>
          obtain rfl := Option.some.inj hdraw
          exact ⟨rfl, rfl, rfl⟩
        | succ i =>
          rw [hnext]
          exact hdraws i draw hdraw

end Draws

/-! ### The order of losses -/

/-- Whether the `losses` are listed in the order of the `targets`. -/
structure InOrder (targets : List Target) (losses : Losses) : Prop where
  killed : losses.killed.Sublist (targets.map Target.unit)
  damaged : (losses.damaged.map Prod.fst).Sublist (targets.map Target.unit)

/-- What is lost by hits beside `targets` is listed in their order. -/
theorem Applied.inOrder (h : Applied targets entries)
    (hpositive : ∀ target ∈ targets, 0 < target.hitPoints) : InOrder targets (ofApplied entries) := by
  obtain ⟨rfl, hfits⟩ := h
  rw [ofApplied_eq (fun entry hentry => hpositive _ (List.mem_map_of_mem hentry)) hfits]
  constructor
  · rw [List.map_map]
    exact List.filter_sublist.map _
  · rw [List.map_map, List.map_map]
    exact List.filter_sublist.map _

/-- The `part` of a list without repetitions is told by its members. -/
theorem filter_mem_eq {units part : List UnitId} (hnodup : units.Nodup)
    (h : part.Sublist units) : units.filter (· ∈ part) = part := by
  induction h with
  | slnil => rfl
  | @cons part units unit hpart ih =>
    obtain ⟨hunit, hrest⟩ := List.nodup_cons.1 hnodup
    have hout : unit ∉ part := fun hmem => hunit (hpart.subset hmem)
    rw [List.filter_cons_of_neg (by simpa using hout), ih hrest]
  | @cons_cons part units unit hpart ih =>
    obtain ⟨hunit, hrest⟩ := List.nodup_cons.1 hnodup
    rw [List.filter_cons_of_pos (by simp)]
    have hothers : units.filter (· ∈ unit :: part) = units.filter (· ∈ part) := by
      refine List.filter_congr fun other hother => ?_
      have hne : other ≠ unit := fun heq => hunit (heq ▸ hother)
      simp [hne]
    rw [hothers, ih hrest]

/-- The entries of damage are told by their units: each has the `damageIn` of its unit. -/
theorem eq_map_damageIn {damaged entries : List (UnitId × Nat)}
    (hdistinct : (damaged.map Prod.fst).Nodup) (h : ∀ entry ∈ entries, entry ∈ damaged) :
    (entries.map Prod.fst).map (fun unit => (unit, damageIn damaged unit)) = entries := by
  rw [List.map_map]
  refine (List.map_congr_left fun entry hentry => ?_).trans (List.map_id entries)
  show (entry.1, damageIn damaged entry.1) = entry
  rw [damageIn_of_mem hdistinct (h entry hentry)]

/-- Losses `InOrder` of the targets are told by what they list. -/
theorem InOrder.eq {other : Losses} (h : InOrder targets losses) (hother : InOrder targets other)
    (hnodup : (targets.map Target.unit).Nodup) (hkilled : losses.killed.Perm other.killed)
    (hdamaged : losses.damaged.Perm other.damaged) : losses = other := by
  have hsame {part part' : List UnitId} (hpart : part.Sublist (targets.map Target.unit))
      (hpart' : part'.Sublist (targets.map Target.unit)) (hperm : part.Perm part') :
      part = part' := by
    rw [← filter_mem_eq hnodup hpart, ← filter_mem_eq hnodup hpart']
    refine List.filter_congr fun unit _ => ?_
    simp only [hperm.mem_iff]
  have hdistinct : (losses.damaged.map Prod.fst).Nodup := hnodup.sublist h.damaged
  have hunits := hsame h.damaged hother.damaged (hdamaged.map Prod.fst)
  have heq : losses.damaged = other.damaged := by
    rw [← eq_map_damageIn hdistinct fun _ hentry => hentry, hunits]
    exact eq_map_damageIn hdistinct fun _ hentry => hdamaged.mem_iff.2 hentry
  calc losses = ⟨losses.killed, losses.damaged⟩ := rfl
    _ = ⟨other.killed, other.damaged⟩ := by rw [hsame h.killed hother.killed hkilled, heq]
    _ = other := rfl

/-! ### Towards given losses -/

/-- Hits beside the same targets as those of a `goal`, and no more of them on any target. -/
def Within (entries goal : List (Target × Nat)) : Prop :=
  List.Forall₂ (fun entry other => entry.1 = other.1 ∧ entry.2 ≤ other.2) entries goal

/-- All hits of the `goal` are still missing where none has fallen. -/
theorem Within.unhit (h : Applied targets goal) : Within (targets.map (·, 0)) goal := by
  obtain ⟨rfl, -⟩ := h
  unfold Within
  rw [List.map_map, List.forall₂_map_left_iff, List.forall₂_same]
  exact fun entry _ => ⟨rfl, Nat.zero_le entry.2⟩

/-- No more hits are `given` on the way to a goal than at it. -/
theorem Within.given_le (h : Within entries goal) : given entries ≤ given goal := by
  induction h with
  | nil => exact Nat.le_refl _
  | cons hentry _ ih =>
    obtain ⟨-, hle⟩ := hentry
    rw [given_cons, given_cons]
    exact Nat.add_le_add hle ih

/-- Where as many hits are `given` altogether, each target has taken the same. -/
theorem Within.eq (h : Within entries goal) (hgiven : given entries = given goal) :
    entries = goal := by
  induction h with
  | nil => rfl
  | @cons entry other rest others hentry hrest ih =>
    obtain ⟨target, taken⟩ := entry
    obtain ⟨rfl, hle⟩ := hentry
    have hothers := Within.given_le hrest
    rw [given_cons, given_cons] at hgiven
    dsimp only at hgiven hle
    obtain rfl : taken = other.2 := by omega
    rw [ih (by omega)]

/-- Hits on the way to hits that are `Applied` are so themselves. -/
theorem Within.applied (h : Within entries goal) (hgoal : Applied targets goal) :
    Applied targets entries := by
  obtain ⟨rfl, hfits⟩ := hgoal
  induction h with
  | nil => exact ⟨rfl, by simp⟩
  | @cons entry other rest others hentry hrest ih =>
    obtain ⟨hother, hothers⟩ := List.forall_mem_cons.1 hfits
    obtain ⟨htargets, hfits'⟩ := ih hothers
    obtain ⟨htarget, hle⟩ := hentry
    refine ⟨by rw [List.map_cons, List.map_cons, htarget, htargets], ?_⟩
    refine List.forall_mem_cons.2 ⟨?_, hfits'⟩
    rw [htarget]
    exact Nat.le_trans hle hother

/-- Where hits of the `goal` are missing, one of them can fall next. -/
theorem exists_hitOpen (h : Within entries goal) (hgoal : Applied targets goal)
    (hless : given entries < given goal) :
    ∃ pick < entries.countP isOpen, Within (hitOpen entries pick) goal := by
  obtain ⟨rfl, hfits⟩ := hgoal
  induction h with
  | nil => exact absurd hless (Nat.lt_irrefl _)
  | @cons entry other rest others hentry hrest ih =>
    obtain ⟨hother, hothers⟩ := List.forall_mem_cons.1 hfits
    obtain ⟨htarget, hle⟩ := hentry
    rcases Nat.lt_or_eq_of_le hle with hlt | heq
    · -- The first target takes more hits than so far, so that it is open.
      have hopen : isOpen entry = true := by
        simp only [isOpen, decide_eq_true_eq, htarget]
        omega
      refine ⟨0, ?_, ?_⟩
      · rw [List.countP_cons_of_pos hopen]
        omega
      · rw [hitOpen, if_pos hopen]
        exact .cons ⟨htarget, hlt⟩ hrest
    · have hmissing : given rest < given others := by
        rw [given_cons, given_cons] at hless
        omega
      obtain ⟨pick, hpick, hwithin⟩ := ih hmissing hothers
      by_cases hopen : isOpen entry = true
      · refine ⟨pick + 1, ?_, ?_⟩
        · rw [List.countP_cons_of_pos hopen]
          omega
        · rw [hitOpen, if_pos hopen]
          exact .cons ⟨htarget, hle⟩ hwithin
      · refine ⟨pick, ?_, ?_⟩
        · rwa [List.countP_cons_of_neg hopen]
        · rw [hitOpen_skip hopen]
          exact .cons ⟨htarget, hle⟩ hwithin

/-- A script answers with its next value, cut down below `max`. -/
theorem draw_script (max pick : Nat) (before after : List Nat) (purpose : String) :
    RandomSource.draw max 1 purpose (⟨before ++ pick :: after, before.length⟩ : ScriptedDice) =
      ([pick % Nat.max max 1], ⟨before ++ pick :: after, before.length + 1⟩) := by
  have hposition : before.length % (before.length + (after.length + 1)) = before.length :=
    Nat.mod_eq_of_lt (by omega)
  simp [RandomSource.draw, ScriptedDice.valueAt, hposition]

/-- The sides of a die for the open `targets` are counted in 32 bits without loss. -/
theorem sides_eq (hlength : targets.length < UInt32.size) (h : Applied targets entries) :
    entries.countP isOpen % UInt32.size = entries.countP isOpen := by
  have hle := List.countP_le_length (p := isOpen) (l := entries)
  have hsame : entries.length = targets.length := by rw [← h.targets, List.length_map]
  exact Nat.mod_eq_of_lt (by omega)

/-- Hits that fit are reached by `scatter` when one value is drawn for each that is `missing`. More
    hits change nothing if no target is open then. -/
theorem exists_script (purpose : String) (hlength : targets.length < UInt32.size)
    (hgoal : Applied targets goal) {missing extra : Nat}
    (hlast : extra = 0 ∨ goal.countP isOpen = 0) (h : Within entries goal)
    (hmissing : given entries + missing = given goal) :
    ∃ script : List Nat, script.length = missing ∧ ∀ before : List Nat,
      (scatter purpose (missing + extra) entries
        (⟨before ++ script, before.length⟩ : ScriptedDice)).1 = goal := by
  induction missing generalizing entries with
  | zero =>
    obtain rfl := h.eq hmissing
    refine ⟨[], rfl, fun before => ?_⟩
    rw [Nat.zero_add]
    rcases hlast with rfl | hclosed
    · rfl
    · rw [scatter_closed purpose extra hclosed]
  | succ missing ih =>
    obtain ⟨pick, hpick, hwithin⟩ := exists_hitOpen h hgoal (by omega)
    have happlied := h.applied hgoal
    have hopen : entries.countP isOpen ≠ 0 := by omega
    obtain ⟨script, hscript, hreaches⟩ := ih hwithin (by
      rw [(hitOpen_applied happlied hpick).2]
      omega)
    refine ⟨pick :: script, by rw [List.length_cons, hscript], fun before => ?_⟩
    -- The value is below the sides of the die, so that it is taken as it is.
    have hsides : Nat.max (entries.countP isOpen) 1 = entries.countP isOpen :=
      Nat.max_eq_left (by omega)
    have hnext := hreaches (before ++ [pick])
    rw [List.length_append, List.append_assoc] at hnext
    rw [Nat.add_right_comm, scatter_open purpose _ hopen, sides_eq hlength happlied, draw_script,
      hsides]
    simpa [Nat.mod_eq_of_lt hpick] using hnext

/-! ### What chance selects -/

/-- The draws of `random`: one for each hit that there is and that the `targets` can take. -/
theorem random_recorded (hlength : targets.length < UInt32.size) (hits : Nat) (purpose : String)
    {ρ : Type} [RandomSource ρ] (dice : ρ) :
    ∃ draws : List Draw, random targets hits purpose (⟨dice, []⟩ : Recorded ρ) =
        ((random targets hits purpose dice).1, ⟨(random targets hits purpose dice).2, draws⟩) ∧
      draws.length = min hits (Target.capacity targets) ∧
      ∀ i draw, draws[i]? = some draw → draw.count = 1 ∧ draw.purpose = purpose ∧
        draw.max = openAfter targets i purpose dice := by
  have hunhit := Applied.unhit targets
  have hgiven := (scatter_applied purpose hits hunhit dice).2
  obtain ⟨draws, hrecorded, hcount, hdraws⟩ := scatter_recorded purpose hits hunhit dice []
  rw [given_unhit, Nat.zero_add] at hgiven hcount
  refine ⟨draws, ?_, hcount.trans hgiven, fun i draw hdraw => ?_⟩
  · simp only [random, hrecorded, List.nil_append]
  · obtain ⟨hone, hpurpose, hmax⟩ := hdraws i draw hdraw
    refine ⟨hone, hpurpose, ?_⟩
    rw [hmax, sides_eq hlength (scatter_applied purpose i hunhit dice).1]
    rfl

/-- Whatever the source answers, `random` selects losses in the order of the `targets`. -/
theorem random_inOrder (hpositive : ∀ target ∈ targets, 0 < target.hitPoints) (hits : Nat)
    (purpose : String) {ρ : Type} [RandomSource ρ] (dice : ρ) :
    InOrder targets (random targets hits purpose dice).1 :=
  (scatter_applied purpose hits (.unhit targets) dice).1.inOrder hpositive

/-- Hits that fit and are as many as can fall are what some draws let fall by `scatter`. -/
theorem exists_script_scatter (purpose : String) (hlength : targets.length < UInt32.size)
    (hgoal : Applied targets goal) (hgiven : given goal = min hits (Target.capacity targets)) :
    ∃ script : List Nat, script.length = min hits (Target.capacity targets) ∧
      (scatter purpose hits (targets.map (·, 0)) (⟨script, 0⟩ : ScriptedDice)).1 = goal := by
  have hlast : hits - min hits (Target.capacity targets) = 0 ∨ goal.countP isOpen = 0 := by
    rcases Nat.le_total hits (Target.capacity targets) with hle | hge
    · left
      omega
    · exact .inr ((closed_iff_given hgoal).2 (hgiven.trans (Nat.min_eq_right hge)))
  obtain ⟨script, hscript, hreaches⟩ := exists_script purpose hlength hgoal hlast (.unhit hgoal)
    (by rw [given_unhit, Nat.zero_add, hgiven])
  have hall : min hits (Target.capacity targets) +
      (hits - min hits (Target.capacity targets)) = hits := by omega
  have hscattered := hreaches []
  rw [hall] at hscattered
  exact ⟨script, hscript, hscattered⟩

/-- All that is accepted and `InOrder` of the targets can be drawn. -/
theorem exists_script_random (hlength : targets.length < UInt32.size)
    (hnodup : (targets.map Target.unit).Nodup)
    (hpositive : ∀ target ∈ targets, 0 < target.hitPoints) (purpose : String)
    (horder : InOrder targets losses) (haccepted : losses.check targets hits = .ok ()) :
    ∃ script : List Nat, script.length = min hits (Target.capacity targets) ∧
      (random targets hits purpose (⟨script, 0⟩ : ScriptedDice)).1 = losses := by
  obtain ⟨hrealised, hsum⟩ := realised_of_check hnodup hpositive haccepted
  have hgoal := hrealised.applied
  obtain ⟨script, hscript, hscattered⟩ :=
    exists_script_scatter purpose hlength hgoal ((given_beside _ _).trans hsum)
  refine ⟨script, hscript, ?_⟩
  -- The same hits cause the same losses, and those in this order are told by what they list.
  obtain ⟨hkilled, hdamaged⟩ := hrealised.perm (.ofApplied hpositive hrealised.fits)
  have hsame := horder.eq (hgoal.inOrder hpositive) hnodup hkilled hdamaged
  calc (random targets hits purpose (⟨script, 0⟩ : ScriptedDice)).1
      = ofApplied (scatter purpose hits (targets.map (·, 0)) (⟨script, 0⟩ : ScriptedDice)).1 :=
        rfl
    _ = ofApplied (targets.map fun target => (target, takenIn losses target)) :=
        congrArg ofApplied hscattered
    _ = losses := hsame.symm

/-- Take distinct `targets` with hit points that can be counted in 32 bits, and any `hits`. Chance
    draws once for each hit that there is and that the targets can take, a single value each time,
    below the number of targets that are open then. Whatever the source answers, what it selects is
    accepted and `InOrder` of the targets. All that is accepted and in this order can be drawn. -/
theorem random_reaches_accepted (hlength : targets.length < UInt32.size)
    (hnodup : (targets.map Target.unit).Nodup)
    (hpositive : ∀ target ∈ targets, 0 < target.hitPoints) (hits : Nat) (purpose : String) :
    (∀ {ρ : Type} [RandomSource ρ] (dice : ρ),
      let plain := random targets hits purpose dice
      let recorded := random targets hits purpose (⟨dice, []⟩ : Recorded ρ)
      recorded.1 = plain.1 ∧ recorded.2.source = plain.2 ∧
        recorded.2.draws.length = min hits (Target.capacity targets) ∧
        (∀ i draw, recorded.2.draws[i]? = some draw → draw.count = 1 ∧ draw.purpose = purpose ∧
          draw.max = openAfter targets i purpose dice) ∧
        plain.1.check targets hits = .ok () ∧ InOrder targets plain.1) ∧
      ∀ losses : Losses, InOrder targets losses → losses.check targets hits = .ok () →
        ∃ script : List Nat, script.length = min hits (Target.capacity targets) ∧
          (random targets hits purpose (⟨script, 0⟩ : ScriptedDice)).1 = losses := by
  constructor
  · intro ρ _ dice
    obtain ⟨points, hpoints⟩ := exists_points hnodup
    obtain ⟨draws, hrecorded, hcount, hdraws⟩ := random_recorded hlength hits purpose dice
    dsimp only
    rw [hrecorded]
    exact ⟨rfl, rfl, hcount, hdraws, check_random hnodup hpoints hits purpose dice,
      random_inOrder hpositive hits purpose dice⟩
  · intro losses horder haccepted
    exact exists_script_random hlength hnodup hpositive purpose horder haccepted

/-- A target of three hit points, one of one and one of two under four hits by `random`. Zeros hit
    the first one as long as it is open; other draws kill the other two and damage the first. -/
theorem random_reaches_accepted_trio :
    let targets : List Target := [⟨⟨1⟩, 3⟩, ⟨⟨2⟩, 1⟩, ⟨⟨3⟩, 2⟩]
    targets.length < UInt32.size ∧ (targets.map Target.unit).Nodup ∧
      (∀ target ∈ targets, 0 < target.hitPoints) ∧
      (random targets 4 "losses" (⟨⟨[], 0⟩, []⟩ : Recorded ScriptedDice)).2.draws.length = 4 ∧
      openAfter targets 2 "losses" (⟨[], 0⟩ : ScriptedDice) = 3 ∧
      openAfter targets 3 "losses" (⟨[], 0⟩ : ScriptedDice) = 2 ∧
      ∃ script : List Nat, script.length = 4 ∧
        (random targets 4 "losses" (⟨script, 0⟩ : ScriptedDice)).1 =
          ⟨[⟨2⟩, ⟨3⟩], [(⟨1⟩, 1)]⟩ := by
  refine ⟨by decide, by decide, by decide, ?_⟩
  obtain ⟨hdraws, hall⟩ := @random_reaches_accepted [⟨⟨1⟩, 3⟩, ⟨⟨2⟩, 1⟩, ⟨⟨3⟩, 2⟩] (by decide)
    (by decide) (by decide) 4 "losses"
  obtain ⟨-, -, hlength, -⟩ := hdraws (⟨[], 0⟩ : ScriptedDice)
  have horder : InOrder [⟨⟨1⟩, 3⟩, ⟨⟨2⟩, 1⟩, ⟨⟨3⟩, 2⟩] ⟨[⟨2⟩, ⟨3⟩], [(⟨1⟩, 1)]⟩ :=
    ⟨by decide, by decide⟩
  exact ⟨hlength, rfl, rfl, hall _ horder rfl⟩

end Flak.Losses
