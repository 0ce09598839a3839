import Flak.Proofs.Fire.Grounded

namespace Flak

/-!
# What an action adds to a ledger

A ledger may hold groups and casualties before an action writes to it. The steps of the action leave
those alone and add their own:

* `Step.Spares` — a step that leaves alone the groups before a position;
* `StageDone.unharmed`, `StageDone.casualties_of_rolled` — nobody dies but in a selection, and then
  the dead of the group are added to the casualties;
* `Ledger.Accrued` — the casualties that are new are those whom new groups have killed;
* `Adds.attempt` — an attempt at a step only adds;
* `PlannedOn`, `Proceeds.exists_plannedOn` — a group that is new was formed by a plan on the way;
* `Overflight.exists_formed`, `BattleFire.exists_formed` — so were those of a move and of a firing.
-/

variable {ρ : Type} {scene after : Scene ρ} {id : GroupId} {record : GroupRecord}

/-! ### Steps -/

/-- A `Step` that leaves alone the groups before a position. -/
def Step.Spares (first : Nat) : Step → Prop
  | .plan _ => True
  | .stage _ group => first ≤ group.index

/-- The stages of `groups` that are opened, those in `allOf`, spare the groups that were there. -/
theorem Step.spares_of_mem_allOf {first length : Nat} (hle : first ≤ length)
    {groups : List FiringGroup} {step : Step}
    (h : step ∈ ((freshRecords length groups).map GroupRecord.id).flatMap allOf) :
    step.Spares first := by
  obtain ⟨id, hid, hstep⟩ := List.mem_flatMap.1 h
  rw [map_id_freshRecords] at hid
  obtain ⟨index, hindex, rfl⟩ := List.mem_map.1 hid
  have hfirst : first ≤ index := Nat.le_trans hle (List.mem_range'_1.1 hindex).1
  simp only [allOf, List.mem_cons, List.not_mem_nil, or_false] at hstep
  rcases hstep with rfl | rfl | rfl
  · exact hfirst
  · exact hfirst
  · exact hfirst

/-! ### The dead -/

/-- In no other way than by a selection do `losses` come on record. -/
theorem RecordChange.losses_eq {step : Step} {index : Nat} {was is : GroupRecord}
    (h : RecordChange scene step index was is)
    (hother : step = .stage .select ⟨index⟩ → was.phase ≠ .rolled) : is.losses = was.losses := by
  cases h with
  | selected hstep hphase => exact absurd hphase (hother hstep)
  | kept => rfl
  | idle => rfl
  | rolled => rfl
  | notified => rfl

namespace StageDone

variable {stage : Stage}

/-- Nobody dies but in the `stage` of a selection. -/
theorem unharmed (hrecord : scene.ledger.record id = .ok record)
    (h : StageDone id record scene stage after)
    (hother : stage = .select → record.phase ≠ .rolled) : Unharmed scene after := by
  refine ⟨?_, ?_, h.length, ?_⟩
  · cases h with
    | past => rfl
    | idle => rfl
    | rolled => rfl
    | selected hphase => exact absurd hphase (hother rfl)
    | finished _ hletters => exact hletters.casualties
  · cases h with
    | past => rfl
    | idle => rfl
    | rolled => rfl
    | selected hphase => exact absurd hphase (hother rfl)
    | finished _ hletters => exact hletters.history
  · intro index was is hwas his
    -- The losses on record change in no stage but a selection.
    obtain ⟨was', hwas', hchange⟩ := h.recordChange hrecord his
    obtain rfl : was' = was := Option.some.inj (hwas'.symm.trans hwas)
    refine ⟨?_, hchange.group, hchange.losses_eq fun hstep => ?_⟩
    · cases hchange <;> rfl
    · obtain ⟨rfl, rfl⟩ := Step.stage.inj hstep
      obtain rfl := Ledger.eq_of_record hrecord hwas
      exact hother rfl

/-- In a selection the dead of the group, those `killed`, come to the casualties. -/
theorem casualties_of_rolled (hrecord : scene.ledger.record id = .ok record)
    (h : StageDone id record scene .select after) (hphase : record.phase = .rolled)
    {is : GroupRecord} (his : after.ledger.groups[id.index]? = some is) :
    after.ledger.casualties = is.killed.foldl Ledger.addCasualty scene.ledger.casualties := by
  cases h with
  | past _ _ hselect => exact absurd hphase (hselect rfl).2
  | @selected _ _ _ mid losses _ hletters _ =>
    obtain ⟨told, rfl⟩ := GroupRecord.exists_of_commit hrecord hletters.toExchanged his
    have hcasualties : mid.ledger.casualties = scene.ledger.casualties := hletters.casualties
    show losses.killed.foldl Ledger.addCasualty mid.ledger.casualties = _
    rw [hcasualties]
    rfl

end StageDone

/-! ### Casualties -/

namespace Ledger

theorem mem_addCasualty {known : List UnitId} {other unit : UnitId} :
    unit ∈ addCasualty known other ↔ unit ∈ known ∨ unit = other := by
  unfold addCasualty
  split
  · rename_i hknown
    constructor
    · exact .inl
    · rintro (h | rfl)
      · exact h
      · exact hknown
  · rw [List.mem_append, List.mem_singleton]

theorem mem_foldl_addCasualty {known killed : List UnitId} {unit : UnitId} :
    unit ∈ killed.foldl addCasualty known ↔ unit ∈ known ∨ unit ∈ killed := by
  induction killed generalizing known with
  | nil => simp
  | cons other rest ih => rw [List.foldl_cons, ih, mem_addCasualty, List.mem_cons, or_assoc]

/-- Some `casualties` begin with those that were `known`, and others were added once each. -/
def Prolongs (known casualties : List UnitId) : Prop :=
  ∃ added, casualties = known ++ added ∧ added.Nodup ∧ ∀ unit ∈ added, unit ∉ known

/-- Nobody needs to be added: what was `known` prolongs itself. -/
theorem Prolongs.refl (known : List UnitId) : Prolongs known known :=
  ⟨[], (List.append_nil known).symm, List.nodup_nil, by simp⟩

/-- A list that `Prolongs` another is not shorter. -/
theorem Prolongs.length_le {known casualties : List UnitId} (h : Prolongs known casualties) :
    known.length ≤ casualties.length := by
  obtain ⟨added, rfl, -⟩ := h
  rw [List.length_append]
  exact Nat.le_add_right _ _

/-- To add a casualty, by `addCasualty`, prolongs further. -/
theorem Prolongs.addCasualty {known casualties : List UnitId} (h : Prolongs known casualties)
    (unit : UnitId) : Prolongs known (addCasualty casualties unit) := by
  unfold Ledger.addCasualty
  split
  · exact h
  · rename_i hnew
    obtain ⟨added, rfl, hnodup, hadded⟩ := h
    rw [List.mem_append, not_or] at hnew
    refine ⟨added ++ [unit], List.append_assoc _ _ _, ?_, ?_⟩
    · refine List.nodup_append.2 ⟨hnodup, by simp, ?_⟩
      rintro other hother _ hsame rfl
      obtain rfl := List.mem_singleton.1 hsame
      exact hnew.2 hother
    · intro other hother
      rcases List.mem_append.1 hother with hold | hsame
      · exact hadded other hold
      · exact List.mem_singleton.1 hsame ▸ hnew.1

/-- To add those `killed` one after the other prolongs further. -/
theorem Prolongs.foldl_addCasualty {known casualties : List UnitId}
    (h : Prolongs known casualties) (killed : List UnitId) :
    Prolongs known (killed.foldl Ledger.addCasualty casualties) := by
  induction killed generalizing casualties with
  | nil => exact h
  | cons unit rest ih => exact ih (h.addCasualty unit)

/-- Those who are added after a point at which all that were `known` are passed are new there. -/
theorem Prolongs.drop {known casualties : List UnitId} (h : Prolongs known casualties)
    {first : Nat} (hle : known.length ≤ first) :
    (casualties.drop first).Nodup ∧
      ∀ unit ∈ casualties.drop first, unit ∉ casualties.take first := by
  obtain ⟨added, rfl, hnodup, hnew⟩ := h
  have hdrop : (known ++ added).drop first = added.drop (first - known.length) := by
    rw [List.drop_append, List.drop_eq_nil_of_le hle, List.nil_append]
  have htake : (known ++ added).take first = known ++ added.take (first - known.length) := by
    rw [List.take_append, List.take_of_length_le hle]
  rw [hdrop, htake]
  refine ⟨hnodup.sublist (List.drop_sublist _ _), fun unit hlate hearly => ?_⟩
  rcases List.mem_append.1 hearly with hknown | htaken
  · exact hnew unit (List.mem_of_mem_drop hlate) hknown
  · exact List.disjoint_take_drop hnodup (Nat.le_refl _) htaken hlate

/-- Whether one of the groups of the `ledger` from a position on has killed the `unit`. -/
def HasKilled (first : Nat) (ledger : Ledger) (unit : UnitId) : Prop :=
  ∃ (index : Nat) (record : GroupRecord), first ≤ index ∧ ledger.groups[index]? = some record ∧
    unit ∈ record.killed

/-- What has come to a ledger since `before`: casualties that are new are there once each, and they
    are those whom the groups that are new have killed. -/
structure Accrued (before now : Ledger) : Prop where
  length : before.groups.length ≤ now.groups.length
  casualties : Prolongs before.casualties now.casualties
  dead : ∀ unit, unit ∈ now.casualties ↔
    unit ∈ before.casualties ∨ now.HasKilled before.groups.length unit

/-- Whether the records of the `ledger` from a position on are sound. -/
def SoundFrom (first : Nat) (ledger : Ledger) : Prop :=
  ∀ (index : Nat) (record : GroupRecord), first ≤ index → ledger.groups[index]? = some record →
    record.Sound

/-- Groups that are not there have not killed anybody. -/
theorem not_hasKilled (ledger : Ledger) (unit : UnitId) :
    ¬ ledger.HasKilled ledger.groups.length unit := by
  rintro ⟨index, record, hle, hrecord, -⟩
  rw [List.getElem?_eq_none hle] at hrecord
  simp at hrecord

namespace Accrued

/-- A `ledger` has accrued from itself. -/
theorem refl (ledger : Ledger) : Accrued ledger ledger where
  length := Nat.le_refl _
  casualties := .refl _
  dead unit := (or_iff_left (not_hasKilled ledger unit)).symm

/-- Some units die, and the groups that are new have `killed` them: that has `Accrued`. -/
theorem add {before now later : Ledger} (h : Accrued before now) (killed : List UnitId)
    (hlength : now.groups.length ≤ later.groups.length)
    (hcasualties : later.casualties = killed.foldl addCasualty now.casualties)
    (hkilled : ∀ unit, later.HasKilled before.groups.length unit ↔
      now.HasKilled before.groups.length unit ∨ unit ∈ killed) : Accrued before later where
  length := Nat.le_trans h.length hlength
  casualties := hcasualties ▸ h.casualties.foldl_addCasualty killed
  dead unit := by rw [hcasualties, mem_foldl_addCasualty, h.dead, hkilled, or_assoc]

end Accrued

end Ledger

/-- Where nobody is killed, `Unharmed`, the groups have killed those whom they had killed. -/
theorem Unharmed.hasKilled_iff (h : Unharmed scene after) (first : Nat) (unit : UnitId) :
    after.ledger.HasKilled first unit ↔ scene.ledger.HasKilled first unit := by
  have hsame {index : Nat} {was is : GroupRecord} (hwas : scene.ledger.groups[index]? = some was)
      (his : after.ledger.groups[index]? = some is) : is.killed = was.killed := by
    rw [GroupRecord.killed, (h.records index was is hwas his).2.2]
    rfl
  constructor
  · rintro ⟨index, is, hle, his, hunit⟩
    obtain ⟨was, hwas⟩ := h.exists_was his
    exact ⟨index, was, hle, hwas, hsame hwas his ▸ hunit⟩
  · rintro ⟨index, was, hle, hwas, hunit⟩
    have hlt : index < after.ledger.groups.length := by
      rw [h.length]
      exact (List.getElem?_eq_some_iff.1 hwas).1
    have his := List.getElem?_eq_getElem hlt
    exact ⟨index, _, hle, his, hsame hwas his ▸ hunit⟩

/-- Groups that are `opened` have not killed anybody. -/
theorem Plan.hasKilled_opened (plan : Plan) (groups : List FiringGroup) (ledger : Ledger)
    (first : Nat) (unit : UnitId) :
    (plan.opened groups ledger).HasKilled first unit ↔ ledger.HasKilled first unit := by
  constructor
  · rintro ⟨index, record, hle, hrecord, hunit⟩
    rcases getElem?_opened hrecord with ⟨-, hwas⟩ | ⟨-, hfresh⟩
    · exact ⟨index, record, hle, hwas, hunit⟩
    · rw [(eq_of_mem_freshRecords (List.mem_of_getElem? hfresh)).2] at hunit
      simp [GroupRecord.killed] at hunit
  · rintro ⟨index, record, hle, hrecord, hunit⟩
    refine ⟨index, record, hle, ?_, hunit⟩
    obtain ⟨hlt, -⟩ := List.getElem?_eq_some_iff.1 hrecord
    rw [opened, List.getElem?_append_left hlt]
    exact hrecord

/-- After a selection of a group that had no `losses`, the groups have killed those whom they had
    killed, and those whom it kills. -/
theorem StageDone.hasKilled_of_rolled (hrecord : scene.ledger.record id = .ok record)
    (h : StageDone id record scene .select after) (hlosses : record.losses = none)
    {is : GroupRecord} (his : after.ledger.groups[id.index]? = some is) {first : Nat}
    (hle : first ≤ id.index) (unit : UnitId) :
    after.ledger.HasKilled first unit ↔ scene.ledger.HasKilled first unit ∨ unit ∈ is.killed := by
  have hfound := Ledger.record_eq_ok.1 hrecord
  have hsame {index : Nat} {was later : GroupRecord} (hne : index ≠ id.index)
      (hchange : RecordChange scene (.stage .select id) index was later) :
      later.killed = was.killed := by
    rw [GroupRecord.killed, hchange.losses_eq fun hstep => ?_]
    · rfl
    · obtain ⟨-, rfl⟩ := Step.stage.inj hstep
      exact absurd rfl hne
  -- The selection adds the dead of its own group, which had none; all other records keep theirs.
  constructor
  · rintro ⟨index, later, hindex, hlater, hunit⟩
    by_cases heq : index = id.index
    · subst heq
      obtain rfl : later = is := Option.some.inj (hlater.symm.trans his)
      exact .inr hunit
    · obtain ⟨was, hwas, hchange⟩ := h.recordChange hrecord hlater
      exact .inl ⟨index, was, hindex, hwas, hsame heq hchange ▸ hunit⟩
  · rintro (⟨index, was, hindex, hwas, hunit⟩ | hunit)
    · have hne : index ≠ id.index := by
        rintro rfl
        obtain rfl : record = was := Option.some.inj (hfound.symm.trans hwas)
        simp [GroupRecord.killed, hlosses] at hunit
      have hlt : index < after.ledger.groups.length := by
        rw [h.length]
        exact (List.getElem?_eq_some_iff.1 hwas).1
      have hlater := List.getElem?_eq_getElem hlt
      obtain ⟨was', hwas', hchange⟩ := h.recordChange hrecord hlater
      obtain rfl : was' = was := Option.some.inj (hwas'.symm.trans hwas)
      exact ⟨index, _, hindex, hlater, hsame hne hchange ▸ hunit⟩
    · exact ⟨id.index, is, hle, his, hunit⟩

/-! ### Attempts -/

/-- An action that only adds to the ledger that was there `before`. -/
structure Adds (before : Ledger) (progress : Progress ρ) : Prop where
  spares : ∀ step ∈ progress.pending, step.Spares before.groups.length
  sound : progress.scene.ledger.SoundFrom before.groups.length
  accrued : before.Accrued progress.scene.ledger

namespace Adds

variable {before : Ledger}

/-- An action adds to a ledger from where no group of it is to go on, when its `steps` are plans. -/
theorem of_plans {steps : List Step} (hplans : ∀ step ∈ steps, step.isPlan = true)
    (scene : Scene ρ) : Adds scene.ledger ⟨steps, scene⟩ where
  spares step hstep := by
    cases step with
    | plan plan => trivial
    | stage stage id => simpa [Step.isPlan] using hplans _ hstep
  sound index record hle hrecord := by
    rw [List.getElem?_eq_none hle] at hrecord
    simp at hrecord
  accrued := .refl _

/-- In an `Interlude` nothing is added, and that is to add only. -/
theorem interlude {pending : List Step} (h : Adds before ⟨pending, scene⟩)
    (hpause : Interlude scene after) : Adds before ⟨pending, after⟩ := by
  refine ⟨h.spares, ?_, ?_⟩
  · intro index record hle hrecord
    rw [hpause.groups] at hrecord
    exact h.sound index record hle hrecord
  · refine h.accrued.add [] (Nat.le_of_eq (by rw [hpause.groups])) hpause.casualties
      fun unit => ?_
    simp [Ledger.HasKilled, hpause.groups]

/-- Where nobody is killed, `Unharmed`, what `Adds` has accrued still has. -/
theorem accrued_of_unharmed {pending : List Step} (h : Adds before ⟨pending, scene⟩)
    (hsame : Unharmed scene after) : before.Accrued after.ledger := by
  refine h.accrued.add [] (Nat.le_of_eq hsame.length.symm) hsame.casualties fun unit => ?_
  rw [hsame.hasKilled_iff]
  simp

variable [RandomSource ρ] {timing : Timing} {step : Step} {rest : List Step}

omit [RandomSource ρ] in
/-- The `stage` adds the dead of its group, if it selects them. -/
theorem accrued_stage {stage : Stage} (h : Adds before ⟨.stage stage id :: rest, scene⟩)
    (hrecord : scene.ledger.record id = .ok record)
    (hdone : StageDone id record scene stage after) : before.Accrued after.ledger := by
  by_cases hselects : stage = .select ∧ record.phase = .rolled
  · obtain ⟨rfl, hphase⟩ := hselects
    have hle : before.groups.length ≤ id.index := h.spares _ List.mem_cons_self
    have hfound := Ledger.record_eq_ok.1 hrecord
    have hlt : id.index < after.ledger.groups.length := by
      rw [hdone.length]
      exact (List.getElem?_eq_some_iff.1 hfound).1
    have his := List.getElem?_eq_getElem hlt
    -- A sound record has no losses before they are selected.
    have hshape := (h.sound id.index record hle hfound).shape
    rw [hphase] at hshape
    exact h.accrued.add _ (Nat.le_of_eq hdone.length.symm)
      (hdone.casualties_of_rolled hrecord hphase his)
      (hdone.hasKilled_of_rolled hrecord hshape.2 his hle)
  · refine h.accrued_of_unharmed (hdone.unharmed hrecord ?_)
    exact fun hselect hphase => hselects ⟨hselect, hphase⟩

/-- An `attempt` at the `step` only adds to what it finds. -/
theorem attempt (timing : Timing) (h : Adds before ⟨step :: rest, scene⟩) :
    Adds before (Progress.attempt timing ⟨step :: rest, scene⟩) := by
  have hrest : ∀ other ∈ rest, other.Spares before.groups.length := fun other hother =>
    h.spares other (List.mem_cons_of_mem step hother)
  have hsound : (Progress.attempt timing ⟨step :: rest, scene⟩).scene.ledger.SoundFrom
      before.groups.length := by
    intro index is hle his
    rcases Progress.record_of_attempt his with ⟨-, hfresh⟩ | ⟨was, hwas, hchange⟩
    · rw [hfresh]
      exact .fresh _ _
    · exact hchange.sound (h.sound index was hle hwas)
  have hattempted := Progress.attempted timing step rest scene
  generalize Progress.attempt timing ⟨step :: rest, scene⟩ = progress at hattempted hsound ⊢
  -- Groups are added by a plan, and the dead by a stage of one of these.
  cases hattempted with
  | failed hkept =>
    exact ⟨h.spares, hsound, h.accrued_of_unharmed (Kept.of_uncommitted hkept).toUnharmed⟩
  | @planned plan groups hgroups =>
    refine ⟨fun other hother => ?_, hsound, h.accrued.add [] ?_ rfl fun unit => ?_⟩
    · rcases List.mem_append.1 hother with hnext | hleft
      · exact Step.spares_of_mem_allOf h.accrued.length hnext
      · exact hrest other hleft
    · show scene.ledger.groups.length ≤ (plan.opened groups scene.ledger).groups.length
      rw [Plan.length_opened]
      exact Nat.le_add_right _ _
    · show (plan.opened groups scene.ledger).HasKilled _ unit ↔ _
      rw [plan.hasKilled_opened]
      simp
  | staged hrecord hdone => exact ⟨hrest, hsound, h.accrued_stage hrecord hdone⟩

end Adds

/-! ### Where groups come from -/

namespace Plan

variable {groups : List FiringGroup} {group : FiringGroup}

/-- A `group` that fires over a territory is `Formed` among the `targets` that are still there, and
    there are some. -/
theorem formed_overflight {name : String} {targets : List UnitId}
    (h : (Plan.overflight name targets).groupsOn scene = .ok groups) (hgroup : group ∈ groups) :
    (∃ unit ∈ targets, (!scene.ledger.isCasualty unit && scene.host.board.hasUnit unit) = true) ∧
      ∃ territory, scene.host.board.Formed (scene.host.board.overflightMuster scene.ledger.player
        territory name (targets.filter fun unit =>
          !scene.ledger.isCasualty unit && scene.host.board.hasUnit unit)) group := by
  rw [groupsOn] at h
  split at h
  · obtain rfl := Except.ok.inj h
    simp at hgroup
  · rename_i hsome
    obtain ⟨territory, -, rfl⟩ := Fault.exists_of_map h
    refine ⟨?_, territory, Board.formed_of_mem_muster hgroup⟩
    rw [List.isEmpty_iff, List.filter_eq_nil_iff] at hsome
    simpa using hsome

/-- A `group` that fires in a battle is `Formed` among the targets that are alive. -/
theorem formed_battle {fire : BattleFire}
    (h : (Plan.battle fire).groupsOn scene = .ok groups) (hgroup : group ∈ groups) :
    scene.host.board.Formed (scene.host.board.battleMuster fire
      (fire.targets.filter fun unit => !scene.ledger.isCasualty unit)) group := by
  rw [groupsOn] at h
  obtain ⟨territory, -, rfl⟩ := Fault.exists_of_map h
  exact Board.formed_of_mem_muster hgroup

/-- Nobody whom the `group` may hit was dead when it was formed. -/
theorem alive_of_groupsOn {plan : Plan} (h : plan.groupsOn scene = .ok groups)
    (hgroup : group ∈ groups) : ∀ unit ∈ group.targets, unit ∉ scene.ledger.casualties := by
  intro unit hunit
  cases plan with
  | overflight name targets =>
    obtain ⟨-, territory, hformed⟩ := formed_overflight h hgroup
    have hkept := (List.mem_filter.1 (hformed.mem_candidates hunit)).2
    simp only [Ledger.isCasualty, Bool.and_eq_true, Bool.not_eq_true', decide_eq_false_iff_not]
      at hkept
    exact hkept.1
  | battle fire =>
    have hkept := (List.mem_filter.1 ((formed_battle h hgroup).mem_candidates hunit)).2
    simpa [Ledger.isCasualty] using hkept

end Plan

variable [RandomSource ρ] {Turns : List Step → List Step → Prop}

/-- A record that is new after the `attempt` is that of a group that was formed in it. -/
theorem Progress.exists_plan_of_fresh {timing : Timing} {step : Step} {rest : List Step}
    {index : Nat} {is : GroupRecord} (hnone : scene.ledger.groups[index]? = none)
    (his : (attempt timing ⟨step :: rest, scene⟩).scene.ledger.groups[index]? = some is) :
    ∃ plan groups, step = .plan plan ∧ plan.groupsOn scene = .ok groups ∧ is.group ∈ groups := by
  have hattempted := attempted timing step rest scene
  generalize attempt timing ⟨step :: rest, scene⟩ = progress at hattempted his
  cases hattempted with
  | failed hkept =>
    obtain ⟨was, hwas, -⟩ := hkept.recordChange his
    simp [hnone] at hwas
  | planned hgroups =>
    rcases Plan.getElem?_opened his with ⟨-, hold⟩ | ⟨-, hfresh⟩
    · simp [hnone] at hold
    · exact ⟨_, _, rfl, hgroups, (eq_of_mem_freshRecords (List.mem_of_getElem? hfresh)).1⟩
  | staged hrecord hdone =>
    obtain ⟨was, hwas, -⟩ := hdone.recordChange hrecord his
    simp [hnone] at hwas

/-- On the way from `start` a plan came to this group on this scene. -/
structure PlannedOn (Turns : List Step → List Step → Prop) (start : Progress ρ) (plan : Plan)
    (scene : Scene ρ) (group : FiringGroup) : Prop where
  proceeds : ∃ count rest, Proceeds Interlude Turns start count ⟨.plan plan :: rest, scene⟩
  groups : ∃ groups, plan.groupsOn scene = .ok groups ∧ group ∈ groups

/-- A group that is new was planned on the way: some plan was `PlannedOn`. -/
theorem Proceeds.exists_plannedOn {start now : Progress ρ} {count : Nat}
    (h : Proceeds Interlude Turns start count now) {index : Nat} {is : GroupRecord}
    (hnew : start.scene.ledger.groups.length ≤ index)
    (his : now.scene.ledger.groups[index]? = some is) :
    ∃ plan scene, PlannedOn Turns start plan scene is.group := by
  -- The group was opened in the last attempt, or it was there before it.
  have hattempt {count : Nat} {timing : Timing} {step : Step} {rest : List Step} {scene : Scene ρ}
      {is : GroupRecord} (earlier : Proceeds Interlude Turns start count ⟨step :: rest, scene⟩)
      (ih : ∀ was, scene.ledger.groups[index]? = some was →
        ∃ plan scene, PlannedOn Turns start plan scene was.group)
      (his : (Progress.attempt timing ⟨step :: rest, scene⟩).scene.ledger.groups[index]? =
        some is) : ∃ plan scene, PlannedOn Turns start plan scene is.group := by
    rcases Progress.record_of_attempt his with ⟨hnone, -⟩ | ⟨was, hwas, hchange⟩
    · obtain ⟨plan, groups, rfl, hgroups, hgroup⟩ := Progress.exists_plan_of_fresh hnone his
      exact ⟨plan, scene, ⟨count, rest, earlier⟩, groups, hgroups, hgroup⟩
    · rw [hchange.group]
      exact ih was hwas
  induction h generalizing is with
  | here =>
    rw [List.getElem?_eq_none hnew] at his
    simp at his
  | done earlier hdone ih =>
    rw [← Progress.attempt_ok hdone] at his
    exact hattempt earlier (fun _ hwas => ih hwas) his
  | failed earlier hfailed ih =>
    rw [← Progress.attempt_error hfailed] at his
    exact hattempt earlier (fun _ hwas => ih hwas) his
  | paused _ hpause ih =>
    rw [hpause.groups] at his
    exact ih his
  | turned _ _ ih => exact ih his

/-- However an action `Proceeds`, it only adds, as long as it takes up plans only. -/
theorem Proceeds.adds {start now : Progress ρ} {count : Nat} {before : Ledger}
    (hstart : Adds before start)
    (hturns : ∀ left next, Turns left next → ∀ step ∈ next, step.isPlan = true)
    (h : Proceeds Interlude Turns start count now) : Adds before now := by
  refine h.preserves hstart ?_ ?_ ?_
  · exact fun timing step rest scene hadds => hadds.attempt timing
  · exact fun pending before after hpause hadds => hadds.interlude hpause
  · intro left next scene hturn hadds
    refine ⟨fun step hstep => ?_, hadds.sound, hadds.accrued⟩
    have hplan := hturns left next hturn step hstep
    cases step with
    | plan plan => trivial
    | stage stage id => simp [Step.isPlan] at hplan

/-- A group of a move was planned on the way for the `moving` units, in their order, and it was
    `Formed` in the territory that it fires in among those that were left, of which there were
    some. -/
theorem Overflight.exists_formed {fire ready : Overflight} {host : Host ρ} {route : Route}
    {units : List UnitId} {ordering : BoardUnit → BoardUnit → Ordering} {moving : List BoardUnit}
    {now : Progress ρ} {count : Nat} (hnew : fire.agenda.isEmpty = true)
    (hready : fire.prepare host route units ordering = .ok ready)
    (hmoving : host.board.findUnits units = .ok moving)
    (h : Proceeds Interlude Stays (ready.progress host) count now) {index : Nat}
    {record : GroupRecord} (hrecord : now.scene.ledger.groups[index]? = some record) :
    let targets := (inOrder ordering moving).map BoardUnit.id
    ∃ scene : Scene ρ, PlannedOn Stays (ready.progress host)
        (.overflight record.group.territory targets) scene record.group ∧
      (∃ unit ∈ targets,
        (!scene.ledger.isCasualty unit && scene.host.board.hasUnit unit) = true) ∧
      ∃ territory, scene.host.board.Formed (scene.host.board.overflightMuster scene.ledger.player
        territory record.group.territory (targets.filter fun unit =>
          !scene.ledger.isCasualty unit && scene.host.board.hasUnit unit)) record.group := by
  obtain ⟨territories, moving', -, hmoving', -, hstart⟩ := prepare_ok hnew hready
  obtain rfl := Except.ok.inj (hmoving.symm.trans hmoving')
  have hempty : (ready.progress host).scene.ledger.groups.length ≤ index := by
    rw [hstart]
    exact Nat.zero_le index
  obtain ⟨plan, scene, hplanned⟩ := h.exists_plannedOn hempty hrecord
  obtain ⟨earlier, rest, hway⟩ := hplanned.proceeds
  obtain ⟨groups, hgroups, hgroup⟩ := hplanned.groups
  -- The plan is one of those that were prepared.
  have hplan := hway.mem_of_plan_mem List.mem_cons_self
  rw [hstart] at hplan
  obtain ⟨name, -, hname⟩ := List.mem_map.1 hplan
  obtain rfl := Step.plan.inj hname
  obtain ⟨hleft, territory, hformed⟩ := Plan.formed_overflight hgroups hgroup
  obtain rfl : record.group.territory = name := hformed.territory
  exact ⟨scene, hplanned, hleft, territory, hformed⟩

/-- A group of a firing in a battle was `Formed` for it on the way. -/
theorem BattleFire.exists_formed {fire : BattleFire} {start : Scene ρ} {now : Progress ρ}
    {count : Nat} (h : Proceeds Interlude Stays ⟨[.plan (.battle fire)], start⟩ count now)
    {index : Nat} {record : GroupRecord} (hnew : start.ledger.groups.length ≤ index)
    (hrecord : now.scene.ledger.groups[index]? = some record) :
    ∃ scene : Scene ρ, PlannedOn Stays ⟨[.plan (.battle fire)], start⟩ (.battle fire) scene
        record.group ∧ scene.host.board.Knows fire.territory ∧
      scene.host.board.Formed (scene.host.board.battleMuster fire
        (fire.targets.filter fun unit => !scene.ledger.isCasualty unit)) record.group := by
  obtain ⟨plan, scene, hplanned⟩ := h.exists_plannedOn hnew hrecord
  obtain ⟨earlier, rest, hway⟩ := hplanned.proceeds
  obtain ⟨groups, hgroups, hgroup⟩ := hplanned.groups
  have hplan := hway.mem_of_plan_mem List.mem_cons_self
  obtain rfl : plan = .battle fire := Step.plan.inj (List.mem_singleton.1 hplan)
  refine ⟨scene, hplanned, ?_, Plan.formed_battle hgroups hgroup⟩
  rw [Plan.groupsOn] at hgroups
  obtain ⟨territory, hfound, -⟩ := Fault.exists_of_map hgroups
  cases hfind : scene.host.board.territory? fire.territory with
  | none => simp [Board.territory, hfind] at hfound
  | some _ => simp [Board.Knows, hfind]

end Flak
