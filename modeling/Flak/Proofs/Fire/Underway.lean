import Flak.Proofs.Fire.Toll

namespace Flak

/-!
# What an action only ever adds to

While the steps of an action without attendance succeed, its ledger grows: what a record holds it
keeps, and only what it lacks is filled in.

* `GroupRecord.Coherent` — a record lacks what its phase has not come to;
* `GroupRecord.Grows`, `Ledger.Grows` — what is held is kept;
* `StageDone.record_grows` — a stage that is done makes a coherent record grow;
* `Underway` — an action without attendance on its way;
* `Advances.underway` — steps that succeed keep it on its way, and its ledger grows.
-/

variable {ρ : Type} {id : GroupId} {record : GroupRecord} {scene after : Scene ρ}

namespace GroupRecord

/-- A group on `record` that has not rolled has neither dice nor anybody to fire or to be hit, and a
    group that has not selected has no losses. -/
structure Coherent (record : GroupRecord) : Prop where
  pending : record.phase = .pendingRoll →
    record.activeFiring = [] ∧ record.validTargets = [] ∧ record.dice = none
  unselected : record.phase = .pendingRoll ∨ record.phase = .rolled → record.losses = none

/-- The record `is` is about the same group as `was` and holds all that this one holds. -/
structure Grows (was is : GroupRecord) : Prop where
  id : is.id = was.id
  group : is.group = was.group
  activeFiring : was.activeFiring = [] ∨ is.activeFiring = was.activeFiring
  validTargets : was.validTargets = [] ∨ is.validTargets = was.validTargets
  dice : was.dice = none ∨ is.dice = was.dice
  losses : was.losses = none ∨ is.losses = was.losses

namespace Grows

/-- A `record` holds all that it holds. -/
theorem refl (record : GroupRecord) : Grows record record :=
  ⟨rfl, rfl, .inr rfl, .inr rfl, .inr rfl, .inr rfl⟩

/-- What was `lacking` or kept, and then again, was lacking or kept. -/
theorem lacking_or_kept {α : Type} {lacking first second third : α}
    (h : first = lacking ∨ second = first) (h' : second = lacking ∨ third = second) :
    first = lacking ∨ third = first := by
  rcases h with h | h
  · exact .inl h
  · rw [h] at h'
    exact h'

/-- A record that `Grows` and grows again has grown. -/
theorem trans {first second third : GroupRecord} (h : Grows first second)
    (h' : Grows second third) : Grows first third where
  id := h'.id.trans h.id
  group := h'.group.trans h.group
  activeFiring := lacking_or_kept h.activeFiring h'.activeFiring
  validTargets := lacking_or_kept h.validTargets h'.validTargets
  dice := lacking_or_kept h.dice h'.dice
  losses := lacking_or_kept h.losses h'.losses

end Grows

end GroupRecord

namespace Ledger

/-- The ledger `is` is about the same action as `was` and holds all that this one holds. -/
structure Grows (was is : Ledger) : Prop where
  battle : is.battle = was.battle
  targets : is.targets = was.targets
  casualties : ∀ unit ∈ was.casualties, unit ∈ is.casualties
  groups : ∀ (index : Nat) (record : GroupRecord), was.groups[index]? = some record →
    ∃ later, is.groups[index]? = some later ∧ record.Grows later

namespace Grows

/-- A `ledger` holds all that it holds. -/
theorem refl (ledger : Ledger) : Grows ledger ledger :=
  ⟨rfl, rfl, fun _ h => h, fun _ record h => ⟨record, h, .refl record⟩⟩

/-- A ledger that `Grows` and grows again has grown. -/
theorem trans {first second third : Ledger} (h : Grows first second) (h' : Grows second third) :
    Grows first third where
  battle := h'.battle.trans h.battle
  targets := h'.targets.trans h.targets
  casualties unit hunit := h'.casualties unit (h.casualties unit hunit)
  groups := by
    intro index record hrecord
    obtain ⟨later, hlater, hgrows⟩ := h.groups index record hrecord
    obtain ⟨last, hlast, hgrows'⟩ := h'.groups index later hlater
    exact ⟨last, hlast, hgrows.trans hgrows'⟩

/-- A ledger that `Grows` has no fewer groups. -/
theorem length_le {was is : Ledger} (h : Grows was is) : was.groups.length ≤ is.groups.length := by
  -- A record beyond the end of the second ledger would have to be kept there.
  by_contra hlt
  have hsome := List.getElem?_eq_getElem (Nat.lt_of_not_le hlt)
  obtain ⟨later, hlater, -⟩ := h.groups _ _ hsome
  rw [List.getElem?_eq_none (Nat.le_refl _)] at hlater
  simp at hlater

/-- The `groups` of a plan that are opened come after those that are there, so the ledger
    `Grows`. -/
theorem opened (plan : Plan) (groups : List FiringGroup) (ledger : Ledger) :
    Grows ledger (plan.opened groups ledger) := by
  refine ⟨rfl, rfl, fun _ h => h, fun index record hrecord => ⟨record, ?_, .refl record⟩⟩
  obtain ⟨hlt, -⟩ := List.getElem?_eq_some_iff.1 hrecord
  rw [Plan.opened, List.getElem?_append_left hlt]
  exact hrecord

end Grows

end Ledger

/-! ### Stages -/

namespace StageDone

variable {stage : Stage}

/-- Only the `record` of the group changes by a stage that is done; it grows if it was `Coherent`,
    and stays coherent. -/
theorem record_grows (hrecord : scene.ledger.record id = .ok record)
    (h : StageDone id record scene stage after) :
    ∃ later, (∀ index : Nat, after.ledger.groups[index]? = (scene.ledger.groups[index]?).map
        fun was => if index = id.index then later else was) ∧
      (record.Coherent → record.Grows later ∧ later.Coherent) := by
  have hfound := Ledger.record_eq_ok.1 hrecord
  -- A change of the record of the group is a change of this record.
  have hone (change : GroupRecord → GroupRecord) (index : Nat) :
      ((scene.ledger.groups[index]?).map fun was =>
        if index = id.index then change was else was) =
          (scene.ledger.groups[index]?).map fun was =>
            if index = id.index then change record else was := by
    by_cases hindex : index = id.index
    · subst hindex
      simp [hfound]
    · simp [hindex]
  cases h with
  | past =>
    refine ⟨record, fun index => ?_, fun hcoherent => ⟨.refl record, hcoherent⟩⟩
    rw [← hone (fun was => was) index]
    simp
  | idle hphase =>
    refine ⟨{ record with phase := .done }, fun index => ?_, fun _ => ⟨?_, ?_⟩⟩
    · exact (Ledger.getElem?_updateRecord _ _ _ index).trans (hone _ index)
    · exact ⟨rfl, rfl, .inr rfl, .inr rfl, .inr rfl, .inr rfl⟩
    · exact ⟨nofun, by simp⟩
  | rolled hphase dice =>
    refine ⟨_, fun index => (Ledger.getElem?_updateRecord _ _ _ index).trans (hone _ index), ?_⟩
    intro hcoherent
    -- What the roll writes was blank in a coherent record.
    obtain ⟨hactive, hvalid, hdice⟩ := hcoherent.pending hphase
    refine ⟨⟨rfl, rfl, .inl hactive, .inl hvalid, .inl hdice, .inr rfl⟩, nofun, fun _ => ?_⟩
    exact hcoherent.unselected (.inl hphase)
  | selected hphase htargets hletters hcheck =>
    obtain ⟨told, hgroups⟩ := getElem?_commit record.group (record.dice.getD {}).hits _
      hletters.toExchanged
    refine ⟨_, fun index => (hgroups index).trans (hone _ index), fun hcoherent => ⟨?_, ?_⟩⟩
    · exact ⟨rfl, rfl, .inr rfl, .inr rfl, .inr rfl,
        .inl (hcoherent.unselected (.inr hphase))⟩
    · exact ⟨nofun, by simp⟩
  | @finished hphase mid hletters =>
    have hdice : Exchanged id (scene.setDice scene.host.dice) mid := hletters.toExchanged
    obtain ⟨told, hgroups⟩ := hdice.getElem?_updateRecord fun was => { was with phase := .done }
    refine ⟨_, fun index => (hgroups index).trans (hone _ index), fun _ => ⟨?_, ?_⟩⟩
    · exact ⟨rfl, rfl, .inr rfl, .inr rfl, .inr rfl, .inr rfl⟩
    · exact ⟨nofun, by simp⟩

/-- Without attendance no request is `parked` by a stage that is done. -/
theorem parked (h : StageDone id record scene stage after)
    (hheadless : scene.ledger.headless = true) :
    after.ledger.parked = scene.ledger.parked := by
  cases h with
  | past => rfl
  | idle => rfl
  | rolled => rfl
  | selected _ _ hletters _ =>
    rw [hletters.nobody hheadless]
    rfl
  | finished _ hletters =>
    rw [hletters.nobody hheadless]
    rfl

/-- The ledger of an action `Grows` with a `stage` that is done. -/
theorem grows (hrecord : scene.ledger.record id = .ok record) (hcoherent : record.Coherent)
    (h : StageDone id record scene stage after) : scene.ledger.Grows after.ledger := by
  obtain ⟨later, hgroups, hlater⟩ := h.record_grows hrecord
  have hsteady := Steady.of_done h
  refine ⟨hsteady.battle, hsteady.targets, fun unit hunit => h.casualties_grow.subset hunit, ?_⟩
  intro index was hwas
  rw [hgroups index, hwas]
  by_cases hindex : index = id.index
  · subst hindex
    obtain rfl := Ledger.eq_of_record hrecord hwas
    exact ⟨later, by simp, (hlater hcoherent).1⟩
  · exact ⟨was, by simp [hindex], .refl was⟩

end StageDone

/-! ### An action on its way -/

/-- Whether a step has a group in the `ledger` to work on, or the targets of the action to aim
    at. -/
inductive Step.Fits (ledger : Ledger) : Step → Prop
  | plan (territory : String) : Fits ledger (.plan (.overflight territory ledger.targets))
  | stage (stage : Stage) {id : GroupId} (hid : id.index < ledger.groups.length) :
      Fits ledger (.stage stage id)

/-- A `step` still `Fits` when the ledger has grown. -/
theorem Step.Fits.grows {step : Step} {was is : Ledger} (h : step.Fits was)
    (hgrows : was.Grows is) : step.Fits is := by
  cases h with
  | plan territory =>
    rw [← hgrows.targets]
    exact .plan territory
  | stage stage hid => exact .stage stage (Nat.lt_of_lt_of_le hid hgrows.length_le)

/-- The fire at a move, without attendance, on its way, having made this `progress`. -/
structure Underway (progress : Progress ρ) : Prop where
  headless : progress.scene.ledger.headless = true
  parked : progress.scene.ledger.parked = ∅
  numbered : progress.scene.ledger.Numbered
  coherent : ∀ (index : Nat) (record : GroupRecord),
    progress.scene.ledger.groups[index]? = some record → record.Coherent
  steps : ∀ step ∈ progress.pending, step.Fits progress.scene.ledger

namespace Underway

/-- The stages of the `groups` of a `plan` have groups to work on. -/
theorem fits_of_opened {plan : Plan} {groups : List FiringGroup} {ledger : Ledger} {step : Step}
    (h : step ∈
      ((freshRecords ledger.groups.length groups).map GroupRecord.id).flatMap Step.allOf) :
    step.Fits (plan.opened groups ledger) := by
  rw [map_id_freshRecords] at h
  obtain ⟨id, hid, hstep⟩ := List.mem_flatMap.1 h
  obtain ⟨index, hindex, rfl⟩ := List.mem_map.1 hid
  have hlt : index < (plan.opened groups ledger).groups.length := by
    have hrange := List.mem_range'_1.1 hindex
    rw [Plan.length_opened]
    omega
  simp only [Step.allOf, List.mem_cons, List.not_mem_nil, or_false] at hstep
  rcases hstep with rfl | rfl | rfl
  · exact .stage .roll hlt
  · exact .stage .select hlt
  · exact .stage .notify hlt

/-- A `plan` that is carried out leaves the action `Underway`. -/
theorem opened {plan : Plan} {rest : List Step} (h : Underway ⟨.plan plan :: rest, scene⟩)
    (groups : List FiringGroup) :
    Underway ⟨((freshRecords scene.ledger.groups.length groups).map GroupRecord.id).flatMap
        Step.allOf ++ rest,
      { scene with ledger := plan.opened groups scene.ledger }⟩ := by
  have hgrows := Ledger.Grows.opened plan groups scene.ledger
  refine ⟨h.headless, h.parked, h.numbered.opened plan groups, ?_, ?_⟩
  · intro index is his
    rcases Plan.getElem?_opened his with ⟨-, hwas⟩ | ⟨-, hfresh⟩
    · exact h.coherent index is hwas
    · rw [(eq_of_mem_freshRecords (List.mem_of_getElem? hfresh)).2]
      exact ⟨fun _ => ⟨rfl, rfl, rfl⟩, fun _ => rfl⟩
  · intro other hother
    rcases List.mem_append.1 hother with hnew | hold
    · exact fits_of_opened hnew
    · exact (h.steps other (List.mem_cons_of_mem _ hold)).grows hgrows

/-- A `stage` that is done leaves the action `Underway`. -/
theorem done {step : Step} {rest : List Step} {stage : Stage}
    (h : Underway ⟨step :: rest, scene⟩) (hrecord : scene.ledger.record id = .ok record)
    (hdone : StageDone id record scene stage after) : Underway ⟨rest, after⟩ := by
  have hindex := Ledger.record_eq_ok.1 hrecord
  have hcoherent := h.coherent id.index record hindex
  have hgrows := hdone.grows hrecord hcoherent
  obtain ⟨later, hgroups, hlater⟩ := hdone.record_grows hrecord
  -- Nobody takes part, so nothing is parked; all records but that of the group are as they were.
  refine ⟨?_, ?_, ?_, ?_, ?_⟩
  · exact (Steady.of_done hdone).headless.trans h.headless
  · exact (hdone.parked h.headless).trans h.parked
  · intro index is his
    rw [hgroups index] at his
    obtain ⟨was, hwas, rfl⟩ := Option.map_eq_some_iff.1 his
    split
    · rename_i heq
      subst heq
      rw [(hlater hcoherent).1.id]
      exact h.numbered _ record hindex
    · exact h.numbered index was hwas
  · intro index is his
    rw [hgroups index] at his
    obtain ⟨was, hwas, rfl⟩ := Option.map_eq_some_iff.1 his
    split
    · exact (hlater hcoherent).2
    · exact h.coherent index was hwas
  · exact fun other hother => (h.steps other (List.mem_cons_of_mem _ hother)).grows hgrows

/-- A `step` that succeeds leaves the action `Underway`, and its ledger has grown. -/
theorem step [RandomSource ρ] {timing : Timing} {step : Step} {rest next : List Step}
    (h : Underway ⟨step :: rest, scene⟩)
    (hdone : (step.perform timing).onScene scene = (.ok next, after)) :
    Underway ⟨next ++ rest, after⟩ ∧ scene.ledger.Grows after.ledger := by
  cases step with
  | plan plan =>
    obtain ⟨groups, -, rfl, rfl⟩ := Step.perform_plan_ok hdone
    exact ⟨h.opened groups, .opened plan groups scene.ledger⟩
  | stage stage id =>
    obtain ⟨rfl, record, hrecord, hstage⟩ := Step.perform_stage_ok hdone
    have hcoherent := h.coherent id.index record (Ledger.record_eq_ok.1 hrecord)
    exact ⟨h.done hrecord hstage, hstage.grows hrecord hcoherent⟩

end Underway

/-- Steps that succeed keep an action `Underway`, and its ledger grows. -/
theorem Advances.underway [RandomSource ρ] {timing : Timing} {count : Nat}
    {first last : Progress ρ} (hadvances : Advances timing count first last) (h : Underway first) :
    Underway last ∧ first.scene.ledger.Grows last.scene.ledger := by
  induction hadvances with
  | refl progress => exact ⟨h, .refl _⟩
  | step done _ ih =>
    obtain ⟨hmid, hgrows⟩ := h.step done
    obtain ⟨hlast, hgrows'⟩ := ih hmid
    exact ⟨hlast, hgrows.trans hgrows'⟩

end Flak
