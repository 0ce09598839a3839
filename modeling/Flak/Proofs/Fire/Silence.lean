import Flak.Proofs.Fire.Quarry

namespace Flak

/-!
# Which groups roll

A group is formed even if it can hit nobody, and then it passes in silence: its stages succeed, and
nothing but its phase has changed. The first group of a plan that can hit somebody rolls, since the
groups before it have changed nothing.

* `StageDone.eq_of_done`, `Engine.rollDice_silent` — stages of a group that has nothing to do;
* `Advances.of_silent` — a silent group is passed;
* `CarriedOut`, `Advances.exists_carriedOut` — the plan that a group comes from, with the steps before
  and after it;
* `Proceeds.targets_of_dice` — whoever has rolled could hit somebody;
* `CarriedOut.exists_dice`, `Advances.find?_dice` — the first group that can hit somebody has rolled.
-/

variable {ρ : Type} {timing : Timing} {id : GroupId} {scene after : Scene ρ} {record : GroupRecord}

/-! ### Stages without work -/

/-- The `stage` of a group that is done changes nothing. -/
theorem StageDone.eq_of_done {stage : Stage} (h : StageDone id record scene stage after)
    (hdone : record.phase = .done) : after = scene := by
  cases h with
  | past => rfl
  | idle hphase => simp [hdone] at hphase
  | rolled hphase => simp [hdone] at hphase
  | selected hphase => simp [hdone] at hphase
  | finished hphase => simp [hdone] at hphase

section Stages

variable [RandomSource ρ]

/-- A roll at nobody, by `rollDice`, ends the group. -/
theorem Engine.rollDice_silent (hrecord : scene.ledger.record id = .ok record)
    (hphase : record.phase = .pendingRoll) (htargets : openTargets scene record.group = [])
    (h : (rollDice id).onScene scene = (.ok (), after)) :
    after = scene.updateRecord id fun record => { record with phase := .done } := by
  rw [rollDice_onScene hrecord hphase] at h
  cases hguns : gunsIn scene.host.board record.group.territory record.group.firingUnits with
  | error fault => simp [hguns] at h
  | ok guns =>
    simp only [hguns, htargets, List.isEmpty_nil, Bool.true_or, if_true] at h
    exact (Prod.mk.inj h).2.symm

/-- A roll by `rollDice` at somebody, of guns that are there, is recorded. -/
theorem Engine.exists_dice_of_rollDice {is : GroupRecord}
    (hrecord : scene.ledger.record id = .ok record) (hphase : record.phase = .pendingRoll)
    (htargets : openTargets scene record.group ≠ [])
    (hguns : ∀ guns, gunsIn scene.host.board record.group.territory record.group.firingUnits =
      .ok guns → guns ≠ [])
    (h : (rollDice id).onScene scene = (.ok (), after))
    (his : after.ledger.groups[id.index]? = some is) : is.dice.isSome := by
  rw [rollDice_onScene hrecord hphase] at h
  cases hfound : gunsIn scene.host.board record.group.territory record.group.firingUnits with
  | error fault => simp [hfound] at h
  | ok guns =>
    have hboth : ¬ ((openTargets scene record.group).isEmpty || guns.isEmpty) = true := by
      simp [htargets, hguns guns hfound]
    simp only [hfound, if_neg hboth] at h
    obtain ⟨-, rfl⟩ := Prod.mk.inj h
    rw [GroupRecord.eq_of_updated hrecord his]
    rfl

/-- The `stage` succeeds as a step if it succeeds. -/
theorem Step.perform_of_stage_ok {stage : Stage} {next : List Step}
    (h : (Step.perform timing (.stage stage id)).onScene scene = (.ok next, after)) :
    (stage.perform timing id).onScene scene = (.ok (), after) := by
  rw [perform_stage_onScene] at h
  obtain ⟨hresult, hafter⟩ := Prod.mk.inj h
  obtain ⟨_, hok, -⟩ := Fault.exists_of_map hresult
  exact Prod.ext hok hafter

end Stages

namespace Advances

variable [RandomSource ρ] {count : Nat} {rest : List Step} {first last : Progress ρ}

/-- Where nothing is left in the end, the next `step` has been done. -/
theorem uncons {step : Step} (hend : last.pending = [])
    (h : Advances timing count ⟨step :: rest, scene⟩ last) :
    ∃ fewer next mid, (step.perform timing).onScene scene = (.ok next, mid) ∧
      Advances timing fewer ⟨next ++ rest, mid⟩ last := by
  cases h with
  | refl => simp at hend
  | step done others => exact ⟨_, _, _, done, others⟩

/-- A `stage` that was done, and what was done after it. -/
theorem uncons_stage {stage : Stage} (hend : last.pending = [])
    (hrecord : scene.ledger.record id = .ok record)
    (h : Advances timing count ⟨.stage stage id :: rest, scene⟩ last) :
    ∃ fewer mid, (stage.perform timing id).onScene scene = (.ok (), mid) ∧
      StageDone id record scene stage mid ∧ Advances timing fewer ⟨rest, mid⟩ last := by
  obtain ⟨fewer, next, mid, hdone, hothers⟩ := h.uncons hend
  obtain ⟨rfl, record', hrecord', hstage⟩ := Step.perform_stage_ok hdone
  obtain rfl := Except.ok.inj (hrecord.symm.trans hrecord')
  exact ⟨fewer, mid, Step.perform_of_stage_ok hdone, hstage, hothers⟩

/-- A group without `openTargets` is passed, and nothing but its phase has changed. -/
theorem of_silent (hend : last.pending = []) (hrecord : scene.ledger.record id = .ok record)
    (hphase : record.phase = .pendingRoll)
    (htargets : Engine.openTargets scene record.group = [])
    (h : Advances timing count ⟨Step.allOf id ++ rest, scene⟩ last) :
    ∃ fewer, Advances timing fewer
      ⟨rest, scene.updateRecord id fun record => { record with phase := .done }⟩ last := by
  obtain ⟨_, mid, hroll, -, hselect⟩ := h.uncons_stage hend hrecord
  obtain rfl := Engine.rollDice_silent hrecord hphase htargets hroll
  have hdone : (scene.updateRecord id fun record => { record with phase := .done }).ledger.record
      id = .ok { record with phase := .done } := by
    rw [Ledger.record_eq_ok, Scene.updateRecord, Ledger.getElem?_updateRecord,
      Ledger.record_eq_ok.1 hrecord]
    simp
  obtain ⟨_, mid, -, hselected, hnotify⟩ := hselect.uncons_stage hend hdone
  obtain rfl := hselected.eq_of_done rfl
  obtain ⟨fewer, mid, -, hnotified, hothers⟩ := hnotify.uncons_stage hend hdone
  obtain rfl := hnotified.eq_of_done rfl
  exact ⟨fewer, hothers⟩

end Advances

/-! ### Plans on the way -/

/-- The steps from `first` to `last` have carried out the `plan` on this scene, with these groups,
    and the rest was left to do then. -/
structure CarriedOut [RandomSource ρ] (timing : Timing) (first last : Progress ρ) (plan : Plan)
    (scene : Scene ρ) (groups : List FiringGroup) (rest : List Step) : Prop where
  earlier : ∃ count, Advances timing count first ⟨.plan plan :: rest, scene⟩
  formed : plan.groupsOn scene = .ok groups
  later : ∃ count, Advances timing count
    ⟨((freshRecords scene.ledger.groups.length groups).map GroupRecord.id).flatMap Step.allOf ++
      rest, { scene with ledger := plan.opened groups scene.ledger }⟩ last

variable [RandomSource ρ] {first last : Progress ρ} {count : Nat}

/-- What a record holds stands from then on: what is there later `Follows` it. -/
theorem Advances.exists_follows {index : Nat} {was : GroupRecord}
    (h : Advances timing count first last) (hsound : was.Sound)
    (hwas : first.scene.ledger.groups[index]? = some was) :
    ∃ is, last.scene.ledger.groups[index]? = some is ∧ was.Follows is := by
  obtain ⟨is, his, -, hfollows⟩ := h.proceeds.follows hsound hwas
  exact ⟨is, his, hfollows⟩

namespace CarriedOut

variable {plan : Plan} {groups : List FiringGroup} {rest : List Step}

/-- What was `CarriedOut` after a step was so before it. -/
theorem step {step : Step} {next left : List Step} {mid : Scene ρ}
    (hdone : (step.perform timing).onScene scene = (.ok next, mid))
    {there : Scene ρ} (h : CarriedOut timing ⟨next ++ left, mid⟩ last plan there groups rest) :
    CarriedOut timing ⟨step :: left, scene⟩ last plan there groups rest := by
  obtain ⟨count, hearlier⟩ := h.earlier
  exact ⟨⟨count + 1, .step hdone hearlier⟩, h.formed, h.later⟩

/-- A `plan` that was `CarriedOut` was pending at `first`. -/
theorem plan_mem (h : CarriedOut timing first last plan scene groups rest) :
    .plan plan ∈ first.pending := by
  obtain ⟨count, hearlier⟩ := h.earlier
  have hproceeds : Proceeds Interlude Stays first count ⟨.plan plan :: rest, scene⟩ :=
    hearlier.proceeds
  exact hproceeds.mem_of_plan_mem List.mem_cons_self

/-- The `groups` of a plan that was `CarriedOut` stay where they were opened. -/
theorem exists_record (h : CarriedOut timing first last plan scene groups rest) {position : Nat}
    {group : FiringGroup} (hgroup : groups[position]? = some group) :
    ∃ is, last.scene.ledger.groups[scene.ledger.groups.length + position]? = some is ∧
      is.group = group := by
  obtain ⟨count, hlater⟩ := h.later
  have hfresh : (plan.opened groups scene.ledger).groups[scene.ledger.groups.length + position]? =
      some { id := ⟨scene.ledger.groups.length + position⟩, group } := by
    show (scene.ledger.groups ++ freshRecords scene.ledger.groups.length groups)[_]? = _
    rw [List.getElem?_append_right (Nat.le_add_right _ _), Nat.add_sub_cancel_left, freshRecords,
      List.getElem?_mapIdx, hgroup]
    rfl
  obtain ⟨is, his, hfollows⟩ := hlater.exists_follows (.fresh _ group) hfresh
  exact ⟨is, his, hfollows.group⟩

end CarriedOut

namespace Advances

/-- A group that is new comes from a `plan` that was `CarriedOut` on the way. -/
theorem exists_carriedOut {index : Nat} {is : GroupRecord}
    (h : Advances timing count first last) (hnew : first.scene.ledger.groups.length ≤ index)
    (his : last.scene.ledger.groups[index]? = some is) :
    ∃ plan scene groups rest, CarriedOut timing first last plan scene groups rest ∧
      scene.ledger.groups.length ≤ index ∧
      groups[index - scene.ledger.groups.length]? = some is.group := by
  induction h with
  | refl progress =>
    rw [List.getElem?_eq_none hnew] at his
    simp at his
  | @step count step left next scene mid last done others ih =>
    by_cases hlater : mid.ledger.groups.length ≤ index
    · obtain ⟨plan, there, groups, rest, hplan, hle, hgroup⟩ := ih hlater his
      exact ⟨plan, there, groups, rest, hplan.step done, hle, hgroup⟩
    · -- The group was opened in this very step, which is a plan therefore.
      cases step with
      | stage stage id =>
        obtain ⟨-, record, -, hstage⟩ := Step.perform_stage_ok done
        exact absurd (hstage.length ▸ hnew) hlater
      | plan plan =>
        obtain ⟨groups, hgroups, rfl, rfl⟩ := Step.perform_plan_ok done
        have hplan : CarriedOut timing ⟨.plan plan :: left, scene⟩ last plan scene groups left :=
          ⟨⟨0, .refl _⟩, hgroups, ⟨count, others⟩⟩
        have hlt : index - scene.ledger.groups.length < groups.length := by
          have hlength := plan.length_opened groups scene.ledger
          have hnew' : scene.ledger.groups.length ≤ index := hnew
          have hopened : ¬ (plan.opened groups scene.ledger).groups.length ≤ index := hlater
          omega
        obtain ⟨is', his', hgroup⟩ := hplan.exists_record (List.getElem?_eq_getElem hlt)
        rw [Nat.add_sub_cancel' hnew] at his'
        obtain rfl := Option.some.inj (his'.symm.trans his)
        refine ⟨plan, scene, groups, left, hplan, hnew, ?_⟩
        rw [hgroup]
        exact List.getElem?_eq_getElem hlt

end Advances

/-! ### Who has rolled could hit somebody -/

/-- A roll that is new was made at somebody: where there are `dice`, the group has targets. -/
theorem Progress.targets_of_dice {index : Nat} {was is : GroupRecord} {step : Step}
    {rest : List Step} (hwas : scene.ledger.groups[index]? = some was) (hnone : was.dice = none)
    (his : (attempt timing ⟨step :: rest, scene⟩).scene.ledger.groups[index]? = some is)
    (hdice : is.dice.isSome) : was.group.targets ≠ [] := by
  intro htargets
  have hopen : Engine.openTargets scene was.group = [] := by
    rw [Engine.openTargets, htargets, List.filter_nil]
  obtain ⟨is', his', hchange⟩ := attempt_record hwas timing step rest
  obtain rfl := Option.some.inj (his'.symm.trans his)
  have hkept : ¬ was.dice.isSome := by simp [hnone]
  cases hchange with
  | kept => exact hkept hdice
  | idle => exact hkept hdice
  | selected => exact hkept hdice
  | notified => exact hkept hdice
  | @rolled hstep hphase shooters roll =>
    subst hstep
    have hrecord : scene.ledger.record ⟨index⟩ = .ok was := Ledger.record_eq_ok.2 hwas
    rcases hresult : (Step.perform timing (.stage .roll ⟨index⟩)).onScene scene with
      ⟨fault | next, after⟩
    · -- A step that fails leaves the phase alone.
      rw [attempt_error hresult] at his
      obtain ⟨-, -, -, hsame | ⟨-, hselected, -⟩⟩ :=
        (Step.uncommitted_of_error hresult).groups index was _ hwas his
      · simp [hphase] at hsame
      · simp [hphase] at hselected
    · rw [attempt_ok hresult] at his
      have hsilent := Engine.rollDice_silent hrecord hphase hopen
        (Step.perform_of_stage_ok hresult)
      subst hsilent
      have heq := GroupRecord.eq_of_updated hrecord his
      simp [hnone] at heq

/-- However an action `Proceeds`, whoever has rolled could hit somebody. -/
theorem Proceeds.targets_of_dice {Turns : List Step → List Step → Prop}
    (hstart : first.scene.ledger.groups = []) (h : Proceeds Interlude Turns first count last)
    {record : GroupRecord} (hrecord : record ∈ last.scene.ledger.groups)
    (hdice : record.dice.isSome) : record.group.targets ≠ [] := by
  obtain ⟨index, hindex⟩ := List.mem_iff_getElem?.1 hrecord
  refine @preserves ρ _ Interlude Turns first last count (fun progress =>
    ∀ (index : Nat) (record : GroupRecord), progress.scene.ledger.groups[index]? = some record →
      record.dice.isSome → record.group.targets ≠ []) ?_ ?_ ?_ ?_ h index record hindex hdice
  · simp [hstart]
  · intro timing step rest scene htargets index is his hdice
    -- Dice that are there were rolled in this attempt or before it.
    rcases Progress.record_of_attempt his with ⟨-, hfresh⟩ | ⟨was, hwas, hchange⟩
    · rw [hfresh] at hdice
      simp at hdice
    · rw [hchange.group]
      cases hbefore : was.dice with
      | none => exact Progress.targets_of_dice hwas hbefore his hdice
      | some dice => exact htargets index was hwas (by simp [hbefore])
  · intro pending before after hpause htargets
    rw [hpause.groups]
    exact htargets
  · exact fun left next scene _ htargets => htargets

/-! ### The first group that can hit somebody -/

/-- The stages of the first of some groups come first. -/
theorem stages_cons (first : Nat) (group : FiringGroup) (more : List FiringGroup)
    (rest : List Step) :
    ((freshRecords first (group :: more)).map GroupRecord.id).flatMap Step.allOf ++ rest =
      Step.allOf ⟨first⟩ ++
        (((freshRecords (first + 1) more).map GroupRecord.id).flatMap Step.allOf ++ rest) := by
  rw [freshRecords_cons, List.map_cons, List.flatMap_cons, List.append_assoc]

/-- Among groups that are gone through, the first that can hit somebody rolls, so that it has
    `dice`. -/
theorem Advances.exists_dice {silent more : List FiringGroup} {group : FiringGroup}
    {rest : List Step} {first : Nat} (hend : last.pending = [])
    (hfresh : ∀ (position : Nat) (other : FiringGroup),
      (silent ++ group :: more)[position]? = some other →
        scene.ledger.groups[first + position]? = some { id := ⟨first + position⟩, group := other })
    (hsilent : ∀ other ∈ silent, other.targets = [])
    (htargets : Engine.openTargets scene group ≠ [])
    (hguns : ∀ guns, Engine.gunsIn scene.host.board group.territory group.firingUnits = .ok guns →
      guns ≠ [])
    (h : Advances timing count ⟨((freshRecords first (silent ++ group :: more)).map
      GroupRecord.id).flatMap Step.allOf ++ rest, scene⟩ last) :
    ∃ is, last.scene.ledger.groups[first + silent.length]? = some is ∧ is.group = group ∧
      is.dice.isSome := by
  induction silent generalizing scene first count with
  | nil =>
    have hwas : scene.ledger.groups[first]? = some { id := ⟨first⟩, group } := hfresh 0 group rfl
    rw [List.nil_append, stages_cons] at h
    obtain ⟨_, next, mid, hdone, hothers⟩ := h.uncons hend
    obtain ⟨is, his, hchange⟩ := Progress.attempt_record hwas timing (.stage .roll ⟨first⟩) []
    rw [Progress.attempt_ok hdone] at his
    have hdice := Engine.exists_dice_of_rollDice (Ledger.record_eq_ok.2 hwas) rfl htargets hguns
      (Step.perform_of_stage_ok hdone) his
    obtain ⟨dice, hdice⟩ := Option.isSome_iff_exists.1 hdice
    -- The roll stands from then on.
    obtain ⟨later, hlater, hfollows⟩ := hothers.exists_follows
      (hchange.sound (.fresh ⟨first⟩ group)) his
    refine ⟨later, hlater, ?_, ?_⟩
    · rw [hfollows.group, hchange.group]
    · rw [(hfollows.roll dice hdice).1]
      rfl
  | cons quiet silent ih =>
    obtain ⟨hquiet, hothers⟩ := List.forall_mem_cons.1 hsilent
    have hwas : scene.ledger.groups[first]? = some { id := ⟨first⟩, group := quiet } :=
      hfresh 0 quiet rfl
    have hopen : Engine.openTargets scene quiet = [] := by
      rw [Engine.openTargets, hquiet, List.filter_nil]
    rw [List.cons_append, stages_cons] at h
    obtain ⟨_, hpassed⟩ := Advances.of_silent hend (Ledger.record_eq_ok.2 hwas) rfl hopen h
    have hmore := @ih (scene.updateRecord ⟨first⟩ fun record => { record with phase := .done }) _
      (first + 1) ?_ hothers htargets hguns hpassed
    · rw [List.length_cons, Nat.add_comm silent.length, ← Nat.add_assoc]
      exact hmore
    · -- The groups after the silent one are as fresh as before.
      intro position other hother
      have hnext := hfresh (position + 1) other hother
      have hindex : first + 1 + position = first + (position + 1) := by omega
      have hne : first + (position + 1) ≠ first := by omega
      rw [Scene.updateRecord, Ledger.getElem?_updateRecord, hindex, hnext, Option.map_some,
        if_neg hne]

/-- Right after a plan for a territory was `CarriedOut`, its first group that can hit somebody
    rolls. -/
theorem CarriedOut.exists_dice {name : String} {targets : List UnitId}
    {silent more : List FiringGroup} {group : FiringGroup} {rest : List Step}
    (h : CarriedOut timing first last (.overflight name targets) scene (silent ++ group :: more)
      rest) (hend : last.pending = []) (hsilent : ∀ other ∈ silent, other.targets = [])
    (htargets : group.targets ≠ []) :
    ∃ is, last.scene.ledger.groups[scene.ledger.groups.length + silent.length]? = some is ∧
      is.group = group ∧ is.dice.isSome := by
  obtain ⟨count, hlater⟩ := h.later
  have hgroup : group ∈ silent ++ group :: more := List.mem_append_right _ List.mem_cons_self
  obtain ⟨gun, hgun, hstands, hability⟩ := Plan.exists_standing_gun h.formed hgroup
  refine Advances.exists_dice hend ?_ hsilent ?_ ?_ hlater
  · intro position other hother
    show (scene.ledger.groups ++ freshRecords scene.ledger.groups.length _)[_]? = _
    rw [List.getElem?_append_right (Nat.le_add_right _ _), Nat.add_sub_cancel_left, freshRecords,
      List.getElem?_mapIdx, hother]
    rfl
  · -- Planning changes neither the board nor the casualties.
    show Engine.openTargets scene group ≠ []
    rw [Plan.openTargets_of_groupsOn h.formed hgroup]
    exact htargets
  · exact fun guns hfound => Engine.gunsIn_ne_nil hfound hgun hstands hability

/-- What is at an `index` has that many others in front of it. -/
theorem exists_append_of_getElem? {α : Type} {entries : List α} {index : Nat} {entry : α}
    (h : entries[index]? = some entry) :
    ∃ front back, entries = front ++ entry :: back ∧ front.length = index := by
  obtain ⟨hlt, rfl⟩ := List.getElem?_eq_some_iff.1 h
  refine ⟨entries.take index, entries.drop (index + 1), by simp, ?_⟩
  rw [List.length_take]
  omega

/-- When nothing is left to do of a move, the first group that could hit somebody is the first that
    has `dice`. -/
theorem Advances.find?_dice (hgroups : first.scene.ledger.groups = [])
    (hplans : ∀ plan, .plan plan ∈ first.pending → ∃ name targets, plan = .overflight name targets)
    (hend : last.pending = []) (h : Advances timing count first last) :
    last.scene.ledger.groups.find? (fun record => record.dice.isSome) =
      last.scene.ledger.groups.find? fun record => !record.group.targets.isEmpty := by
  have hproceeds : Proceeds Interlude Stays first count last := h.proceeds
  cases hfirst : last.scene.ledger.groups.find? fun record => !record.group.targets.isEmpty with
  | none =>
    rw [List.find?_eq_none] at hfirst ⊢
    intro record hrecord hdice
    have htargets := hproceeds.targets_of_dice hgroups hrecord hdice
    exact hfirst record hrecord (by simpa using htargets)
  | some record =>
    obtain ⟨htargets, front, back, hsplit, hfront⟩ := List.find?_eq_some_iff_append.1 hfirst
    have hindex : last.scene.ledger.groups[front.length]? = some record := by
      rw [hsplit, List.getElem?_append_right (Nat.le_refl _), Nat.sub_self]
      rfl
    obtain ⟨plan, scene, groups, rest, hcarried, hle, hgroup⟩ :=
      h.exists_carriedOut (by rw [hgroups]; exact Nat.zero_le _) hindex
    obtain ⟨silent, more, rfl, hlength⟩ := exists_append_of_getElem? hgroup
    -- The groups of the plan before it stand before it in the ledger, and could hit nobody.
    have hsilent : ∀ other ∈ silent, other.targets = [] := by
      intro other hother
      obtain ⟨position, hposition⟩ := List.mem_iff_getElem?.1 hother
      have hlt : position < silent.length := (List.getElem?_eq_some_iff.1 hposition).1
      obtain ⟨is, his, hsame⟩ := hcarried.exists_record
        ((List.getElem?_append_left hlt).trans hposition)
      have hbefore : scene.ledger.groups.length + position < front.length := by omega
      rw [hsplit, List.getElem?_append_left hbefore] at his
      have hnobody := hfront is (List.mem_of_getElem? his)
      rw [hsame] at hnobody
      simpa using hnobody
    obtain ⟨name, targets, rfl⟩ := hplans plan hcarried.plan_mem
    obtain ⟨is, his, -, hdice⟩ := hcarried.exists_dice hend hsilent (by simpa using htargets)
    rw [hlength, Nat.add_sub_cancel' hle, hindex] at his
    obtain rfl := Option.some.inj his
    refine List.find?_eq_some_iff_append.2 ⟨hdice, front, back, hsplit, fun other hother => ?_⟩
    have hmem : other ∈ last.scene.ledger.groups := hsplit ▸ List.mem_append_left _ hother
    cases hother' : other.dice with
    | none => rfl
    | some dice =>
      have hsomebody := hproceeds.targets_of_dice hgroups hmem (by simp [hother'])
      exact absurd (hfront other hother) (by simpa using hsomebody)

end Flak
