import Flak.Proofs.Fire.Failure

namespace Flak

/-!
# What a step that succeeds has done

* `StageDone` — all that a stage of a group can have done, one constructor for each way to succeed.
* `Step.perform_plan_ok`, `Step.perform_stage_ok` — a plan that succeeds has opened groups, and a
  stage that succeeds is done.
* `Attempted`, `Progress.attempted` — what an attempt at a step can leave behind.
* `Steady`, `Progress.attempt_steady` — what no attempt at a step changes.
-/

variable {ρ : Type} {timing : Timing} {id : GroupId} {record : GroupRecord}
  {scene mid after : Scene ρ}

/-- What a stage of the group `id` with this `record` can have done to a scene. -/
inductive StageDone (id : GroupId) (record : GroupRecord) (scene : Scene ρ) :
    Stage → Scene ρ → Prop
  /-- The group was past it. -/
  | past (stage : Stage) (hroll : stage = .roll → record.phase ≠ .pendingRoll)
      (hselect : stage = .select → record.phase ≠ .pendingRoll ∧ record.phase ≠ .rolled)
      (hnotify : stage = .notify → record.phase = .done) :
      StageDone id record scene stage scene
  /-- Nobody could fire, or at nothing. -/
  | idle (hphase : record.phase = .pendingRoll) :
      StageDone id record scene .roll
        (scene.updateRecord id fun record => { record with phase := .done })
  | rolled (hphase : record.phase = .pendingRoll) (dice : ρ) {shooters : List UnitId} {roll : Roll}
      (hshooters : shooters.Sublist record.group.firingUnits)
      (hstand : ∀ unit ∈ shooters, scene.host.board.standsIn unit record.group.territory)
      (hhits : roll.hits ≤ (Engine.openTargets scene record.group).length) :
      StageDone id record scene .roll
        ((scene.setDice dice).updateRecord id fun r => { r with
          activeFiring := shooters
          validTargets := Engine.openTargets scene record.group
          dice := some roll
          phase := .rolled })
  /-- Letters may have gone out before. -/
  | selected (hphase : record.phase = .rolled) {targets : List Target} {dice : ρ} {mid : Scene ρ}
      {losses : Losses} (htargets : scene.host.board.targets record.validTargets = .ok targets)
      (hletters : Consulted id (scene.setDice dice) mid)
      (hcheck : losses.check targets (record.dice.getD {}).hits = .ok ()) :
      StageDone id record scene .select
        (mid.commit id record.group (record.dice.getD {}).hits losses)
  | finished (hphase : record.phase = .casualtiesSelected ∨ record.phase = .confirmed)
      {mid : Scene ρ} (hletters : Consulted id scene mid) :
      StageDone id record scene .notify
        ((mid.setBoard (scene.host.board.cleared record (record.losses.getD {}))).updateRecord id
          fun record => { record with phase := .done })

/-- No `stage` enters a group: there are as many as before. -/
theorem StageDone.length {stage : Stage} (h : StageDone id record scene stage after) :
    after.ledger.groups.length = scene.ledger.groups.length := by
  cases h with
  | past => rfl
  | idle => exact Ledger.length_updateRecord _ _ _
  | rolled => exact Ledger.length_updateRecord _ _ _
  | selected _ _ hletters _ =>
    exact (Ledger.length_updateRecord _ _ _).trans hletters.length_groups
  | finished _ hletters =>
    exact (Ledger.length_updateRecord _ _ _).trans hletters.length_groups

/-! ### Stages -/

namespace Engine

/-- A `finish` that succeeds has cleared the board and made the group done. -/
theorem finish_eq_ok {losses : Losses}
    (h : (finish id record losses).onScene scene = (.ok (), after)) :
    after = (scene.setBoard (scene.host.board.cleared record losses)).updateRecord id
      fun record => { record with phase := .done } := by
  rcases finish_onScene id record losses scene with ⟨-, heq⟩ | ⟨-, heq⟩
  · rw [heq] at h
    exact (Prod.mk.inj h).2.symm
  · rw [heq] at h
    simp at h

/-- A roll by `rollDice` that succeeds is `StageDone`. -/
theorem rollDice_done [RandomSource ρ] (hrecord : scene.ledger.record id = .ok record)
    (h : (rollDice id).onScene scene = (.ok (), after)) :
    StageDone id record scene .roll after := by
  by_cases hphase : record.phase = .pendingRoll
  · rw [rollDice_onScene hrecord hphase] at h
    cases hguns : gunsIn scene.host.board record.group.territory record.group.firingUnits with
    | error fault => simp [hguns] at h
    | ok guns =>
      rw [hguns] at h
      dsimp only at h
      -- A group with no target or no gun has nothing to roll for and is done.
      split at h
      · obtain ⟨-, rfl⟩ := Prod.mk.inj h
        exact .idle hphase
      · obtain ⟨-, rfl⟩ := Prod.mk.inj h
        obtain ⟨hsublist, hstand⟩ := gunsIn_eq_ok hguns
        have hunits : (guns.map fun gun => Shooter.ofAbility gun.1 gun.2).map Shooter.unit =
            guns.map Prod.fst := List.map_map
        refine .rolled hphase _ ?_ ?_ (hits_fire_le _ _ _ _ _ _)
        · rw [hunits]
          exact hsublist
        · rw [hunits]
          exact hstand
  · rw [rollDice_onScene_past hrecord hphase] at h
    obtain ⟨-, rfl⟩ := Prod.mk.inj h
    exact .past _ (fun _ => hphase) (by simp) (by simp)

/-- A selection by `selectCasualties` that succeeds is `StageDone`. -/
theorem selectCasualties_done [RandomSource ρ] (hrecord : scene.ledger.record id = .ok record)
    (h : (selectCasualties timing id).onScene scene = (.ok (), after)) :
    StageDone id record scene .select after := by
  by_cases hphase : record.phase = .rolled
  · rcases selectCasualties_cases timing hrecord hphase with
      ⟨fault, _, _, heq, -⟩ | ⟨targets, losses, mid, dice, htargets, hletters, hcheck, heq⟩
    · rw [heq] at h
      simp at h
    · rw [heq] at h
      obtain ⟨-, rfl⟩ := Prod.mk.inj h
      exact .selected hphase htargets hletters hcheck
  · rw [selectCasualties_onScene_not_due timing hrecord hphase] at h
    obtain ⟨hresult, rfl⟩ := Prod.mk.inj h
    refine .past _ (by simp) (fun _ => ⟨fun hpending => ?_, hphase⟩) (by simp)
    -- Before its roll a group has no losses to select, and that is a fault.
    simp [due, hpending, Phase.rank, Except.map] at hresult

/-- A notice by `notifyCasualties` that succeeds is `StageDone`. -/
theorem notifyCasualties_done (hrecord : scene.ledger.record id = .ok record)
    (h : (notifyCasualties id).onScene scene = (.ok (), after)) :
    StageDone id record scene .notify after := by
  by_cases hselected : record.phase = .casualtiesSelected
  · rw [notifyCasualties_onScene hrecord hselected] at h
    obtain ⟨result, mid, hletters, hconfirm⟩ :=
      confirm_cases id record (record.losses.getD {}) scene
    cases result with
    | error fault =>
      rw [onScene_bind_error hconfirm] at h
      simp at h
    | ok _ =>
      rw [onScene_bind_ok hconfirm] at h
      have hboard : mid.host.board = scene.host.board := hletters.board
      have hafter := finish_eq_ok h
      -- The phase in between is written over.
      have hphases : Ledger.updateRecord id (fun record => { record with phase := .done })
          (mid.ledger.updateRecord id fun record => { record with phase := .confirmed }) =
            mid.ledger.updateRecord id fun record => { record with phase := .done } :=
        Ledger.updateRecord_updateRecord _ _ _ _
      simp only [Scene.updateRecord, Scene.setBoard, hphases, hboard] at hafter
      subst hafter
      exact .finished (.inl hselected) hletters
  · by_cases hconfirmed : record.phase = .confirmed
    · rw [notifyCasualties_onScene_confirmed hrecord hconfirmed] at h
      rw [finish_eq_ok h]
      exact .finished (.inr hconfirmed) (.refl id scene)
    · rw [notifyCasualties_onScene_not_due hrecord hselected hconfirmed] at h
      obtain ⟨hresult, rfl⟩ := Prod.mk.inj h
      refine .past _ (by simp) (by simp) fun _ => ?_
      -- Before its selection a group has no losses to confirm, and that is a fault.
      cases hphase : record.phase with
      | pendingRoll => simp [due, hphase, Phase.rank, Except.map] at hresult
      | rolled => simp [due, hphase, Phase.rank, Except.map] at hresult
      | casualtiesSelected => exact absurd hphase hselected
      | confirmed => exact absurd hphase hconfirmed
      | done => rfl

end Engine

/-! ### What no stage changes -/

/-- Two scenes, `before` and `after`, with the same rules and the same action. -/
structure Steady (before after : Scene ρ) : Prop where
  rules : after.host.board.rules = before.host.board.rules
  battle : after.ledger.battle = before.ledger.battle
  player : after.ledger.player = before.ledger.player
  headless : after.ledger.headless = before.ledger.headless
  targets : after.ledger.targets = before.ledger.targets

namespace Steady

/-- A scene is `Steady` where nothing happens. -/
theorem refl (scene : Scene ρ) : Steady scene scene := ⟨rfl, rfl, rfl, rfl, rfl⟩

/-- What is `Steady` first and then is steady altogether. -/
theorem trans {first second third : Scene ρ} (h : Steady first second) (h' : Steady second third) :
    Steady first third where
  rules := h'.rules.trans h.rules
  battle := h'.battle.trans h.battle
  player := h'.player.trans h.player
  headless := h'.headless.trans h.headless
  targets := h'.targets.trans h.targets

/-- Letters are `Steady`, and so is a roll before them. -/
theorem of_exchanged {dice : ρ} (h : Exchanged id (scene.setDice dice) mid) : Steady scene mid := by
  obtain ⟨told, parked, hledger⟩ := h.ledger
  have hboard : mid.host.board = scene.host.board := h.board
  exact ⟨by rw [hboard], by rw [hledger]; rfl, by rw [hledger]; rfl, by rw [hledger]; rfl,
    by rw [hledger]; rfl⟩

/-- A `stage` that is done is `Steady`. -/
theorem of_done {stage : Stage} (h : StageDone id record scene stage after) :
    Steady scene after := by
  cases h with
  | past => exact .refl scene
  | idle => exact ⟨rfl, rfl, rfl, rfl, rfl⟩
  | rolled => exact ⟨rfl, rfl, rfl, rfl, rfl⟩
  | selected _ _ hletters _ =>
    -- Damage is marked on the units of the board only.
    refine (of_exchanged hletters.toExchanged).trans ⟨?_, rfl, rfl, rfl, rfl⟩
    show (Scene.commitHost _ _ _ _).board.rules = _
    rw [Scene.commitHost_board, Board.markDamaged_rules]
  | @finished _ mid hletters =>
    have hdice : Exchanged id (scene.setDice scene.host.dice) mid := hletters.toExchanged
    have hboard : mid.host.board = scene.host.board := hletters.board
    refine (of_exchanged hdice).trans ⟨?_, rfl, rfl, rfl, rfl⟩
    show (scene.host.board.cleared record _).rules = mid.host.board.rules
    rw [Board.cleared_rules, hboard]

end Steady

/-! ### Steps -/

variable [RandomSource ρ]

/-- A `plan` that is carried out has opened its groups, and their stages are to be done `next`. -/
theorem Step.perform_plan_ok {plan : Plan} {next : List Step}
    (h : (Step.perform timing (.plan plan)).onScene scene = (.ok next, after)) :
    ∃ groups, plan.groupsOn scene = .ok groups ∧
      next = ((freshRecords scene.ledger.groups.length groups).map GroupRecord.id).flatMap allOf ∧
      after = { scene with ledger := plan.opened groups scene.ledger } := by
  rw [perform_plan_onScene, Plan.carryOut_onScene] at h
  cases hgroups : plan.groupsOn scene with
  | error fault =>
    rw [hgroups] at h
    simp [Except.map] at h
  | ok groups =>
    rw [hgroups] at h
    obtain ⟨hnext, rfl⟩ := Prod.mk.inj h
    exact ⟨groups, rfl, (Except.ok.inj hnext).symm, rfl⟩

/-- A `stage` that succeeds is done, and nothing is to be done `next` because of it. -/
theorem Step.perform_stage_ok {stage : Stage} {next : List Step}
    (h : (Step.perform timing (.stage stage id)).onScene scene = (.ok next, after)) :
    next = [] ∧ ∃ record, scene.ledger.record id = .ok record ∧
      StageDone id record scene stage after := by
  rw [perform_stage_onScene] at h
  obtain ⟨hresult, hafter⟩ := Prod.mk.inj h
  obtain ⟨_, hok, hnext⟩ := Fault.exists_of_map hresult
  have hstage : (stage.perform timing id).onScene scene = (.ok (), after) := Prod.ext hok hafter
  refine ⟨hnext.symm, ?_⟩
  cases hrecord : scene.ledger.record id with
  | error fault =>
    rw [Engine.perform_of_no_record stage hrecord] at hstage
    simp at hstage
  | ok record =>
    refine ⟨record, rfl, ?_⟩
    cases stage with
    | roll => exact Engine.rollDice_done hrecord hstage
    | select => exact Engine.selectCasualties_done hrecord hstage
    | notify => exact Engine.notifyCasualties_done hrecord hstage

/-- What an attempt at a `step` can leave behind, and how much of it is left to do. -/
inductive Attempted (scene : Scene ρ) (rest : List Step) : Step → Progress ρ → Prop
  /-- The step is to be done again. -/
  | failed {step : Step} {fault : Fault} {after : Scene ρ}
      (hkept : Uncommitted step fault scene after) : Attempted scene rest step ⟨step :: rest, after⟩
  /-- The stages of the groups are to be done first. -/
  | planned {plan : Plan} {groups : List FiringGroup} (hgroups : plan.groupsOn scene = .ok groups) :
      Attempted scene rest (.plan plan)
        ⟨((freshRecords scene.ledger.groups.length groups).map GroupRecord.id).flatMap Step.allOf ++
          rest, { scene with ledger := plan.opened groups scene.ledger }⟩
  | staged {stage : Stage} {id : GroupId} {record : GroupRecord} {after : Scene ρ}
      (hrecord : scene.ledger.record id = .ok record)
      (hdone : StageDone id record scene stage after) :
      Attempted scene rest (.stage stage id) ⟨rest, after⟩

/-- An `attempt` leaves behind what `Attempted` says. -/
theorem Progress.attempted (timing : Timing) (step : Step) (rest : List Step) (scene : Scene ρ) :
    Attempted scene rest step (attempt timing ⟨step :: rest, scene⟩) := by
  rcases hresult : (step.perform timing).onScene scene with ⟨fault | next, after⟩
  · rw [attempt_error hresult]
    exact .failed (Step.uncommitted_of_error hresult)
  · rw [attempt_ok hresult]
    cases step with
    | plan plan =>
      obtain ⟨groups, hgroups, rfl, rfl⟩ := Step.perform_plan_ok hresult
      exact .planned hgroups
    | stage stage id =>
      obtain ⟨rfl, record, hrecord, hdone⟩ := Step.perform_stage_ok hresult
      exact .staged hrecord hdone

/-- No `attempt` at a step changes the rules or what action this is: it is `Steady`. -/
theorem Progress.attempt_steady (timing : Timing) (step : Step) (rest : List Step)
    (scene : Scene ρ) : Steady scene (attempt timing ⟨step :: rest, scene⟩).scene := by
  have hattempted := attempted timing step rest scene
  generalize attempt timing ⟨step :: rest, scene⟩ = progress at hattempted ⊢
  cases hattempted with
  | failed hkept =>
    have hledger := hkept.ledger
    exact ⟨by rw [hkept.board], by rw [hledger], by rw [hledger], by rw [hledger], by rw [hledger]⟩
  | planned => exact ⟨rfl, rfl, rfl, rfl, rfl⟩
  | staged _ hdone => exact .of_done hdone

end Flak
