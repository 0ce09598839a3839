import Flak.Proofs.Engine.Resolve
import Flak.Proofs.Fire.Advance
import Flak.Proofs.Fire.Planning

namespace Flak

/-!
# Remote players do not decide what happens

An action with remote players does what it does without them, as long as no choice of theirs is
taken over:

* `Scene.unattended` — what is left of a scene when nobody takes part;
* `Step.TakesChoice` — the step takes over a choice of the player who is hit;
* `Step.perform_unattended` — any other step fails without a trace in what is left, or it does there
  what it does with everybody taking part;
* `Progress.attempt_unattended` — so does an attempt at it.
-/

variable {ρ : Type} {timing : Timing} {id : GroupId} {record : GroupRecord} {scene mid : Scene ρ}

/-! ### Without remote players -/

/-- The `record` as if its firing player was not told. -/
def GroupRecord.untold (record : GroupRecord) : GroupRecord :=
  { record with enemyNotified := false }

/-- The `ledger` as that of an action that asks nobody. -/
def Ledger.unattended (ledger : Ledger) : Ledger :=
  { ledger with headless := true, groups := ledger.groups.map GroupRecord.untold, parked := ∅ }

/-- A `host` without remote players. -/
def Host.unattended (host : Host ρ) : Host ρ where
  board := host.board
  player := host.player
  headless := true
  dice := host.dice
  history := host.history

/-- What is left of the `scene` when nobody takes part. -/
def Scene.unattended (scene : Scene ρ) : Scene ρ := ⟨scene.host.unattended, scene.ledger.unattended⟩

/-- What is left of an action that has come as far as `progress` when nobody takes part. -/
def Progress.unattended (progress : Progress ρ) : Progress ρ :=
  ⟨progress.pending, progress.scene.unattended⟩

/-- Whether the `step` takes over a choice: it is the selection of a group with hits, the game lets
    players choose, the question goes out, and the answer is accepted. -/
def Step.TakesChoice [RandomSource ρ] (timing : Timing) (step : Step) (scene : Scene ρ) : Prop :=
  ∃ id record targets choice after,
    let roll := record.dice.getD {}
    let proposal := scene.proposal record targets roll.hits
    step = .stage .select id ∧ scene.ledger.record id = .ok record ∧ record.phase = .rolled ∧
      scene.host.board.targets record.validTargets = .ok targets ∧ roll.hits ≠ 0 ∧
      proposal.1.check targets roll.hits = .ok () ∧
      (scene.host.board.rules.casualtyMode = .interactive ∧ !scene.ledger.headless) ∧
      (Engine.askForLosses timing id record.group.hitPlayer
        (Engine.requestOf scene.ledger record.group roll targets proposal.1)).onScene
          (scene.setDice proposal.2) = (.ok (some choice), after) ∧
      choice.check targets roll.hits = .ok ()

/-! ### What is left after a change -/

/-- The record of a group in the `unattended` ledger is that of the ledger, `untold`. -/
theorem Ledger.record_unattended (ledger : Ledger) (id : GroupId) :
    ledger.unattended.record id = (ledger.record id).map GroupRecord.untold := by
  simp only [record, unattended, List.getElem?_map]
  cases ledger.groups[id.index]? <;> rfl

/-- A `change` of the record that shows in what is `left` of it shows in what is left of all. -/
theorem map_untold_modify {change left : GroupRecord → GroupRecord}
    (hleft : ∀ record, (change record).untold = left record.untold) (index : Nat)
    (groups : List GroupRecord) :
    (groups.modify index change).map GroupRecord.untold =
      (groups.map GroupRecord.untold).modify index left := by
  apply List.ext_getElem?
  intro position
  simp only [List.getElem?_map, List.getElem?_modify]
  by_cases hindex : index = position
  · cases groups[position]? <;> simp [hindex, hleft]
  · cases groups[position]? <;> simp [hindex]

namespace Scene

/-- A `change` of a record that `untold` does not hide is made in what is left as well. -/
theorem unattended_updateRecord {change : GroupRecord → GroupRecord}
    (hchange : ∀ record, (change record).untold = change record.untold) (id : GroupId)
    (scene : Scene ρ) :
    (scene.updateRecord id change).unattended = scene.unattended.updateRecord id change := by
  simp only [updateRecord, unattended, Ledger.unattended, Ledger.updateRecord,
    map_untold_modify hchange]

/-- A `report` leaves nothing behind in the `unattended` host. -/
theorem unattended_report (player : PlayerId) (message title : String) (host : Host ρ) :
    (host.report player message title).unattended = host.unattended := by
  rw [Host.report]
  split <;> rfl

/-- There is nobody to `report` to on the `unattended` host. -/
theorem report_unattended (player : PlayerId) (message title : String) (host : Host ρ) :
    host.unattended.report player message title = host.unattended := by
  have hnobody : host.unattended.remotes[player]? = none := by simp [Host.unattended]
  rw [Host.report, hnobody]

/-- What `commitHost` makes of the host it makes of what is left of it. -/
theorem unattended_commitHost (group : FiringGroup) (hits : Nat) (losses : Losses)
    (scene : Scene ρ) :
    (scene.commitHost group hits losses).unattended =
      scene.unattended.commitHost group hits losses := by
  -- The report goes to the correspondence, of which nothing is left.
  have hreport := unattended_report scene.ledger.player (Engine.hitReport group hits losses)
    group.kind scene.host
  unfold commitHost
  show _ = if losses.killed.isEmpty then _ else _
  generalize scene.host.report scene.ledger.player (Engine.hitReport group hits losses)
    group.kind = reported at hreport
  obtain ⟨hboard, hplayer, hdice, hhistory⟩ : reported.board = scene.host.board ∧
      reported.player = scene.host.player ∧ reported.dice = scene.host.dice ∧
        reported.history = scene.host.history := by
    simpa [Host.unattended] using hreport
  have hnobody : scene.unattended.host.report scene.unattended.ledger.player
      (Engine.hitReport group hits losses) group.kind = scene.host.unattended :=
    report_unattended _ _ _ _
  rw [hnobody]
  cases losses.killed.isEmpty <;>
    simp [Host.unattended, Host.addHistory, hboard, hplayer, hdice, hhistory]

/-- What `commit` makes of the scene it makes of what is left of it. -/
theorem unattended_commit (id : GroupId) (group : FiringGroup) (hits : Nat) (losses : Losses)
    (scene : Scene ρ) :
    (scene.commit id group hits losses).unattended =
      scene.unattended.commit id group hits losses := by
  let select (record : GroupRecord) : GroupRecord :=
    { record with losses := some losses, phase := .casualtiesSelected }
  have hselect (record : GroupRecord) : (select record).untold = select record.untold := rfl
  have hledger : ((scene.ledger.recordKilled losses.killed).updateRecord id select).unattended =
      (scene.ledger.unattended.recordKilled losses.killed).updateRecord id select := by
    simp only [Ledger.unattended, Ledger.updateRecord, Ledger.recordKilled,
      map_untold_modify hselect]
  exact congrArg₂ Scene.mk (unattended_commitHost group hits losses scene) hledger

end Scene

/-- Letters leave nothing behind: scenes that have `Exchanged` letters have the same left. -/
theorem Exchanged.unattended {before after : Scene ρ} (h : Exchanged id before after) :
    after.unattended = before.unattended := by
  obtain ⟨told, parked, hledger⟩ := h.ledger
  have hhost : after.host.unattended = before.host.unattended := by
    simp only [Host.unattended, h.board, h.player, h.dice, h.history]
  have hgroups : (before.ledger.groups.modify id.index (GroupRecord.tell told)).map
      GroupRecord.untold = before.ledger.groups.map GroupRecord.untold := by
    have hsame := @map_untold_modify (GroupRecord.tell told) (fun left => left) fun _ => rfl
    rw [hsame]
    exact List.modify_id _ _
  simp only [Scene.unattended, hhost, hledger, Ledger.unattended, Ledger.updateRecord, hgroups]

/-! ### The stages of a group -/

/-- A computation `x` fails without a trace in what is left of the `scene`, or it does the same
    there. -/
def Engine.Unswayed {α : Type} (x : Engine ρ α) (scene : Scene ρ) : Prop :=
  (∃ fault after, x.onScene scene = (.error fault, after) ∧ after.unattended = scene.unattended) ∨
    x.onScene scene.unattended = ((x.onScene scene).1, (x.onScene scene).2.unattended)

namespace Engine

/-- What a computation makes of its value does not matter to whether it is `Unswayed`. -/
theorem Unswayed.map_result {α β : Type} {x : Engine ρ α} {y : Engine ρ β} {f : α → β}
    (hy : ∀ scene, y.onScene scene = ((x.onScene scene).1.map f, (x.onScene scene).2))
    (h : x.Unswayed scene) : y.Unswayed scene := by
  rcases h with ⟨fault, after, herror, hafter⟩ | hsame
  · refine .inl ⟨fault, after, ?_, hafter⟩
    rw [hy, herror]
    rfl
  · refine .inr ?_
    rw [hy, hy, hsame]

/-- The record found on a scene is found, `untold`, on what is left of it. -/
theorem record_unattended (h : scene.ledger.record id = .ok record) :
    scene.unattended.ledger.record id = .ok record.untold := by
  show scene.ledger.unattended.record id = _
  rw [Ledger.record_unattended, h]
  rfl

/-- A roll by `rollDice` is `Unswayed`. -/
theorem rollDice_unswayed [RandomSource ρ] (hrecord : scene.ledger.record id = .ok record) :
    (rollDice id).Unswayed scene := by
  have hleft := record_unattended hrecord
  refine .inr ?_
  by_cases hphase : record.phase = .pendingRoll
  · have hphase' : record.untold.phase = .pendingRoll := hphase
    rw [rollDice_onScene hrecord hphase, rollDice_onScene hleft hphase']
    -- Neither the guns nor the targets depend on who takes part.
    have hguns : gunsIn scene.unattended.host.board record.untold.group.territory
        record.untold.group.firingUnits =
          gunsIn scene.host.board record.group.territory record.group.firingUnits := rfl
    have htargets : openTargets scene.unattended record.untold.group =
        openTargets scene record.group := rfl
    rw [hguns, htargets]
    cases gunsIn scene.host.board record.group.territory record.group.firingUnits with
    | error fault => rfl
    | ok guns =>
      dsimp only
      split
      · rw [Scene.unattended_updateRecord]
        exact fun _ => rfl
      · rw [Scene.unattended_updateRecord]
        · rfl
        · exact fun _ => rfl
  · have hphase' : record.untold.phase ≠ .pendingRoll := hphase
    rw [rollDice_onScene_past hrecord hphase, rollDice_onScene_past hleft hphase']

/-- The choice by `chooseLosses` is `Unswayed`, unless one is taken over. -/
theorem chooseLosses_unswayed [RandomSource ρ] {roll : Roll} {targets : List Target}
    (hnone : ∀ choice after, let proposal := scene.proposal record targets roll.hits
      proposal.1.check targets roll.hits = .ok () →
        (scene.host.board.rules.casualtyMode = .interactive ∧ !scene.ledger.headless) →
          (askForLosses timing id record.group.hitPlayer
            (requestOf scene.ledger record.group roll targets proposal.1)).onScene
              (scene.setDice proposal.2) = (.ok (some choice), after) →
            choice.check targets roll.hits ≠ .ok ()) :
    (chooseLosses timing record id roll targets).Unswayed scene := by
  have hproposal : scene.unattended.proposal record targets roll.hits =
      scene.proposal record targets roll.hits := rfl
  have hdice (dice : ρ) : (scene.setDice dice).unattended = scene.unattended.setDice dice := rfl
  rw [Unswayed, chooseLosses_onScene, chooseLosses_onScene, hproposal]
  dsimp only at hnone ⊢
  cases hcheck : (scene.proposal record targets roll.hits).1.check targets roll.hits with
  | error fault => exact .inr rfl
  | ok _ =>
    have hnobody : ¬ (scene.unattended.host.board.rules.casualtyMode = .interactive ∧
        !scene.unattended.ledger.headless) := fun h => by
      simp [Scene.unattended, Ledger.unattended] at h
    rw [if_neg hnobody]
    by_cases hasked : scene.host.board.rules.casualtyMode = .interactive ∧ !scene.ledger.headless
    · simp only [if_pos hasked]
      -- Where players choose, the proposal takes no dice, so that it can be made again.
      have hsame : scene.setDice (scene.proposal record targets roll.hits).2 = scene := by
        rw [Scene.proposal, hasked.1]
        rfl
      have hletters := (askForLosses_exchanges id record.group.hitPlayer timing
        (requestOf scene.ledger record.group roll targets
          (scene.proposal record targets roll.hits).1)
            (scene.setDice (scene.proposal record targets roll.hits).2)).1.unattended
      rcases hanswer : (askForLosses timing id record.group.hitPlayer
        (requestOf scene.ledger record.group roll targets
          (scene.proposal record targets roll.hits).1)).onScene
            (scene.setDice (scene.proposal record targets roll.hits).2) with ⟨fault | choice, after⟩
      · rw [hanswer] at hletters
        exact .inl ⟨fault, after, rfl, hletters.trans (congrArg Scene.unattended hsame)⟩
      · rw [hanswer] at hletters
        refine .inr ?_
        -- No answer and a refused answer both leave the proposal.
        have hruling : ruling targets roll.hits (scene.proposal record targets roll.hits).1 choice =
            (scene.proposal record targets roll.hits).1 := by
          cases choice with
          | none => rfl
          | some choice =>
            have hrefused := hnone choice after hcheck hasked hanswer
            cases hchoice : choice.check targets roll.hits with
            | error fault => simp only [ruling, hchoice]
            | ok _ => exact absurd hchoice hrefused
        dsimp only
        rw [hruling]
        exact congrArg _ ((hdice _).symm.trans hletters.symm)
    · simp only [if_neg hasked]
      exact .inr (congrArg _ (hdice _).symm)

/-- The losses are committed on the `unattended` scene as they are with everybody taking part, if
    they are chosen alike. -/
theorem commitLosses_unattended {choose choose' : Engine ρ Losses} {group : FiringGroup}
    {hits : Nat} (hsame : choose'.onScene scene.unattended =
      ((choose.onScene scene).1, (choose.onScene scene).2.unattended))
    (hknown : ∀ losses mid, choose.onScene scene = (.ok losses, mid) →
      ∀ entry ∈ losses.damaged, mid.host.board.hasUnit entry.1) :
    (choose' >>= commitLosses id group hits).onScene scene.unattended =
      (((choose >>= commitLosses id group hits).onScene scene).1,
        ((choose >>= commitLosses id group hits).onScene scene).2.unattended) := by
  rcases hchosen : choose.onScene scene with ⟨fault | losses, mid⟩
  · rw [hchosen] at hsame
    rw [onScene_bind_error hchosen, onScene_bind_error hsame]
  · rw [hchosen] at hsame
    have hknown' : ∀ entry ∈ losses.damaged, mid.unattended.host.board.hasUnit entry.1 :=
      hknown losses mid hchosen
    rw [onScene_bind_ok hchosen, onScene_bind_ok hsame,
      commitLosses_onScene _ _ _ (hknown losses mid hchosen), commitLosses_onScene _ _ _ hknown',
      Scene.unattended_commit]

/-- A selection by `selectCasualties` is `Unswayed`, unless it takes over a choice. -/
theorem selectCasualties_unswayed [RandomSource ρ]
    (hrecord : scene.ledger.record id = .ok record)
    (hnone : ¬ Step.TakesChoice timing (.stage .select id) scene) :
    (selectCasualties timing id).Unswayed scene := by
  have hleft := record_unattended hrecord
  by_cases hphase : record.phase = .rolled
  · have hphase' : record.untold.phase = .rolled := hphase
    cases htargets : scene.host.board.targets record.validTargets with
    | error fault =>
      have htargets' : scene.unattended.host.board.targets record.untold.validTargets =
          .error fault := htargets
      rw [Unswayed, selectCasualties_onScene timing hrecord hphase, htargets,
        selectCasualties_onScene timing hleft hphase', htargets']
      exact .inr rfl
    | ok targets =>
      have htargets' : scene.unattended.host.board.targets record.untold.validTargets =
          .ok targets := htargets
      by_cases hhits : (record.dice.getD {}).hits = 0
      · have hhits' : (record.untold.dice.getD {}).hits = 0 := hhits
        rw [Unswayed, selectCasualties_onScene_no_hits hrecord hphase htargets hhits,
          selectCasualties_onScene_no_hits hleft hphase' htargets' hhits']
        exact .inr (congrArg _ (Scene.unattended_commit id record.group 0 {} scene).symm)
      · have hhits' : (record.untold.dice.getD {}).hits ≠ 0 := hhits
        rw [Unswayed, selectCasualties_onScene_hits hrecord hphase htargets hhits,
          selectCasualties_onScene_hits hleft hphase' htargets' hhits']
        have hchoose : (chooseLosses timing record id (record.dice.getD {}) targets).Unswayed
            scene := by
          refine chooseLosses_unswayed fun choice after hcheck hasked hanswer haccepted => hnone ?_
          exact ⟨id, record, targets, choice, after, rfl, hrecord, hphase, htargets, hhits, hcheck,
            hasked, hanswer, haccepted⟩
        rcases hchoose with ⟨fault, after, herror, hafter⟩ | hsame
        · exact .inl ⟨fault, after, onScene_bind_error herror, hafter⟩
        · -- Both sides have chosen alike, and what was accepted can be written.
          refine .inr (commitLosses_unattended hsame fun losses mid hchosen => ?_)
          obtain ⟨⟨dice, hmid⟩, hchecked⟩ :=
            chooseLosses_cases timing record id (record.dice.getD {}) targets scene
          rw [hchosen] at hmid hchecked
          have hboard : mid.host.board = scene.host.board := hmid.board
          rw [hboard]
          exact hasUnit_of_damaged htargets (Losses.valid_of_check (hchecked losses rfl))
  · have hphase' : record.untold.phase ≠ .rolled := hphase
    rw [Unswayed, selectCasualties_onScene_not_due timing hrecord hphase,
      selectCasualties_onScene_not_due timing hleft hphase']
    exact .inr rfl

/-- What `finish` does to the scene it does to what is left of it. -/
theorem finish_unattended (losses : Losses) (scene : Scene ρ) :
    (finish id record.untold losses).onScene scene.unattended =
      (((finish id record losses).onScene scene).1,
        ((finish id record losses).onScene scene).2.unattended) := by
  -- Whether the board can be cleared shows on the board alone.
  have hsame : finish id record.untold losses = (finish id record losses : Engine ρ Unit) := rfl
  rw [hsame]
  rcases finish_onScene id record losses scene with ⟨hcan, heq⟩ | ⟨hcannot, heq⟩
  · rcases finish_onScene id record losses scene.unattended with ⟨-, heq'⟩ | ⟨hcannot', -⟩
    · rw [heq, heq', Scene.unattended_updateRecord]
      · rfl
      · exact fun _ => rfl
    · exact absurd hcannot' hcan
  · rcases finish_onScene id record losses scene.unattended with ⟨hcan', -⟩ | ⟨-, heq'⟩
    · exact absurd hcannot hcan'
    · rw [heq, heq']

/-- A notice by `notifyCasualties` is `Unswayed`. -/
theorem notifyCasualties_unswayed (hrecord : scene.ledger.record id = .ok record) :
    (notifyCasualties id).Unswayed scene := by
  have hleft := record_unattended hrecord
  by_cases hselected : record.phase = .casualtiesSelected
  · -- Without attendance the losses are confirmed at once.
    have hselected' : record.untold.phase = .casualtiesSelected := hselected
    rw [Unswayed, notifyCasualties_onScene hrecord hselected,
      notifyCasualties_onScene hleft hselected']
    have hnobody : (confirm id record.untold (record.untold.losses.getD {})).onScene
        scene.unattended = (.ok (), scene.unattended.updateRecord id
          fun record => { record with phase := .confirmed }) := by
      simp [confirm, onScene_bind, Scene.unattended, Ledger.unattended, Scene.updateRecord]
    obtain ⟨result, mid, hmid, hconfirm⟩ := confirm_cases id record (record.losses.getD {}) scene
    cases result with
    | error fault => exact .inl ⟨fault, mid, onScene_bind_error hconfirm, hmid.unattended⟩
    | ok _ =>
      refine .inr ?_
      have hmid' :
          (mid.updateRecord id fun record => { record with phase := .confirmed }).unattended =
            scene.unattended.updateRecord id fun record => { record with phase := .confirmed } := by
        rw [← hmid.unattended, Scene.unattended_updateRecord]
        exact fun _ => rfl
      rw [onScene_bind_ok hconfirm, onScene_bind_ok hnobody, ← hmid']
      exact finish_unattended _ _
  · by_cases hconfirmed : record.phase = .confirmed
    · have hconfirmed' : record.untold.phase = .confirmed := hconfirmed
      rw [Unswayed, notifyCasualties_onScene_confirmed hrecord hconfirmed,
        notifyCasualties_onScene_confirmed hleft hconfirmed']
      exact .inr (finish_unattended _ _)
    · have hselected' : record.untold.phase ≠ .casualtiesSelected := hselected
      have hconfirmed' : record.untold.phase ≠ .confirmed := hconfirmed
      rw [Unswayed, notifyCasualties_onScene_not_due hrecord hselected hconfirmed,
        notifyCasualties_onScene_not_due hleft hselected' hconfirmed']
      exact .inr rfl

end Engine

/-! ### Plans -/

namespace Plan

/-- A `plan` opens its groups in what is left of the ledger as in the ledger. -/
theorem unattended_opened (plan : Plan) (groups : List FiringGroup) (ledger : Ledger) :
    (plan.opened groups ledger).unattended = plan.opened groups ledger.unattended := by
  have hfresh : (freshRecords ledger.groups.length groups).map GroupRecord.untold =
      freshRecords ledger.groups.length groups := by
    refine List.map_congr_left (fun record hrecord => ?_) |>.trans (List.map_id _)
    rw [(eq_of_mem_freshRecords hrecord).2]
    rfl
  simp [opened, Ledger.unattended, hfresh]

/-- To carry out a `plan` is `Unswayed`. -/
theorem carryOut_unswayed (plan : Plan) (scene : Scene ρ) : plan.carryOut.Unswayed scene := by
  have hgroups : plan.groupsOn scene.unattended = plan.groupsOn scene := by cases plan <;> rfl
  have hlength : scene.unattended.ledger.groups.length = scene.ledger.groups.length :=
    List.length_map _
  rw [Engine.Unswayed, carryOut_onScene, carryOut_onScene, hgroups, hlength]
  refine .inr ?_
  cases plan.groupsOn scene with
  | error fault => rfl
  | ok groups => exact congrArg _ (congrArg _ (unattended_opened plan groups scene.ledger).symm)

end Plan

/-! ### Steps -/

variable [RandomSource ρ]

namespace Engine

/-- The `stage` of a group is `Unswayed`, unless it takes over a choice. -/
theorem perform_unswayed (stage : Stage)
    (hnone : ¬ Step.TakesChoice timing (.stage stage id) scene) :
    (stage.perform timing id).Unswayed scene := by
  cases hrecord : scene.ledger.record id with
  | error fault =>
    have hleft : scene.unattended.ledger.record id = .error fault := by
      show scene.ledger.unattended.record id = _
      rw [Ledger.record_unattended, hrecord]
      rfl
    rw [Unswayed, perform_of_no_record stage hrecord, perform_of_no_record stage hleft]
    exact .inr rfl
  | ok record =>
    cases stage with
    | roll => exact rollDice_unswayed hrecord
    | select => exact selectCasualties_unswayed hrecord hnone
    | notify => exact notifyCasualties_unswayed hrecord

end Engine

/-- A `step` that takes over no choice fails without a trace in what is left of the `scene`, or it
    does there what it does with everybody taking part. -/
theorem Step.perform_unattended {step : Step} (hnone : ¬ step.TakesChoice timing scene) :
    (step.perform timing).Unswayed scene := by
  cases step with
  | plan plan => exact (plan.carryOut_unswayed scene).map_result (perform_plan_onScene plan)
  | stage stage id =>
    exact (Engine.perform_unswayed stage hnone).map_result (perform_stage_onScene stage id)

/-- An `attempt` at such a `step` leaves what is left of the action where it is, or it is an attempt
    at the step in what is left. -/
theorem Progress.attempt_unattended {step : Step} (rest : List Step)
    (hnone : ¬ step.TakesChoice timing scene) :
    (attempt timing ⟨step :: rest, scene⟩).unattended = unattended ⟨step :: rest, scene⟩ ∨
      (attempt timing ⟨step :: rest, scene⟩).unattended =
        attempt timing (unattended ⟨step :: rest, scene⟩) := by
  rcases Step.perform_unattended hnone with ⟨fault, after, herror, hafter⟩ | hsame
  · refine .inl ?_
    rw [attempt_error herror]
    simp only [unattended, hafter]
  · refine .inr ?_
    rcases hresult : (step.perform timing).onScene scene with ⟨fault | next, after⟩
    · rw [hresult] at hsame
      rw [attempt_error hresult]
      exact (attempt_error hsame rest).symm
    · rw [hresult] at hsame
      rw [attempt_ok hresult]
      exact (attempt_ok hsame rest).symm

end Flak
