import Flak.Proofs.Fire.Correspondence
import Flak.Proofs.Fire.Effects

namespace Flak

/-!
# What can be parked

A parked request belongs to a group that is waiting for its answer:

* `Ledger.Apt` — parked choices belong to groups that have rolled or selected, parked notices to
  groups that have selected, and these notices say what is on record;
* `Engine.confirm_eq_ok` — losses are confirmed only by a letter that accepts a notice of them, and
  then nothing is parked for the group;
* `Engine.notifyCasualties_left` — a group is through with its selection only in this way;
* `Ledger.Apt.attempt`, `Proceeds.apt` — so that what is parked stays apt.
-/

variable {ρ : Type} {timing : Timing} {id : GroupId} {record : GroupRecord}
  {scene mid after : Scene ρ}

/-! ### Confirmed losses -/

namespace Engine

/-- The `losses` are confirmed by a letter that accepts a notice of them, the last one by then: the
    notice is of what is on `record`, or it was parked. Nothing is parked for the group
    afterwards. -/
theorem confirm_eq_ok {losses : Losses} (hattended : scene.ledger.headless = false)
    (h : (confirm id record losses).onScene scene = (.ok (), mid)) :
    ∃ notice front,
      (notice = noticeOf scene.ledger record losses ∨
        scene.ledger.question? ⟨id, record.group.hitPlayer⟩ = some (.confirm notice)) ∧
      mid.host.correspondence = scene.host.correspondence ++ front ++
        [.settled record.group.hitPlayer id (.confirm notice) true] ∧
      mid.host.board = scene.host.board ∧
      mid.ledger.question? ⟨id, record.group.hitPlayer⟩ = none := by
  obtain ⟨result, told, sent, notice, hrun, hnotice, hconfirms⟩ := confirmLosses_cases id
    record.group (noticeOf scene.ledger record losses) scene
  have hexchanged := (confirmLosses_exchanges id record.group
    (noticeOf scene.ledger record losses) scene).1
  rw [hrun] at hexchanged
  simp only [confirm, onScene_bind, onScene_get, hattended, Bool.not_false, if_true, hrun] at h
  cases result with
  | error fault => simp at h
  | ok _ =>
    obtain ⟨-, rfl⟩ := Prod.mk.inj h
    obtain ⟨hnone, front, hsent⟩ := hconfirms.accepted rfl
    refine ⟨notice, front, hnotice, ?_, hexchanged.board, hnone⟩
    rw [List.append_assoc, ← hsent]
    exact hconfirms.conversed.letters

/-- The end of a group, `finish`, is silent. -/
theorem finish_host {losses : Losses} {result : Except Fault Unit}
    (h : (finish id record losses).onScene mid = (result, after)) :
    after.host.correspondence = mid.host.correspondence ∧
      after.ledger.parked = mid.ledger.parked := by
  rcases finish_onScene id record losses mid with ⟨-, heq⟩ | ⟨-, heq⟩
  · rw [heq] at h
    obtain ⟨-, rfl⟩ := Prod.mk.inj h
    exact ⟨rfl, rfl⟩
  · rw [heq] at h
    obtain ⟨-, rfl⟩ := Prod.mk.inj h
    exact ⟨rfl, rfl⟩

/-- A notice after which its group is not waiting for confirmation any more, by `notifyCasualties`:
    the losses were confirmed, and then the group was ended, or that failed. -/
theorem notifyCasualties_left {result : Except Fault Unit} {is : GroupRecord}
    (hrecord : scene.ledger.record id = .ok record) (hphase : record.phase = .casualtiesSelected)
    (h : (notifyCasualties id).onScene scene = (result, after))
    (his : after.ledger.groups[id.index]? = some is) (hleft : is.phase ≠ .casualtiesSelected) :
    ∃ mid, (confirm id record (record.losses.getD {})).onScene scene = (.ok (), mid) ∧
      (finish id record (record.losses.getD {})).onScene mid = (result, after) := by
  rw [notifyCasualties_onScene hrecord hphase] at h
  rcases hconfirm : (confirm id record (record.losses.getD {})).onScene scene with ⟨fault | _, mid⟩
  · -- Letters alone do not bring a group any further.
    rw [onScene_bind_error hconfirm] at h
    obtain ⟨-, rfl⟩ := Prod.mk.inj h
    obtain ⟨_, _, hletters, heq⟩ := confirm_cases id record (record.losses.getD {}) scene
    rw [hconfirm] at heq
    split at heq
    · obtain ⟨-, rfl⟩ := Prod.mk.inj heq
      obtain ⟨told, _, hledger⟩ := hletters.ledger
      rw [hledger] at his
      have hrecords := Ledger.getElem?_updateRecord id (GroupRecord.tell told) scene.ledger id.index
      have hsame : is = record.tell told := by
        have hfound := Ledger.record_eq_ok.1 hrecord
        simpa [hfound, hrecords] using his.symm
      exact absurd (hsame ▸ hphase) hleft
    · simp at heq
  · rw [onScene_bind_ok hconfirm] at h
    exact ⟨mid, rfl, h⟩

end Engine

/-! ### Apt requests -/

/-- Whether a `Question` fits the `record` of the group that it is about. -/
def Question.Apt (ledger : Ledger) (record : GroupRecord) : Question → Prop
  | .choose _ => record.phase = .rolled ∨ record.phase = .casualtiesSelected
  | .confirm notice => record.phase = .casualtiesSelected ∧
      notice = Engine.noticeOf ledger record (record.losses.getD {})

/-- What is parked in the `ledger` was put to the players whom the groups hit, it fits the records,
    and somebody takes part. -/
def Ledger.Apt (ledger : Ledger) : Prop :=
  ∀ key question, ledger.question? key = some question →
    ledger.headless = false ∧ ∃ record, ledger.groups[key.group.index]? = some record ∧
      key.player = record.group.hitPlayer ∧ question.Apt ledger record

namespace Ledger.Apt

/-- A `ledger` in which nothing is parked is apt. -/
theorem of_question?_eq_none {ledger : Ledger} (h : ∀ key, ledger.question? key = none) :
    ledger.Apt := by
  intro key question hquestion
  simp [h key] at hquestion

/-- What is parked stays `Apt` in a lapse. -/
theorem lapse (h : scene.ledger.Apt) (hlapse : Lapse scene after) : after.ledger.Apt := by
  intro key question hquestion
  obtain ⟨_, hledger⟩ := hlapse.ledger
  have hbefore : scene.ledger.question? key = some question := by
    rcases hlapse.parked key with hsame | hnone
    · rw [← hsame]
      exact hquestion
    · simp [hnone] at hquestion
  obtain ⟨hattended, record, hrecord, hplayer, hapt⟩ := h key question hbefore
  refine ⟨by rw [hledger]; exact hattended, record, by rw [hledger]; exact hrecord, hplayer, ?_⟩
  rw [hledger]
  cases question with
  | choose request => exact hapt
  | confirm notice => exact hapt

/-- When every group is done, nothing is parked in an `Apt` ledger. -/
theorem question?_eq_none {ledger : Ledger} (h : ledger.Apt)
    (hdone : ∀ (index : Nat) (record : GroupRecord), ledger.groups[index]? = some record →
      record.phase = .done) (key : RequestKey) : ledger.question? key = none := by
  cases hquestion : ledger.question? key with
  | none => rfl
  | some question =>
    obtain ⟨-, record, hrecord, -, hapt⟩ := h key question hquestion
    have hphase := hdone _ record hrecord
    cases question with
    | choose request => simp [Question.Apt, hphase] at hapt
    | confirm notice => simp [Question.Apt, hphase] at hapt

/-- What is parked for a group after an attempt was parked `before`, or it is what the attempt
    raised: either way it fits the record of before. -/
theorem before {step : Step} {sent : List Event} (h : scene.ledger.Apt)
    (htalked : Talked (Raises scene step) sent scene after) {key : RequestKey} {question : Question}
    (hquestion : after.ledger.question? key = some question) :
    scene.ledger.headless = false ∧ ∃ was, scene.ledger.groups[key.group.index]? = some was ∧
      key.player = was.group.hitPlayer ∧ question.Apt scene.ledger was := by
  rcases htalked.left key question hquestion with hparked | hraised
  · exact h key question hparked
  · cases hraised with
    | @choice id record hrecord hphase hattended request =>
      exact ⟨hattended, record, Ledger.record_eq_ok.1 hrecord, rfl, .inl hphase⟩
    | @notice id record hrecord hphase hattended =>
      exact ⟨hattended, record, Ledger.record_eq_ok.1 hrecord, rfl, hphase, rfl⟩

end Ledger.Apt

variable [RandomSource ρ]

/-- An `attempt` after which a group is not waiting for confirmation any more: it was at the notice
    of the group, the losses were confirmed, and then the group was ended, or that failed. -/
theorem Progress.attempt_left (timing : Timing) (step : Step) (rest : List Step) {index : Nat}
    {was is : GroupRecord} (hwas : scene.ledger.groups[index]? = some was)
    (his : (attempt timing ⟨step :: rest, scene⟩).scene.ledger.groups[index]? = some is)
    (hselected : was.phase = .casualtiesSelected) (hleft : is.phase ≠ .casualtiesSelected) :
    step = .stage .notify ⟨index⟩ ∧ ∃ mid result,
      (Engine.confirm ⟨index⟩ was (was.losses.getD {})).onScene scene = (.ok (), mid) ∧
      (Engine.finish ⟨index⟩ was (was.losses.getD {})).onScene mid =
        (result, (attempt timing ⟨step :: rest, scene⟩).scene) := by
  obtain ⟨is', his', hchange⟩ := attempt_record hwas timing step rest
  obtain rfl : is = is' := Option.some.inj (his.symm.trans his')
  -- Of all that can happen to a record, only its notice takes it out of this phase.
  cases hchange with
  | kept told => exact absurd hselected hleft
  | idle _ hphase => simp [hselected] at hphase
  | rolled _ hphase _ _ _ => simp [hselected] at hphase
  | selected _ hphase _ _ _ => simp [hselected] at hphase
  | notified hstep _ told hnext =>
    subst hstep
    refine ⟨rfl, ?_⟩
    have hrecord : scene.ledger.record ⟨index⟩ = .ok was := Ledger.record_eq_ok.2 hwas
    rw [attempt_scene, Step.perform_stage_onScene] at his ⊢
    rcases hnotify : (Stage.perform timing ⟨index⟩ .notify).onScene scene with ⟨result, after⟩
    rw [hnotify] at his
    obtain ⟨mid, hconfirm, hfinish⟩ :=
      Engine.notifyCasualties_left hrecord hselected hnotify his hleft
    exact ⟨mid, result, hconfirm, hfinish⟩

/-- What is parked stays `Apt` in an attempt. -/
theorem Ledger.Apt.attempt (timing : Timing) (step : Step) (rest : List Step)
    (h : scene.ledger.Apt) :
    (Progress.attempt timing ⟨step :: rest, scene⟩).scene.ledger.Apt := by
  intro key question hquestion
  obtain ⟨sent, htalked⟩ := Progress.attempt_talked timing step rest scene
  have hsteady := Progress.attempt_steady timing step rest scene
  obtain ⟨hattended, was, hwas, hplayer, hapt⟩ := h.before htalked hquestion
  refine ⟨hsteady.headless.trans hattended, ?_⟩
  obtain ⟨is, his, hchange⟩ := Progress.attempt_record hwas timing step rest
  refine ⟨is, his, ?_⟩
  have hnotice (record : GroupRecord) (losses : Losses) :
      Engine.noticeOf (Progress.attempt timing ⟨step :: rest, scene⟩).scene.ledger record losses =
        Engine.noticeOf scene.ledger record losses := by
    rw [Engine.noticeOf, hsteady.battle]
    rfl
  by_cases hleft : was.phase = .casualtiesSelected ∧ is.phase ≠ .casualtiesSelected
  · -- Then the losses were confirmed, and nothing is parked for the group.
    obtain ⟨hselected, hleft⟩ := hleft
    obtain ⟨-, mid, result, hconfirm, hfinish⟩ :=
      Progress.attempt_left timing step rest hwas his hselected hleft
    obtain ⟨notice, front, -, -, -, hnone⟩ :=
      Engine.confirm_eq_ok hattended hconfirm
    obtain ⟨-, hparked⟩ := Engine.finish_host hfinish
    rw [← hplayer] at hnone
    have hfree : mid.ledger.question? key = none := hnone
    rw [Ledger.question?, hparked] at hquestion
    exact absurd (hfree.symm.trans hquestion) (by simp)
  · cases hchange with
    | kept told =>
      refine ⟨hplayer, ?_⟩
      cases question with
      | choose request => exact hapt
      | confirm notice => exact ⟨hapt.1, hapt.2.trans (hnotice was _).symm⟩
    | idle _ hphase => cases question <;> simp [Question.Apt, hphase] at hapt
    | rolled _ hphase _ _ _ => cases question <;> simp [Question.Apt, hphase] at hapt
    | selected _ hphase told _ _ =>
      refine ⟨hplayer, ?_⟩
      cases question with
      | choose request => exact .inr rfl
      | confirm notice => simp [Question.Apt, hphase] at hapt
    | notified _ hphase told hnext =>
      rcases hphase with hphase | hphase
      · refine absurd ⟨hphase, ?_⟩ hleft
        rcases hnext with rfl | rfl <;> simp
      · cases question <;> simp [Question.Apt, hphase] at hapt

/-- If nothing was parked at the `start`, what is parked is `Apt` at any time. -/
theorem Proceeds.apt {start now : Progress ρ} {count : Nat}
    (hfree : ∀ key, start.scene.ledger.question? key = none)
    (h : Proceeds Lapse Freely start count now) : now.scene.ledger.Apt := by
  refine @preserves ρ _ Lapse Freely start now count (fun progress => progress.scene.ledger.Apt)
    (.of_question?_eq_none hfree) ?_ ?_ ?_ h
  · exact fun timing step rest scene hbefore => hbefore.attempt timing step rest
  · exact fun pending before after hlapse hbefore => hbefore.lapse hlapse
  · exact fun left next scene _ hbefore => hbefore

end Flak
