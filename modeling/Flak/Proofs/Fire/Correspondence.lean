import Flak.Proofs.Fire.Performed
import Flak.Proofs.Fire.Proceeds

namespace Flak

/-!
# One question at a time

A player is asked one thing at a time about a group, and who fired is shown the losses once:

* `unanswered` — the questions about a group that are out to a player;
* `Talked` — between two scenes letters went in turn, from what was parked to what is parked;
* `Raises` — the question that an attempt at a step can leave parked;
* `Progress.attempt_talked` — in every attempt at a step letters go in turn;
* `one_question_at_a_time` — so that never more than one question is out to a player about a group,
  as long as no parked request is dropped, and nobody is informed of a group twice at all.
-/

variable {ρ : Type}

/-! ### What is out -/

/-- The questions that are out under a `key` after an event, with `out` before it. -/
def Event.outAfter (key : RequestKey) (out : List Question) : Event → List Question
  | .asked _ player group question => if key = ⟨group, player⟩ then out ++ [question] else out
  | .settled player group question _ => if key = ⟨group, player⟩ then out.erase question else out
  | .reported _ _ _ => out
  | .informed _ _ _ _ => out

/-- The questions that were put under a `key` in these `events` and were neither answered nor given
    up because their worker died. -/
def unanswered (key : RequestKey) (events : List Event) : List Question :=
  events.foldl (fun out event => event.outAfter key out) []

/-- An `event` that is in turn, by `turn`, puts out or settles the one question there is. -/
theorem Event.outAfter_of_turn {key : RequestKey} {out out' : Option Question} {event : Event}
    (h : event.turn key out = some out') : event.outAfter key out.toList = out'.toList := by
  -- A question is asked only when none is out, and settled only when it is out itself.
  cases event with
  | asked address player group question =>
    simp only [turn, outAfter] at h ⊢
    split at h
    · rename_i hkey
      rw [if_pos hkey]
      split at h
      · rename_i hnone
        obtain rfl := Option.some.inj h
        simp [hnone]
      · simp at h
    · rename_i hkey
      obtain rfl := Option.some.inj h
      rw [if_neg hkey]
  | settled player group question accepted =>
    simp only [turn, outAfter] at h ⊢
    split at h
    · rename_i hkey
      rw [if_pos hkey]
      split at h
      · rename_i hout
        obtain rfl := Option.some.inj h
        simp [hout]
      · simp at h
    · rename_i hkey
      obtain rfl := Option.some.inj h
      rw [if_neg hkey]
  | reported _ _ _ =>
    obtain rfl := Option.some.inj h
    rfl
  | informed _ _ _ _ =>
    obtain rfl := Option.some.inj h
    rfl

/-- Events that are in turn, as `outAfter?` follows them, never leave more than one question out. -/
theorem foldl_outAfter_of_turns {key : RequestKey} {out out' : Option Question}
    {events : List Event} (h : outAfter? key out events = some out') :
    events.foldl (fun out event => event.outAfter key out) out.toList = out'.toList := by
  induction events generalizing out with
  | nil =>
    obtain rfl := Option.some.inj h
    rfl
  | cons event rest ih =>
    rw [outAfter?, List.foldlM_cons] at h
    obtain ⟨mid, hturn, hrest⟩ := Option.bind_eq_some_iff.1 h
    rw [List.foldl_cons, Event.outAfter_of_turn hturn]
    exact ih hrest

/-- What is out at a `moment` in the middle of events in turn. -/
theorem exists_unanswered_of_turns {key : RequestKey} {out : Option Question}
    {moment later : List Event} (h : outAfter? key none (moment ++ later) = some out) :
    ∃ mid : Option Question, unanswered key moment = mid.toList ∧
      outAfter? key mid later = some out := by
  rw [outAfter?_append] at h
  obtain ⟨mid, hmoment, hlater⟩ := Option.bind_eq_some_iff.1 h
  exact ⟨mid, foldl_outAfter_of_turns hmoment, hlater⟩

/-! ### Letters in turn -/

/-- Between two scenes the letters `sent` went in turn for every group and player, from what was
    parked to what is parked. What is newly parked is as `raised` says. A firing player who was
    informed was not noted as told before and is afterwards. -/
structure Talked (raised : RequestKey → Question → Prop) (sent : List Event)
    (before after : Scene ρ) : Prop where
  letters : after.host.correspondence = before.host.correspondence ++ sent
  turns : ∀ key,
    outAfter? key (before.ledger.question? key) sent = some (after.ledger.question? key)
  left : ∀ key question, after.ledger.question? key = some question →
    before.ledger.question? key = some question ∨ raised key question
  informed : ∀ group, sent.countP (Event.informs group) + (before.ledger.told group).toNat ≤
    (after.ledger.told group).toNat

namespace Talked

variable {raised raised' : RequestKey → Question → Prop} {sent sent' : List Event}
  {before after last : Scene ρ}

/-- What was `Talked` first and then is talk altogether. -/
theorem trans (h : Talked raised sent before after) (h' : Talked raised sent' after last) :
    Talked raised (sent ++ sent') before last where
  letters := by rw [h'.letters, h.letters, List.append_assoc]
  turns key := by
    rw [outAfter?_append, h.turns key]
    exact h'.turns key
  left key question hquestion := by
    rcases h'.left key question hquestion with hafter | hraised
    · exact h.left key question hafter
    · exact .inr hraised
  informed group := by
    have hfirst := h.informed group
    have hsecond := h'.informed group
    rw [List.countP_append]
    omega

/-- What may be `raised` may be raised if more may. -/
theorem weaken (hraised : ∀ key question, raised key question → raised' key question)
    (h : Talked raised sent before after) : Talked raised' sent before after :=
  { h with left := fun key question hquestion =>
      (h.left key question hquestion).imp_right (hraised key question) }

/-- A conversation about one group and player that ends with what is parked then is `Talked`. -/
theorem of_conversed {key : RequestKey}
    (h : Conversed key (before.ledger.question? key) (after.ledger.question? key) sent before after)
    (hleft : ∀ question, after.ledger.question? key = some question →
      before.ledger.question? key = some question ∨ raised key question) :
    Talked raised sent before after where
  letters := h.letters
  turns other := by
    by_cases hother : other = key
    · rw [hother]
      exact h.turns
    · rw [h.requests other hother]
      exact h.aside other hother _
  left other question hquestion := by
    by_cases hother : other = key
    · subst hother
      exact hleft question hquestion
    · rw [h.requests other hother] at hquestion
      exact .inl hquestion
  informed := h.informed

/-- Reports are no letters about a group, whatever was `sent` of them. -/
theorem of_reports (hletters : after.host.correspondence = before.host.correspondence ++ sent)
    (hreports : ∀ event ∈ sent, event.isReport)
    (hparked : after.ledger.parked = before.ledger.parked)
    (htold : ∀ group, after.ledger.told group = before.ledger.told group) :
    Talked raised sent before after where
  letters := hletters
  turns key := by
    have hquestion : after.ledger.question? key = before.ledger.question? key := by
      rw [Ledger.question?, hparked, Ledger.question?]
    rw [hquestion]
    clear hletters
    -- By induction on the letters, none of which concerns a question.
    induction sent with
    | nil => rfl
    | cons event rest ih =>
      have hrest := ih fun other hother => hreports other (List.mem_cons_of_mem _ hother)
      cases event with
      | reported address message title => exact hrest
      | _ => simp [Event.isReport] at hreports
  left key question hquestion := by
    rw [Ledger.question?, hparked] at hquestion
    exact .inl hquestion
  informed group := by
    have hnone : sent.countP (Event.informs group) = 0 := by
      rw [List.countP_eq_zero]
      intro event hevent
      have hreport := hreports event hevent
      cases event with
      | reported address message title => simp [Event.informs]
      | _ => simp [Event.isReport] at hreport
    rw [hnone, htold group]
    omega

/-- Nothing is said while a `change` is made to a record, if not about who was told. -/
theorem of_updateRecord {id : GroupId} {change : GroupRecord → GroupRecord}
    (hletters : after.host.correspondence = before.host.correspondence)
    (hledger : after.ledger = before.ledger.updateRecord id change)
    (hchange : ∀ record, (change record).enemyNotified = record.enemyNotified) :
    Talked raised [] before after := by
  refine of_reports (by rw [hletters, List.append_nil]) (by simp) ?_ fun group => ?_
  · rw [hledger]
    rfl
  · rw [hledger]
    exact Ledger.told_updateRecord before.ledger hchange group

/-- Nothing is `Talked` where nothing happens. -/
theorem refl (raised : RequestKey → Question → Prop) (scene : Scene ρ) :
    Talked raised [] scene scene :=
  of_reports (List.append_nil _).symm (by simp) rfl fun _ => rfl

end Talked

/-- What goes on `Meanwhile` says nothing. -/
theorem Meanwhile.talked {raised : RequestKey → Question → Prop} {before after : Scene ρ}
    (h : Meanwhile before after) : Talked raised [] before after := by
  obtain ⟨_, hledger⟩ := h.ledger
  refine ⟨by rw [h.correspondence, List.append_nil], ?_, ?_, ?_⟩
  · intro key
    rw [h.parked key]
    rfl
  · intro key question hquestion
    rw [h.parked key] at hquestion
    exact .inl hquestion
  · intro group
    rw [hledger]
    simp [Ledger.told]

/-- What is said when `losses` are written by `commit`: reports. -/
theorem Scene.commit_talked (raised : RequestKey → Question → Prop) (id : GroupId)
    (group : FiringGroup) (hits : Nat) (losses : Losses) (scene : Scene ρ) :
    ∃ sent, Talked raised sent scene (scene.commit id group hits losses) := by
  have htold (other : GroupId) :
      (scene.commit id group hits losses).ledger.told other = scene.ledger.told other := by
    show ((scene.ledger.recordKilled losses.killed).updateRecord id _).told other =
      (scene.ledger.recordKilled losses.killed).told other
    refine Ledger.told_updateRecord _ ?_ other
    exact fun _ => rfl
  have hletters : (scene.commitHost group hits losses).correspondence =
      (scene.host.report scene.ledger.player (Engine.hitReport group hits losses)
        group.kind).correspondence := by
    unfold commitHost
    cases losses.killed.isEmpty <;> rfl
  -- The only letter is the report to the acting player, if that player can be reached.
  cases hremote : scene.host.remotes[scene.ledger.player]? with
  | none =>
    refine ⟨[], .of_reports ?_ (by simp) rfl htold⟩
    show (scene.commitHost group hits losses).correspondence = _
    simp [hletters, Host.report, hremote]
  | some remote =>
    refine ⟨[.reported remote.address (Engine.hitReport group hits losses) group.kind],
      .of_reports ?_ (by simp [Event.isReport]) rfl htold⟩
    show (scene.commitHost group hits losses).correspondence = _
    simp [hletters, Host.report, hremote, Host.note, Host.connect]

/-! ### Stages -/

/-- What an attempt at a step can leave parked on a `scene`, if anybody takes part: a selection a
    choice, and a notice the question to confirm what is on record. -/
inductive Raises (scene : Scene ρ) : Step → RequestKey → Question → Prop
  | choice {id : GroupId} {record : GroupRecord} (hrecord : scene.ledger.record id = .ok record)
      (hphase : record.phase = .rolled) (hattended : scene.ledger.headless = false)
      (request : CasualtyRequest) :
      Raises scene (.stage .select id) ⟨id, record.group.hitPlayer⟩ (.choose request)
  | notice {id : GroupId} {record : GroupRecord} (hrecord : scene.ledger.record id = .ok record)
      (hphase : record.phase = .casualtiesSelected) (hattended : scene.ledger.headless = false) :
      Raises scene (.stage .notify id) ⟨id, record.group.hitPlayer⟩
        (.confirm (Engine.noticeOf scene.ledger record (record.losses.getD {})))

namespace Engine

variable {timing : Timing} {id : GroupId} {record : GroupRecord} {scene : Scene ρ}
  {raised : RequestKey → Question → Prop}

/-- In a roll by `rollDice` nothing is said. -/
theorem rollDice_talked [RandomSource ρ] (hrecord : scene.ledger.record id = .ok record) :
    ∃ sent, Talked raised sent scene ((rollDice id).onScene scene).2 := by
  by_cases hphase : record.phase = .pendingRoll
  · rw [rollDice_onScene hrecord hphase]
    cases gunsIn scene.host.board record.group.territory record.group.firingUnits with
    | error fault => exact ⟨[], .refl raised scene⟩
    | ok guns =>
      dsimp only
      split
      · exact ⟨[], .of_updateRecord rfl rfl fun _ => rfl⟩
      · exact ⟨[], .of_updateRecord rfl rfl fun _ => rfl⟩
  · rw [rollDice_onScene_past hrecord hphase]
    exact ⟨[], .refl raised scene⟩

/-- In a choice by `chooseLosses` letters go in turn, and the request may be left. -/
theorem chooseLosses_talked [RandomSource ρ] (timing : Timing) (roll : Roll)
    (targets : List Target) (scene : Scene ρ) (hraised : scene.ledger.headless = false →
      ∀ request, raised ⟨id, record.group.hitPlayer⟩ (.choose request)) :
    ∃ sent, Talked raised sent scene
      ((chooseLosses timing record id roll targets).onScene scene).2 := by
  have hdice (dice : ρ) : Talked raised [] scene (scene.setDice dice) :=
    .of_reports (List.append_nil _).symm (by simp) rfl fun _ => rfl
  rw [chooseLosses_onScene]
  generalize scene.proposal record targets roll.hits = proposal
  dsimp only
  cases proposal.1.check targets roll.hits with
  | error fault => exact ⟨[], hdice proposal.2⟩
  | ok _ =>
    dsimp only
    split
    · rename_i hinteractive
      have hattended : scene.ledger.headless = false := by simpa using hinteractive.2
      obtain ⟨result, after, sent, hrun, hconversed, hleft⟩ := askForLosses_cases id timing
        record.group.hitPlayer (requestOf scene.ledger record.group roll targets proposal.1)
          (scene.setDice proposal.2)
      have htalked : Talked raised sent (scene.setDice proposal.2) after := by
        refine .of_conversed hconversed fun question hquestion => ?_
        -- What is left out is the request that was just made, or it was out before.
        rcases hleft question hquestion with rfl | hbefore
        · exact .inr (hraised hattended _)
        · exact .inl hbefore
      rw [hrun]
      cases result with
      | error fault => exact ⟨_, (hdice proposal.2).trans htalked⟩
      | ok choice => exact ⟨_, (hdice proposal.2).trans htalked⟩
    · exact ⟨[], hdice proposal.2⟩

/-- In a selection by `selectCasualties` letters go in turn, and the request may be left. -/
theorem selectCasualties_talked [RandomSource ρ] (timing : Timing)
    (hrecord : scene.ledger.record id = .ok record)
    (hraised : record.phase = .rolled → scene.ledger.headless = false →
      ∀ request, raised ⟨id, record.group.hitPlayer⟩ (.choose request)) :
    ∃ sent, Talked raised sent scene ((selectCasualties timing id).onScene scene).2 := by
  by_cases hphase : record.phase = .rolled
  · cases htargets : scene.host.board.targets record.validTargets with
    | error fault =>
      rw [selectCasualties_onScene timing hrecord hphase, htargets]
      exact ⟨[], .refl raised scene⟩
    | ok targets =>
      by_cases hhits : (record.dice.getD {}).hits = 0
      · rw [selectCasualties_onScene_no_hits hrecord hphase htargets hhits]
        exact scene.commit_talked raised id record.group 0 {}
      -- First the choice, then the report of what was selected.
      · obtain ⟨sent, htalked⟩ := chooseLosses_talked timing (record.dice.getD {}) targets scene
          (hraised hphase)
        rcases hchosen : (chooseLosses timing record id (record.dice.getD {}) targets).onScene
          scene with ⟨fault | losses, mid⟩
        · rw [hchosen] at htalked
          rw [selectCasualties_onScene_unchosen hrecord hphase htargets hhits hchosen]
          exact ⟨sent, htalked⟩
        · rw [hchosen] at htalked
          rw [selectCasualties_onScene_chosen hrecord hphase htargets hhits hchosen]
          obtain ⟨sent', hcommit⟩ := mid.commit_talked raised id record.group
            (record.dice.getD {}).hits losses
          exact ⟨_, htalked.trans hcommit⟩
  · rw [selectCasualties_onScene_not_due timing hrecord hphase]
    exact ⟨[], .refl raised scene⟩

/-- To `confirm` losses letters go in turn, and the notice may be left. -/
theorem confirm_talked (losses : Losses)
    (hraised : scene.ledger.headless = false →
      raised ⟨id, record.group.hitPlayer⟩ (.confirm (noticeOf scene.ledger record losses))) :
    ∃ sent, Talked raised sent scene ((confirm id record losses).onScene scene).2 := by
  -- Without anybody there the losses are confirmed without a letter.
  cases hheadless : scene.ledger.headless with
  | true =>
    refine ⟨[], ?_⟩
    simp only [confirm, onScene_bind, onScene_get, hheadless, Bool.not_true, Bool.false_eq_true,
      if_false, onScene_changeLedger]
    exact .of_updateRecord rfl rfl fun _ => rfl
  | false =>
    obtain ⟨result, mid, sent, notice, hrun, hnotice, hconfirms⟩ := confirmLosses_cases id
      record.group (noticeOf scene.ledger record losses) scene
    have htalked : Talked raised sent scene mid := by
      refine .of_conversed hconfirms.conversed fun question hquestion => ?_
      rcases hconfirms.left question hquestion with rfl | hbefore
      · rcases hnotice with rfl | hparked
        · exact .inr (hraised hheadless)
        · exact .inl hparked
      · exact .inl hbefore
    simp only [confirm, onScene_bind, onScene_get, hheadless, Bool.not_false, if_true, hrun]
    cases result with
    | error fault => exact ⟨sent, htalked⟩
    | ok _ => exact ⟨_, htalked.trans (.of_updateRecord rfl rfl fun _ => rfl)⟩

/-- In the end of a group, `finish`, nothing is said. -/
theorem finish_talked (raised : RequestKey → Question → Prop) (losses : Losses)
    (scene : Scene ρ) :
    ∃ sent, Talked raised sent scene ((finish id record losses).onScene scene).2 := by
  rcases finish_onScene id record losses scene with ⟨-, heq⟩ | ⟨-, heq⟩
  · rw [heq]
    exact ⟨[], .of_updateRecord rfl rfl fun _ => rfl⟩
  · rw [heq]
    exact ⟨[], .refl raised scene⟩

/-- In a notice by `notifyCasualties` letters go in turn, and the notice may be left. -/
theorem notifyCasualties_talked (hrecord : scene.ledger.record id = .ok record)
    (hraised : record.phase = .casualtiesSelected → scene.ledger.headless = false →
      raised ⟨id, record.group.hitPlayer⟩
        (.confirm (noticeOf scene.ledger record (record.losses.getD {})))) :
    ∃ sent, Talked raised sent scene ((notifyCasualties id).onScene scene).2 := by
  by_cases hselected : record.phase = .casualtiesSelected
  · rw [notifyCasualties_onScene hrecord hselected, onScene_bind]
    obtain ⟨sent, htalked⟩ := confirm_talked (record.losses.getD {}) (hraised hselected)
    rcases hconfirm : (confirm id record (record.losses.getD {})).onScene scene with
      ⟨fault | _, mid⟩
    · rw [hconfirm] at htalked
      exact ⟨sent, htalked⟩
    · rw [hconfirm] at htalked
      obtain ⟨sent', hfinish⟩ := finish_talked raised (record.losses.getD {}) mid
      exact ⟨_, htalked.trans hfinish⟩
  · by_cases hconfirmed : record.phase = .confirmed
    · rw [notifyCasualties_onScene_confirmed hrecord hconfirmed]
      exact finish_talked raised (record.losses.getD {}) scene
    · rw [notifyCasualties_onScene_not_due hrecord hselected hconfirmed]
      exact ⟨[], .refl raised scene⟩

end Engine

/-! ### Attempts -/

/-- Nobody has been told of a `group` that has just been formed. -/
theorem Plan.told_opened (plan : Plan) (groups : List FiringGroup) (ledger : Ledger)
    (group : GroupId) : (plan.opened groups ledger).told group = ledger.told group := by
  by_cases hlt : group.index < ledger.groups.length
  · rw [Ledger.told, opened, List.getElem?_append_left hlt]
    rfl
  · have hle := Nat.le_of_not_lt hlt
    rw [Ledger.told, Ledger.told, opened, List.getElem?_append_right hle, List.getElem?_eq_none hle]
    cases hfresh : (freshRecords ledger.groups.length groups)[
      group.index - ledger.groups.length]? with
    | none => rfl
    | some record =>
      rw [(eq_of_mem_freshRecords (List.mem_of_getElem? hfresh)).2]
      rfl

variable [RandomSource ρ]

/-- In an attempt at a `step` letters go in turn, and what is left parked is what it `Raises`. -/
theorem Step.perform_talked (timing : Timing) (step : Step) (scene : Scene ρ) :
    ∃ sent, Talked (Raises scene step) sent scene ((step.perform timing).onScene scene).2 := by
  -- A plan says nothing; a stage says what its group has to say, if it is entered.
  cases step with
  | plan plan =>
    rw [perform_plan_onScene, Plan.carryOut_onScene]
    cases plan.groupsOn scene with
    | error fault => exact ⟨[], .refl _ scene⟩
    | ok groups =>
      exact ⟨[], .of_reports (List.append_nil _).symm (by simp) rfl
        (plan.told_opened groups scene.ledger)⟩
  | stage stage id =>
    rw [perform_stage_onScene]
    dsimp only
    cases hrecord : scene.ledger.record id with
    | error fault =>
      rw [Engine.perform_of_no_record stage hrecord]
      exact ⟨[], .refl _ scene⟩
    | ok record =>
      cases stage with
      | roll => exact Engine.rollDice_talked hrecord
      | select => exact Engine.selectCasualties_talked timing hrecord (.choice hrecord)
      | notify => exact Engine.notifyCasualties_talked hrecord (.notice hrecord)

/-- By `attempt`, successful or not, letters go in turn, and what is left parked is what the step
    `Raises`. -/
theorem Progress.attempt_talked (timing : Timing) (step : Step) (rest : List Step)
    (scene : Scene ρ) :
    ∃ sent, Talked (Raises scene step) sent scene (attempt timing ⟨step :: rest, scene⟩).scene := by
  rw [attempt_scene]
  exact Step.perform_talked timing step scene

/-! ### Runs -/

/-- As long as nothing parked is dropped, letters have gone in turn since the `start`. -/
theorem Proceeds.talked {start now : Progress ρ} {count : Nat}
    (h : Proceeds Meanwhile Freely start count now) :
    ∃ sent, Talked (fun _ _ => True) sent start.scene now.scene := by
  refine @preserves ρ _ Meanwhile Freely start now count (fun progress =>
    ∃ sent, Talked (fun _ _ => True) sent start.scene progress.scene) ⟨[], .refl _ _⟩ ?_ ?_ ?_ h
  · rintro timing step rest scene ⟨sent, htalked⟩
    obtain ⟨sent', hattempt⟩ := Progress.attempt_talked timing step rest scene
    exact ⟨sent ++ sent', htalked.trans (hattempt.weaken fun _ _ _ => trivial)⟩
  · rintro pending before after hpause ⟨sent, htalked⟩
    exact ⟨sent ++ [], htalked.trans hpause.talked⟩
  · exact fun left next scene _ htalked => htalked

/-- Whatever becomes of parked requests, who was informed since the `start` is noted as told now and
    was not noted then. -/
theorem Proceeds.informed {start now : Progress ρ} {count : Nat}
    (h : Proceeds Interlude Freely start count now) :
    ∃ sent, now.scene.host.correspondence = start.scene.host.correspondence ++ sent ∧
      ∀ group, sent.countP (Event.informs group) + (start.scene.ledger.told group).toNat ≤
        (now.scene.ledger.told group).toNat := by
  refine @preserves ρ _ Interlude Freely start now count (fun progress =>
    ∃ sent, progress.scene.host.correspondence = start.scene.host.correspondence ++ sent ∧
      ∀ group, sent.countP (Event.informs group) + (start.scene.ledger.told group).toNat ≤
        (progress.scene.ledger.told group).toNat) ⟨[], by simp, by simp⟩ ?_ ?_ ?_ h
  · rintro timing step rest scene ⟨sent, hletters, hinformed⟩
    obtain ⟨sent', hattempt⟩ := Progress.attempt_talked timing step rest scene
    refine ⟨sent ++ sent', ?_, fun group => ?_⟩
    · rw [hattempt.letters, hletters, List.append_assoc]
    -- Who was told before is not informed again, and who is informed is told from then on.
    · have hbefore := hinformed group
      have hafter := hattempt.informed group
      rw [List.countP_append]
      dsimp only at hbefore
      omega
  · rintro pending before after hpause ⟨sent, hletters, hinformed⟩
    obtain ⟨_, hledger⟩ := hpause.ledger
    refine ⟨sent, ?_, fun group => ?_⟩
    · rw [hpause.correspondence]
      exact hletters
    · rw [hledger]
      exact hinformed group
  · exact fun left next scene _ hholds => hholds

/-- In whatever order an action `Proceeds`: as long as no parked request is dropped, at every moment
    at most one question is out to a player about a group, a question is put only when none is out,
    and what is out now is what is parked. And even if parked requests are dropped, as they are when
    the ledger is saved and loaded, the firing player is informed of a group once at most. -/
theorem one_question_at_a_time :
    (∀ (start now : Progress ρ) (count : Nat),
      (∀ key, start.scene.ledger.question? key = none) →
      Proceeds Meanwhile Freely start count now →
      ∃ sent, now.scene.host.correspondence = start.scene.host.correspondence ++ sent ∧
        ∀ key : RequestKey,
          (∀ moment later, sent = moment ++ later → (unanswered key moment).length ≤ 1) ∧
          (∀ moment address question later,
            sent = moment ++ .asked address key.player key.group question :: later →
              unanswered key moment = []) ∧
          unanswered key sent = (now.scene.ledger.question? key).toList) ∧
    ∀ (start now : Progress ρ) (count : Nat), Proceeds Interlude Freely start count now →
      ∃ sent, now.scene.host.correspondence = start.scene.host.correspondence ++ sent ∧
        ∀ group, sent.countP (Event.informs group) ≤ 1 := by
  constructor
  · intro start now count hfree hproceeds
    obtain ⟨sent, htalked⟩ := hproceeds.talked
    refine ⟨sent, htalked.letters, fun key => ?_⟩
    have hturns := htalked.turns key
    rw [hfree key] at hturns
    refine ⟨?_, ?_, foldl_outAfter_of_turns hturns⟩
    · rintro moment later rfl
      obtain ⟨out, hout, -⟩ := exists_unanswered_of_turns hturns
      rw [hout]
      cases out <;> simp
    · rintro moment address question later rfl
      obtain ⟨out, hout, hlater⟩ := exists_unanswered_of_turns hturns
      rw [hout]
      -- The letter that comes next is in turn too.
      rw [outAfter?, List.foldlM_cons] at hlater
      obtain ⟨mid, hturn, -⟩ := Option.bind_eq_some_iff.1 hlater
      cases out with
      | none => rfl
      | some other => simp [Event.turn] at hturn
  · intro start now count hproceeds
    obtain ⟨sent, hletters, hinformed⟩ := hproceeds.informed
    refine ⟨sent, hletters, fun group => ?_⟩
    have htold := hinformed group
    have hone : (now.scene.ledger.told group).toNat ≤ 1 := Bool.toNat_le _
    omega

/-- A `Sortie` after the roll, when the player who is hit may choose but takes too long, and the
    player who fired can be reached. -/
def Sortie.undecided : Scene ScriptedDice :=
  let scene := rolled false .removeFromBoard outcome
  let slow : Remote := {
    address := "reds"
    choices := [{ answer := some (.ok none), hitches := [.slow] }] }
  { scene with
    host := { (scene.host.connect ⟨"Reds"⟩ slow).connect ⟨"Blues"⟩ { address := "blues" } with
      board := { scene.host.board with rules := { chooseCasualties := true } } } }

/-- In the `Sortie.undecided` the choice is still out when the losses are to be confirmed. Its
    answer comes before the question to confirm them, and the firing player is informed. -/
theorem one_question_at_a_time_undecided :
    ∃ last : Scene ScriptedDice, last.host.correspondence.length = 6 ∧
      (∀ moment later, last.host.correspondence = moment ++ later →
        (unanswered ⟨⟨0⟩, ⟨"Reds"⟩⟩ moment).length ≤ 1) ∧
      last.host.correspondence.countP (Event.informs ⟨0⟩) ≤ 1 := by
  have hrun : ∃ last, (Agenda.mk Sortie.left none).run {} (some 2) Sortie.undecided =
      (.ok 2, ⟨[], none⟩, last) ∧ last.host.correspondence.length = 6 :=
    ⟨_, rfl, rfl⟩
  obtain ⟨last, hlast, hlength⟩ := hrun
  obtain ⟨_, hproceeds, -⟩ := Agenda.run_proceeds hlast
  obtain ⟨_, hinformed, -⟩ := Agenda.run_proceeds hlast
  obtain ⟨sent, hletters, hturns⟩ := one_question_at_a_time.1 _ _ _
    (Ledger.question?_of_parked_eq_empty rfl) hproceeds
  obtain ⟨sent', hletters', honce⟩ := one_question_at_a_time.2 _ _ _ hinformed
  obtain rfl : last.host.correspondence = sent := hletters
  obtain rfl : last.host.correspondence = sent' := hletters'
  exact ⟨last, hlength, (hturns ⟨⟨0⟩, ⟨"Reds"⟩⟩).1, honce ⟨0⟩⟩

end Flak
