import Flak.Proofs.Fire.Order
import Flak.Proofs.Fire.Records

namespace Flak

/-!
# Losses take effect once they are acknowledged

As long as the player who was hit has not accepted the notice of its losses, a group waits, and
nobody goes off the board because of it:

* `GroupRecord.AcknowledgedIn` — letters in which the player accepts what is on record;
* `GroupRecord.TakesOff`, `Board.takesOff_of_cleared` — the units that may go because of a group;
* `Proceeds.leaves_acknowledged` — a group is past its selection only after such a letter, and until
  then the board is as it was;
* `AcknowledgedSince`, `Proceeds.acknowledgedSince` — groups that are past it have been sent one;
* `Present`, `Proceeds.present` — until then the units are still there;
* `losses_acknowledged` — all of this together.
-/

variable {ρ : Type} {scene after : Scene ρ}

/-! ### Groups and their units -/

namespace GroupRecord

/-- Among the `letters` is one in which the player who was hit accepts a notice of the dice and the
    losses on `record`. -/
def AcknowledgedIn (record : GroupRecord) (index : Nat) (letters : List Event) : Prop :=
  ∃ notice, record.dice = some notice.dice ∧ record.losses = some notice.losses ∧
    .settled record.group.hitPlayer ⟨index⟩ (.confirm notice) true ∈ letters

/-- Whether the `unit` may go off the board because of a group: the group has killed it and takes
    its dead off, or it has fired for the group and is spent on a hit. -/
def TakesOff (record : GroupRecord) (unit : UnitId) : Prop :=
  (record.group.removal = .removeFromBoard ∧
      ∃ losses, record.losses = some losses ∧ unit ∈ losses.killed) ∨
    record.group.suicideOnHit = true ∧ unit ∈ record.activeFiring

/-- Whether the losses of the group on `record` have been confirmed. -/
def Confirmed (record : GroupRecord) : Prop :=
  record.phase = .confirmed ∨ record.phase = .done ∧ record.losses.isSome = true

/-- From the roll of the group on `record` until its losses are acknowledged, those who fire for it
    stand in the territory, and whom it has killed is on the `board`. -/
structure Present (board : Board) (record : GroupRecord) : Prop where
  firing : record.phase = .rolled ∨ record.phase = .casualtiesSelected →
    ∀ unit ∈ record.activeFiring, board.standsIn unit record.group.territory = true
  killed : record.phase = .casualtiesSelected →
    ∀ losses, record.losses = some losses → ∀ unit ∈ losses.killed, board.hasUnit unit = true

variable {record was is : GroupRecord} {index : Nat} {letters more : List Event}

/-- What is `AcknowledgedIn` letters is so in more of them. -/
theorem AcknowledgedIn.append (h : record.AcknowledgedIn index letters) :
    record.AcknowledgedIn index (letters ++ more) := by
  obtain ⟨notice, hdice, hlosses, hletter⟩ := h
  exact ⟨notice, hdice, hlosses, List.mem_append_left _ hletter⟩

/-- What was `AcknowledgedIn` letters stays acknowledged. -/
theorem AcknowledgedIn.follows (h : was.AcknowledgedIn index letters) (hfollows : was.Follows is) :
    is.AcknowledgedIn index letters := by
  obtain ⟨notice, hdice, hlosses, hletter⟩ := h
  refine ⟨notice, (hfollows.roll _ hdice).1, hfollows.losses _ hlosses, ?_⟩
  rw [hfollows.group]
  exact hletter

/-- Nobody has to be `Present` for a group that is not on its way. -/
theorem Present.of_phase {board : Board} (hrolled : record.phase ≠ .rolled)
    (hselected : record.phase ≠ .casualtiesSelected) : record.Present board :=
  ⟨fun h => (h.elim hrolled hselected).elim, fun h => (hselected h).elim⟩

end GroupRecord

/-- Whoever goes off the `board` when the losses of a group are confirmed goes because of it: the
    record `TakesOff` the unit. -/
theorem Board.takesOff_of_cleared {board : Board} {record : GroupRecord} {unit : UnitId}
    (hbefore : board.hasUnit unit = true)
    (hafter : (board.cleared record (record.losses.getD {})).hasUnit unit = false) :
    record.TakesOff unit := by
  unfold cleared at hafter
  by_cases hdead : (board.withoutDead record (record.losses.getD {})).hasUnit unit = true
  · -- The unit is still there when the dead have gone.
    unfold withoutSpent at hafter
    split at hafter
    · rename_i hspent
      have hmem := mem_of_hasUnit_removeUnits hdead hafter
      have hfiring := List.mem_of_mem_take hmem
      exact .inr ⟨hspent.1.1, (List.mem_filter.1 hfiring).1⟩
    · exact nomatch hdead.symm.trans hafter
  · have hgone := Bool.eq_false_iff.2 hdead
    unfold withoutDead at hgone
    split at hgone
    · rename_i hremoval
      have hmem := mem_of_hasUnit_removeUnits hbefore hgone
      cases hlosses : record.losses with
      | none => simp [hlosses] at hmem
      | some losses =>
        rw [hlosses] at hmem
        exact .inl ⟨hremoval.1, losses, hlosses, hmem⟩
    · exact nomatch hbefore.symm.trans hgone

/-- The losses are `Confirmed` from their selection on. -/
theorem RecordChange.selected_of_confirmed {step : Step} {index : Nat} {was is : GroupRecord}
    (h : RecordChange scene step index was is) (hsound : was.Sound) (hnot : ¬ was.Confirmed)
    (his : is.Confirmed) : was.phase = .casualtiesSelected := by
  have hshape := hsound.shape
  cases h with
  | kept told => exact absurd his hnot
  | idle _ hphase =>
    -- A group that has found nothing to do has no losses.
    rw [hphase] at hshape
    rcases his with hconfirmed | ⟨-, hlosses⟩
    · simp at hconfirmed
    · simp [hshape.2] at hlosses
  | rolled => simp [GroupRecord.Confirmed] at his
  | selected => simp [GroupRecord.Confirmed] at his
  | notified _ hphase =>
    rcases hphase with hphase | hphase
    · exact hphase
    · exact absurd (.inl hphase) hnot

namespace StageDone

variable {id : GroupId} {record is : GroupRecord} {stage : Stage}

/-- When a `unit` goes off the board, the `stage` was the notice of a group that takes it off. The
    group is done then. -/
theorem takesOff (h : StageDone id record scene stage after) {unit : UnitId}
    (hrecord : scene.ledger.record id = .ok record)
    (hbefore : scene.host.board.hasUnit unit = true)
    (hafter : after.host.board.hasUnit unit = false) :
    stage = .notify ∧ (record.phase = .casualtiesSelected ∨ record.phase = .confirmed) ∧
      record.TakesOff unit ∧ ∃ told,
        after.ledger.groups[id.index]? = some { record.tell told with phase := .done } := by
  have hfound := Ledger.record_eq_ok.1 hrecord
  cases h with
  | past => exact nomatch hbefore.symm.trans hafter
  | idle => exact nomatch hbefore.symm.trans hafter
  | rolled => exact nomatch hbefore.symm.trans hafter
  | @selected _ _ _ mid losses _ hletters _ =>
    -- Damage takes nobody off.
    have hboard : mid.host.board = scene.host.board := hletters.board
    have hsame : (mid.commitHost record.group (record.dice.getD {}).hits losses).board.hasUnit unit =
        scene.host.board.hasUnit unit := by
      rw [Scene.commitHost_board, hboard]
      exact (Board.standsIn_markDamaged losses.damaged scene.host.board unit "").1
    exact nomatch (hsame.trans hbefore).symm.trans hafter
  | @finished hphase mid hletters =>
    have hdice : Exchanged id (scene.setDice scene.host.dice) mid := hletters.toExchanged
    obtain ⟨told, hgroups⟩ := hdice.getElem?_updateRecord fun was => { was with phase := .done }
    refine ⟨rfl, hphase, Board.takesOff_of_cleared hbefore hafter, told, ?_⟩
    have hgroup := hgroups id.index
    rw [hfound] at hgroup
    exact hgroup.trans (by simp)

/-- Those who have to be `Present` for a group are there when a stage of the group is done. -/
theorem present (h : StageDone id record scene stage after)
    (hrecord : scene.ledger.record id = .ok record)
    (his : after.ledger.groups[id.index]? = some is)
    (hpresent : record.Present scene.host.board) : is.Present after.host.board := by
  cases h with
  | past =>
    obtain rfl := Ledger.eq_of_record hrecord his
    exact hpresent
  | idle =>
    obtain rfl := GroupRecord.eq_of_updated hrecord his
    exact .of_phase (by simp) (by simp)
  | rolled hphase dice hshooters hstand hhits =>
    obtain rfl := GroupRecord.eq_of_updated hrecord his
    exact ⟨fun _ => hstand, by simp⟩
  | @selected hphase targets _ mid losses htargets hletters hcheck =>
    obtain ⟨told, rfl⟩ := GroupRecord.exists_of_commit hrecord hletters.toExchanged his
    have hboard : mid.host.board = scene.host.board := hletters.board
    show GroupRecord.Present (mid.commitHost record.group (record.dice.getD {}).hits losses).board _
    rw [Scene.commitHost_board, hboard]
    refine ⟨fun _ unit hunit => ?_, ?_⟩
    · refine (Board.standsIn_markDamaged _ _ unit _).2.trans ?_
      exact hpresent.firing (.inl hphase) unit hunit
    · rintro - _ ⟨⟩ unit hunit
      -- Whom the group kills was found on the board.
      have htarget := (Losses.valid_of_check hcheck).killed unit hunit
      have hvalid := (Board.map_unit_targets_sublist htargets).subset htarget
      exact (Board.standsIn_markDamaged _ _ unit "").1.trans
        (Board.hasUnit_of_targets htargets unit hvalid)
  | finished _ hletters =>
    obtain ⟨_, rfl⟩ := GroupRecord.exists_of_finish hrecord hletters.toExchanged his
    exact .of_phase (by simp) (by simp)

end StageDone

/-- Who has to be `Present` for a group is there as long as it matters. -/
theorem GroupRecord.present_onTheWay :
    OnTheWay ρ fun board record => record.Present board where
  quiet h := .of_phase (by rcases h with h | h <;> simp [h]) (by rcases h with h | h <;> simp [h])
  stage h hrecord his hpresent := h.present hrecord his hpresent
  failed := by
    rintro step fault board index was is ⟨hsame, -, -, hphase⟩ hpresent
    rcases hphase with hphase | ⟨-, -, hconfirmed, -⟩
    · rw [hsame, hphase]
      exact ⟨hpresent.firing, hpresent.killed⟩
    · exact .of_phase (by simp [hconfirmed]) (by simp [hconfirmed])

/-! ### Acknowledged steps -/

/-- Since the `start` letters have come in which the losses of all groups that are past the
    confirmation are acknowledged. -/
def AcknowledgedSince (start now : Progress ρ) : Prop :=
  ∃ letters, now.scene.host.correspondence = start.scene.host.correspondence ++ letters ∧
    ∀ (index : Nat) (record : GroupRecord), now.scene.ledger.groups[index]? = some record →
      record.Confirmed → record.AcknowledgedIn index letters

variable [RandomSource ρ]

/-- A group is past its selection only after a letter in which its losses are acknowledged,
    `AcknowledgedIn` all that was sent. It came in the notice of the group; until then the board is
    as it was, and the end of the group follows. -/
theorem Proceeds.leaves_acknowledged {start : Progress ρ} {count : Nat} {step : Step}
    {rest : List Step} (hbegins : Begins start) (hattended : start.scene.ledger.headless = false)
    (h : Proceeds Lapse Freely start count ⟨step :: rest, scene⟩) (timing : Timing) {index : Nat}
    {was is : GroupRecord} (hwas : scene.ledger.groups[index]? = some was)
    (his : (Progress.attempt timing ⟨step :: rest, scene⟩).scene.ledger.groups[index]? = some is)
    (hselected : was.phase = .casualtiesSelected) (hleft : is.phase ≠ .casualtiesSelected) :
    step = .stage .notify ⟨index⟩ ∧ ∃ mid sent result,
      mid.host.correspondence = scene.host.correspondence ++ sent ∧
      was.AcknowledgedIn index sent ∧ mid.host.board = scene.host.board ∧
      (Engine.finish ⟨index⟩ was (was.losses.getD {})).onScene mid =
        (result, (Progress.attempt timing ⟨step :: rest, scene⟩).scene) := by
  obtain ⟨hstep, mid, result, hconfirm, hfinish⟩ :=
    Progress.attempt_left timing step rest hwas his hselected hleft
  have hsomebody : scene.ledger.headless = false :=
    h.interlude.steady.headless.trans hattended
  obtain ⟨notice, front, hnotice, hletters, hboard, -⟩ :=
    Engine.confirm_eq_ok hsomebody hconfirm
  refine ⟨hstep, mid, front ++ [_], result, by rw [hletters, List.append_assoc], ?_, hboard,
    hfinish⟩
  -- A notice that was parked is of what is on record too.
  have hsame : notice = Engine.noticeOf scene.ledger was (was.losses.getD {}) := by
    rcases hnotice with hsame | hparked
    · exact hsame
    · obtain ⟨-, record, hrecord, -, -, hsame⟩ := h.apt hbegins.question? _ _ hparked
      obtain rfl : was = record := Option.some.inj (hwas.symm.trans hrecord)
      exact hsame
  have hsound : was.Sound := h.interlude.sound hbegins.groups hwas
  have hshape := hsound.shape
  rw [hselected] at hshape
  obtain ⟨dice, hdice⟩ := Option.isSome_iff_exists.1 hshape.1
  obtain ⟨losses, hlosses⟩ := Option.isSome_iff_exists.1 hshape.2
  refine ⟨notice, ?_, ?_, by simp⟩
  · rw [hsame, hdice, Engine.noticeOf, hdice]
    rfl
  · rw [hsame, hlosses]
    rfl

/-- An attempt at a `step` confirms losses only with a letter in which they are acknowledged. -/
theorem Proceeds.acknowledgedSince_attempt {start : Progress ρ} {count : Nat} {step : Step}
    {rest : List Step} (hbegins : Begins start) (hattended : start.scene.ledger.headless = false)
    (h : Proceeds Lapse Freely start count ⟨step :: rest, scene⟩)
    (hsince : AcknowledgedSince start ⟨step :: rest, scene⟩) (timing : Timing) :
    AcknowledgedSince start (Progress.attempt timing ⟨step :: rest, scene⟩) := by
  obtain ⟨letters, hletters, hacknowledged⟩ := hsince
  obtain ⟨sent, htalked⟩ := Progress.attempt_talked timing step rest scene
  refine ⟨letters ++ sent, ?_, fun index is his hconfirmed => ?_⟩
  · rw [htalked.letters, hletters, List.append_assoc]
  rcases Progress.record_of_attempt his with ⟨-, hfresh⟩ | ⟨was, hwas, hchange⟩
  · rw [hfresh] at hconfirmed
    simp [GroupRecord.Confirmed] at hconfirmed
  have hsound : was.Sound := h.interlude.sound hbegins.groups hwas
  have hfollows := hchange.follows hsound
  by_cases hbefore : was.Confirmed
  · exact ((hacknowledged index was hwas hbefore).follows hfollows).append
  · have hselected := hchange.selected_of_confirmed hsound hbefore hconfirmed
    have hleft : is.phase ≠ .casualtiesSelected := by
      rcases hconfirmed with hphase | ⟨hphase, -⟩
      · simp [hphase]
      · simp [hphase]
    obtain ⟨-, mid, sent', result, hmid, hnow, -, hfinish⟩ :=
      h.leaves_acknowledged hbegins hattended timing hwas his hselected hleft
    -- The end of the group is silent, so that these are the letters of the step.
    have hsent : sent = sent' := by
      have hend := (Engine.finish_host hfinish).1
      rw [htalked.letters, hmid] at hend
      exact List.append_cancel_left hend
    obtain ⟨notice, hdice, hlosses, hletter⟩ := hnow.follows hfollows
    exact ⟨notice, hdice, hlosses, List.mem_append_right _ (hsent ▸ hletter)⟩

/-- Groups whose losses are confirmed were sent an acknowledgement since the `start`. -/
theorem Proceeds.acknowledgedSince {start now : Progress ρ} {count : Nat} (hbegins : Begins start)
    (hattended : start.scene.ledger.headless = false)
    (h : Proceeds Lapse Freely start count now) : AcknowledgedSince start now := by
  -- By induction on the way: an attempt may add letters, and nothing else does.
  induction h with
  | here => exact ⟨[], by simp, by simp [hbegins.groups]⟩
  | @done _ timing _ _ _ _ _ earlier hdone ih =>
    have hnext := earlier.acknowledgedSince_attempt hbegins hattended ih timing
    rwa [Progress.attempt_ok hdone] at hnext
  | @failed _ timing _ _ _ _ _ earlier hfailed ih =>
    have hnext := earlier.acknowledgedSince_attempt hbegins hattended ih timing
    rwa [Progress.attempt_error hfailed] at hnext
  | paused earlier hlapse ih =>
    obtain ⟨letters, hletters, hacknowledged⟩ := ih
    refine ⟨letters, ?_, ?_⟩
    · rw [hlapse.correspondence]
      exact hletters
    · rw [hlapse.groups]
      exact hacknowledged
  | turned earlier hturn ih => exact ih

/-- When steps and groups are in order, all who have to be `Present` for a group are there. -/
theorem Proceeds.present {start now : Progress ρ} {count : Nat} (hbegins : Begins start)
    (h : Proceeds Lapse FiresNext start count now) {index : Nat} {record : GroupRecord}
    (hrecord : now.scene.ledger.groups[index]? = some record) :
    record.Present now.scene.host.board :=
  GroupRecord.present_onTheWay.holds hbegins h.interlude hrecord

/-- Whoever goes off the board in an attempt at a `step` goes because of a group whose notice it
    was, and whose losses are acknowledged by then. -/
theorem Proceeds.takesOff_acknowledged {start : Progress ρ} {count : Nat} {step : Step}
    {rest : List Step} (hbegins : Begins start) (hattended : start.scene.ledger.headless = false)
    (h : Proceeds Lapse Freely start count ⟨step :: rest, scene⟩) (timing : Timing) {unit : UnitId}
    (hbefore : scene.host.board.hasUnit unit = true)
    (hafter : (Progress.attempt timing ⟨step :: rest, scene⟩).scene.host.board.hasUnit unit =
      false) :
    ∃ index record letters, step = .stage .notify ⟨index⟩ ∧
      scene.ledger.groups[index]? = some record ∧ record.TakesOff unit ∧
      (Progress.attempt timing ⟨step :: rest, scene⟩).scene.host.correspondence =
        start.scene.host.correspondence ++ letters ∧ record.AcknowledgedIn index letters := by
  rcases hresult : (step.perform timing).onScene scene with ⟨fault | next, after⟩
  · rw [Progress.attempt_error hresult, (Step.uncommitted_of_error hresult).board] at hafter
    exact nomatch hbefore.symm.trans hafter
  have hnext := h.done hresult
  rw [Progress.attempt_ok hresult] at hafter ⊢
  cases step with
  | plan plan =>
    obtain ⟨groups, -, -, rfl⟩ := Step.perform_plan_ok hresult
    exact nomatch hbefore.symm.trans hafter
  | stage stage id =>
    obtain ⟨-, record, hrecord, hdone⟩ := Step.perform_stage_ok hresult
    have hfound := Ledger.record_eq_ok.1 hrecord
    obtain ⟨rfl, hphase, htakes, told, his⟩ := hdone.takesOff hrecord hbefore hafter
    -- The group has losses, so that it counts as confirmed from now on.
    have hsound : record.Sound := h.interlude.sound hbegins.groups hfound
    have hlosses : record.losses.isSome = true := by
      have hshape := hsound.shape
      rcases hphase with hphase | hphase
      · rw [hphase] at hshape
        exact hshape.2
      · rw [hphase] at hshape
        exact hshape.2
    obtain ⟨letters, hletters, hacknowledged⟩ := hnext.acknowledgedSince hbegins hattended
    have hnow := hacknowledged id.index _ his (.inr ⟨rfl, hlosses⟩)
    exact ⟨id.index, record, letters, rfl, hfound, htakes, hletters, hnow⟩

/-- However an action `Proceeds` in which somebody takes part, losses take effect only once they are
    acknowledged. A group is past its selection only after its notice has brought a letter in which
    the player who was hit accepts the dice and the losses on record; until then the board is as it
    was. A unit goes off the board only in the notice of a group that takes it off, and such a
    letter has come for this group by then. If firings come one after the other, those who fire for
    a group stand in the territory and those whom it kills are on the board until the letter has
    come. -/
theorem losses_acknowledged {start : Progress ρ} (hbegins : Begins start)
    (hattended : start.scene.ledger.headless = false) :
    (∀ (count : Nat) (timing : Timing) (step : Step) (rest : List Step) (scene after : Scene ρ),
      Proceeds Lapse Freely start count ⟨step :: rest, scene⟩ →
      (Progress.attempt timing ⟨step :: rest, scene⟩).scene = after →
      (∀ (index : Nat) (was is : GroupRecord), scene.ledger.groups[index]? = some was →
        after.ledger.groups[index]? = some is → was.phase = .casualtiesSelected →
        is.phase ≠ .casualtiesSelected →
          step = .stage .notify ⟨index⟩ ∧ ∃ mid sent result,
            mid.host.correspondence = scene.host.correspondence ++ sent ∧
            was.AcknowledgedIn index sent ∧ mid.host.board = scene.host.board ∧
            (Engine.finish ⟨index⟩ was (was.losses.getD {})).onScene mid = (result, after)) ∧
      ∀ unit, scene.host.board.hasUnit unit = true → after.host.board.hasUnit unit = false →
        ∃ index record letters, step = .stage .notify ⟨index⟩ ∧
          scene.ledger.groups[index]? = some record ∧ record.TakesOff unit ∧
          after.host.correspondence = start.scene.host.correspondence ++ letters ∧
          record.AcknowledgedIn index letters) ∧
    ∀ (count : Nat) (now : Progress ρ), Proceeds Lapse FiresNext start count now →
      ∀ (index : Nat) (record : GroupRecord), now.scene.ledger.groups[index]? = some record →
        record.Present now.scene.host.board := by
  constructor
  · rintro count timing step rest scene _ h rfl
    constructor
    · intro index was is hwas his hselected hleft
      exact h.leaves_acknowledged hbegins hattended timing hwas his hselected hleft
    · intro unit hbefore hafter
      exact h.takesOff_acknowledged hbegins hattended timing hbefore hafter
  · intro count now h index record hrecord
    exact h.present hbegins hrecord

/-- The bomber that a `Sortie.volley` has killed leaves the board with the notice, and the player
    has accepted it. -/
theorem losses_acknowledged_volley :
    ∃ mid last : Scene ScriptedDice,
      (Agenda.mk Sortie.left none).run {} (some 1)
          (Sortie.rolled false .removeFromBoard Sortie.outcome) =
        (.ok 1, ⟨[.stage .notify ⟨0⟩], none⟩, mid) ∧
      (Progress.attempt {} ⟨[.stage .notify ⟨0⟩], mid⟩).scene = last ∧
      mid.host.board.hasUnit ⟨1⟩ = true ∧ last.host.board.hasUnit ⟨1⟩ = false ∧
      ∃ index record letters, Step.stage .notify ⟨0⟩ = .stage .notify ⟨index⟩ ∧
        mid.ledger.groups[index]? = some record ∧ record.TakesOff ⟨1⟩ ∧
        last.host.correspondence = letters ∧ record.AcknowledgedIn index letters := by
  have hbegins : Begins ⟨[], Sortie.start false .removeFromBoard⟩ := .battle rfl rfl rfl
  have hrun : ∃ mid last : Scene ScriptedDice, (Agenda.mk Sortie.left none).run {} (some 1)
      (Sortie.rolled false .removeFromBoard Sortie.outcome) =
        (.ok 1, ⟨[.stage .notify ⟨0⟩], none⟩, mid) ∧
      (Progress.attempt {} ⟨[.stage .notify ⟨0⟩], mid⟩).scene = last ∧
      mid.host.board.hasUnit ⟨1⟩ = true ∧ last.host.board.hasUnit ⟨1⟩ = false :=
    ⟨_, _, rfl, rfl, rfl, rfl⟩
  obtain ⟨mid, last, hmid, hlast, hbefore, hafter⟩ := hrun
  have hrolled : Proceeds Lapse Freely ⟨[], Sortie.start false .removeFromBoard⟩ (0 + 2)
      ⟨Sortie.left, Sortie.rolled false .removeFromBoard Sortie.outcome⟩ :=
    (Proceeds.here.turned trivial).trans (Sortie.advances false .removeFromBoard).proceeds
  obtain ⟨_, hselected, -⟩ := Agenda.run_proceeds hmid
  obtain ⟨-, hleaves⟩ := (losses_acknowledged hbegins rfl).1 _ {} _ _ mid last
    (hrolled.trans hselected) hlast
  exact ⟨mid, last, hmid, hlast, hbefore, hafter, hleaves ⟨1⟩ hbefore hafter⟩

end Flak
