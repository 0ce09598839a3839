import Flak.Proofs.Board.Wear
import Flak.Proofs.Engine.Resolve
import Flak.Proofs.Losses.Selection

namespace Flak

/-!
# Stages that fail because of remote players only

A stage that finds on the board what it needs can fail only because somebody has to be asked:

* `Dependable` — a result that is a fault only if somebody takes part, and then one that comes of
  asking;
* `Engine.Asks` — exchanges of letters that fail in this way only;
* `Board.exists_targets`, `Engine.exists_gunsIn` — what a stage looks up is found;
* `Engine.rollDice_ok`, `Engine.selectCasualties_dependable`, `Engine.notifyCasualties_dependable` —
  the three stages.
-/

variable {ρ α β : Type}

/-- A `result` that is a fault only if somebody takes part, and then one that comes of asking remote
    players. -/
def Dependable (headless : Bool) (result : Except Fault α) : Prop :=
  ∀ fault, result = .error fault → headless = false ∧ fault.isRemote = true

namespace Dependable

variable {headless : Bool}

/-- A value is `Dependable`. -/
theorem ok (a : α) : Dependable headless (.ok a) := by
  intro fault h
  simp at h

/-- A `result` that is a value is `Dependable`. -/
theorem of_eq_ok {result : Except Fault α} {a : α} (h : result = .ok a) :
    Dependable headless result :=
  h ▸ ok a

/-- A `fault` that comes of asking remote players is `Dependable` if somebody takes part. -/
theorem error {fault : Fault} (h : fault.isRemote = true) :
    Dependable false (.error fault : Except Fault α) := by
  rintro _ ⟨⟩
  exact ⟨rfl, h⟩

/-- What was made of a `Dependable` result is dependable. -/
theorem map {first : Except Fault α} (h : Dependable headless first) (make : α → β) :
    Dependable headless (first.map make) := by
  cases first with
  | error fault =>
    rintro _ ⟨⟩
    exact h fault rfl
  | ok a => exact .ok (make a)

/-- Without anybody who takes part there is no fault in a `Dependable` result. -/
theorem exists_ok {result : Except Fault α} (h : Dependable true result) :
    ∃ a, result = .ok a := by
  cases result with
  | error fault => simpa using (h fault rfl).1
  | ok a => exact ⟨a, rfl⟩

end Dependable

namespace Engine

/-! ### Exchanges -/

/-- A computation `x` of letters: if they fail, then because of remote players. -/
def Asks (x : Engine ρ α) : Prop := ∀ scene, Dependable false (x.onScene scene).1

/-- Whatever is put together from `Letters` fails because of remote players only. -/
theorem Letters.asks {id : GroupId} {x : Engine ρ α} (h : Letters id x) : Asks x := by
  -- By the letters of the computation. Only to send a notice can fail, and for want of a player.
  induction h with
  | pure a => exact fun scene => .ok a
  | throw h => exact fun scene => .error h
  | @bind _ _ x f _ _ ihx ihf =>
    intro scene
    have hresult := ihx scene
    rw [onScene_bind]
    rcases hfirst : x.onScene scene with ⟨fault | a, after⟩
    · rw [hfirst] at hresult
      exact .error (hresult fault rfl).2
    · exact ihf a after
  | scene => exact fun scene => .ok scene
  | told => exact fun scene => .ok ()
  | inform player notice hit => exact fun scene => .ok ()
  | unpark player => exact fun scene => .ok _
  | await player timeout question keep asked =>
    intro scene
    rw [await_onScene]
    rcases scene.host.await asked.call timeout with ⟨outcome, call, host⟩
    cases outcome <;> exact .ok _
  | sendConfirmation player notice =>
    intro scene
    rw [sendConfirmation_onScene]
    cases scene.host.askConfirmation player id notice with
    | none => exact .error rfl
    | some asked => exact .ok _
  | sendChoice player request =>
    intro scene
    rw [sendChoice_onScene]
    cases scene.host.askChoice player id request <;> exact .ok _

end Engine

/-! ### What stages look up -/

namespace Board

variable {board : Board}

/-- A unit that is there and `Typed` is found with its type. -/
theorem exists_unitWithType {id : UnitId} (hunit : board.hasUnit id = true)
    (htyped : board.Typed id) : ∃ entry, board.unitWithType id = .ok entry := by
  obtain ⟨unit, hfound⟩ := Option.isSome_iff_exists.1 hunit
  obtain ⟨type, htype⟩ := Option.isSome_iff_exists.1 (htyped unit hfound)
  exact ⟨(unit, type), unitWithType_eq_ok.2 ⟨hfound, htype⟩⟩

/-- Units that are there and `Typed` can be made into targets. -/
theorem exists_targets {units : List UnitId}
    (hunits : ∀ unit ∈ units, board.hasUnit unit = true ∧ board.Typed unit) :
    ∃ targets, board.targets units = .ok targets := by
  induction units with
  | nil => exact ⟨[], rfl⟩
  | cons id rest ih =>
    obtain ⟨hunit, htyped⟩ := hunits id List.mem_cons_self
    obtain ⟨⟨unit, type⟩, hid⟩ := exists_unitWithType hunit htyped
    obtain ⟨others, hothers⟩ := ih fun other hother => hunits other (List.mem_cons_of_mem id hother)
    rw [targets, hid, hothers]
    exact ⟨_, rfl⟩

end Board

namespace Engine

variable {id : GroupId} {scene : Scene ρ} {record : GroupRecord}

/-- The guns of units that are `Typed` can be found. -/
theorem exists_gunsIn {board : Board} {units : List UnitId} (territory : String)
    (htyped : ∀ unit ∈ units, board.Typed unit) :
    ∃ guns, gunsIn board territory units = .ok guns := by
  induction units with
  | nil => exact ⟨[], rfl⟩
  | cons unit rest ih =>
    obtain ⟨guns, hguns⟩ := ih fun other hother => htyped other (List.mem_cons_of_mem unit hother)
    rw [gunsIn]
    by_cases hstands : board.standsIn unit territory = true
    · have hunit : board.hasUnit unit = true := by
        simp only [Board.standsIn, Bool.and_eq_true] at hstands
        exact hstands.1
      obtain ⟨⟨_, type⟩, hfound⟩ :=
        Board.exists_unitWithType hunit (htyped unit List.mem_cons_self)
      rw [if_pos hstands, hfound, hguns]
      exact ⟨_, rfl⟩
    · rw [if_neg hstands]
      exact ⟨guns, hguns⟩

/-! ### The stages -/

/-- A roll by `rollDice` does not fail if the types of the guns are declared. -/
theorem rollDice_ok [RandomSource ρ] (hrecord : scene.ledger.record id = .ok record)
    (htyped : ∀ unit ∈ record.group.firingUnits, scene.host.board.Typed unit) :
    ((rollDice id).onScene scene).1 = .ok () := by
  by_cases hphase : record.phase = .pendingRoll
  · obtain ⟨guns, hguns⟩ := exists_gunsIn record.group.territory htyped
    rw [rollDice_onScene hrecord hphase, hguns]
    dsimp only
    split <;> rfl
  · rw [rollDice_onScene_past hrecord hphase]

/-- A choice by `chooseLosses` among `targets` that were found fails because of remote players
    only. -/
theorem chooseLosses_dependable [RandomSource ρ] (timing : Timing) (id : GroupId) {roll : Roll}
    {targets : List Target}
    (htargets : scene.host.board.targets record.validTargets = .ok targets)
    (hnodup : record.validTargets.Nodup) (hhits : roll.hits < Losses.hitModulus) :
    Dependable scene.ledger.headless
      ((chooseLosses timing record id roll targets).onScene scene).1 := by
  have hunits : (targets.map Target.unit).Nodup :=
    hnodup.sublist (Board.map_unit_targets_sublist htargets)
  have hcheck : (scene.proposal record targets roll.hits).1.check targets roll.hits = .ok () :=
    Losses.check_select hunits (Board.hitPoints_targets htargets).1 hhits _ _ _
  rw [chooseLosses_onScene]
  dsimp only
  rw [hcheck]
  dsimp only
  split
  · rename_i hinteractive
    -- Nobody is asked unless somebody takes part.
    have hsomebody : scene.ledger.headless = false := by simpa using hinteractive.2
    have hasked := (askForLosses_letters id record.group.hitPlayer timing
      (requestOf scene.ledger record.group roll targets
        (scene.proposal record targets roll.hits).1)).asks
      (scene.setDice (scene.proposal record targets roll.hits).2)
    rw [hsomebody]
    rcases hanswer : (askForLosses timing id record.group.hitPlayer
      (requestOf scene.ledger record.group roll targets
        (scene.proposal record targets roll.hits).1)).onScene
        (scene.setDice (scene.proposal record targets roll.hits).2) with ⟨fault | choice, after⟩
    · rw [hanswer] at hasked
      exact .error (hasked fault rfl).2
    · exact .ok _
  · exact .ok _

/-- The work of `selectCasualties` fails because of remote players only, if those who may be hit are
    there. -/
theorem selectCasualties_dependable [RandomSource ρ] (timing : Timing)
    (hrecord : scene.ledger.record id = .ok record) (hcome : record.phase ≠ .pendingRoll)
    (htargets : record.phase = .rolled → ∀ unit ∈ record.validTargets,
      scene.host.board.hasUnit unit = true ∧ scene.host.board.Typed unit)
    (hnodup : record.validTargets.Nodup)
    (hhits : (record.dice.getD {}).hits < Losses.hitModulus) :
    Dependable scene.ledger.headless ((selectCasualties timing id).onScene scene).1 := by
  by_cases hphase : record.phase = .rolled
  · obtain ⟨targets, hfound⟩ := Board.exists_targets (htargets hphase)
    by_cases hnone : (record.dice.getD {}).hits = 0
    · rw [selectCasualties_onScene_no_hits hrecord hphase hfound hnone]
      exact .ok ()
    · have hchoice := chooseLosses_dependable timing id hfound hnodup hhits
      rcases hchosen : (chooseLosses timing record id (record.dice.getD {}) targets).onScene scene
        with ⟨fault | losses, mid⟩
      · rw [hchosen] at hchoice
        rw [selectCasualties_onScene_unchosen hrecord hphase hfound hnone hchosen]
        exact hchoice.map fun _ => ()
      · rw [selectCasualties_onScene_chosen hrecord hphase hfound hnone hchosen]
        exact .ok ()
  · rw [selectCasualties_onScene_not_due timing hrecord hphase]
    refine Dependable.map ?_ _
    -- The group is past its selection.
    cases h : record.phase with
    | pendingRoll => exact absurd h hcome
    | rolled => exact absurd h hphase
    | _ => simpa [due, h, Phase.rank] using Dependable.ok false

/-- To `confirm` losses fails because of remote players only. -/
theorem confirm_dependable (scene : Scene ρ) (id : GroupId) (record : GroupRecord)
    (losses : Losses) :
    Dependable scene.ledger.headless ((confirm id record losses).onScene scene).1 := by
  cases hheadless : scene.ledger.headless with
  | true =>
    refine .of_eq_ok (a := ()) ?_
    simp [confirm, onScene_bind, hheadless]
  | false =>
    have hasked := (confirmLosses_letters id record.group
      (noticeOf scene.ledger record losses)).asks scene
    simp only [confirm, onScene_bind_ok (onScene_get scene), hheadless, Bool.not_false, if_true]
    rcases h : (confirmLosses id record.group (noticeOf scene.ledger record losses)).onScene scene
      with ⟨fault | u, mid⟩
    · rw [h] at hasked
      rw [onScene_bind_error h]
      exact .error (hasked fault rfl).2
    · rw [onScene_bind_ok h]
      exact .ok ()

/-- The work of `finish` does not fail if the territory of the group is known. -/
theorem finish_ok (hknown : scene.host.board.Knows record.group.territory) (losses : Losses) :
    ((finish id record losses).onScene scene).1 = .ok () := by
  rcases finish_onScene id record losses scene with ⟨-, heq⟩ | ⟨hcannot, -⟩
  · rw [heq]
  · rw [Board.Knows, hcannot.2] at hknown
    simp at hknown

/-- The work of `notifyCasualties` fails because of remote players only, if the territory of its
    group is known. -/
theorem notifyCasualties_dependable (hrecord : scene.ledger.record id = .ok record)
    (hcome : record.phase ≠ .pendingRoll ∧ record.phase ≠ .rolled)
    (hknown : scene.host.board.Knows record.group.territory) :
    Dependable scene.ledger.headless ((notifyCasualties id).onScene scene).1 := by
  by_cases hselected : record.phase = .casualtiesSelected
  · have hconfirmed := confirm_dependable scene id record (record.losses.getD {})
    rw [notifyCasualties_onScene hrecord hselected]
    obtain ⟨result, mid, hletters, hconfirm⟩ :=
      confirm_cases id record (record.losses.getD {}) scene
    cases result with
    | error fault =>
      rw [hconfirm] at hconfirmed
      rw [onScene_bind_error hconfirm]
      exact hconfirmed
    | ok u =>
      -- Letters leave the board alone, so that the territory is still known.
      have hboard : mid.host.board = scene.host.board := hletters.board
      rw [onScene_bind_ok hconfirm]
      exact .of_eq_ok (finish_ok (hboard ▸ hknown) _)
  · by_cases hconfirmed : record.phase = .confirmed
    · rw [notifyCasualties_onScene_confirmed hrecord hconfirmed]
      exact .of_eq_ok (finish_ok hknown _)
    · rw [notifyCasualties_onScene_not_due hrecord hselected hconfirmed]
      refine Dependable.map ?_ _
      -- The group is done.
      cases h : record.phase with
      | pendingRoll => exact absurd h hcome.1
      | rolled => exact absurd h hcome.2
      | casualtiesSelected => exact absurd h hselected
      | confirmed => exact absurd h hconfirmed
      | done => simpa [due, h, Phase.rank] using Dependable.ok false

end Engine

end Flak
