import Flak.Proofs.Engine.Resolve
import Flak.Proofs.Fire.Advance
import Flak.Proofs.Fire.Planning

namespace Flak

/-!
# When the phase of a group is complained about

A stage complains about the phase of its group if the group has not come so far, and nothing that a
stage does afterwards complains about a phase:

* `Board.orderly_targets`, `Losses.orderly_check`, `Engine.orderly_gunsIn` — what a stage asks the
  board, and what it checks;
* `Stage.ComesTooSoon` — the phases in which a stage complains;
* `Step.perform_orderly` — a step does not complain when it is no stage that comes too soon.
-/

variable {ρ : Type}

/-! ### The board and the losses -/

namespace Board

/-- To look up a unit with its type, by `unitWithType`, is orderly. -/
theorem orderly_unitWithType (board : Board) (id : UnitId) : Orderly (board.unitWithType id) := by
  unfold unitWithType
  split
  · exact .error rfl
  · split
    · exact .error rfl
    · exact .ok _

/-- To make units into targets, by `Board.targets`, is orderly. -/
theorem orderly_targets (board : Board) (ids : List UnitId) : Orderly (board.targets ids) := by
  induction ids with
  | nil => exact .ok []
  | cons id rest ih =>
    rw [targets]
    exact (board.orderly_unitWithType id).bind fun _ => ih.bind fun _ => .ok _

end Board

namespace Losses

/-- To check who is killed, by `killHits`, is orderly. -/
theorem orderly_killHits (targets : List Target) (seen units : List UnitId) :
    Orderly (killHits targets seen units) := by
  induction units generalizing seen with
  | nil => exact .ok _
  | cons unit rest ih =>
    rw [killHits]
    split
    · exact .error rfl
    · split
      · exact .error rfl
      · exact (ih _).bind fun _ => .ok _

/-- To check who is damaged, by `damageHits`, is orderly. -/
theorem orderly_damageHits (targets : List Target) (seen : List UnitId)
    (damaged : List (UnitId × Nat)) : Orderly (damageHits targets seen damaged) := by
  induction damaged generalizing seen with
  | nil => exact .ok _
  | cons entry rest ih =>
    rw [damageHits]
    split
    · exact .error rfl
    · split
      · exact .error rfl
      · exact (ih _).bind fun _ => .ok _

/-- To `check` losses is orderly. -/
theorem orderly_check (losses : Losses) (targets : List Target) (hits : Nat) :
    Orderly (losses.check targets hits) := by
  unfold check
  split
  · exact .bind (.error rfl) fun _ => .bind (orderly_killHits _ _ _) fun _ =>
      .bind (orderly_damageHits _ _ _) fun _ => by
        dsimp only
        split
        · exact .error rfl
        · exact .ok ()
  · exact .bind (orderly_killHits _ _ _) fun _ => .bind (orderly_damageHits _ _ _) fun _ => by
      dsimp only
      split
      · exact .error rfl
      · exact .ok ()

end Losses

/-! ### Stages -/

/-- What is put together from `Orderly` parts is orderly. -/
theorem Engine.orderly_bind {α β : Type} {first : Engine ρ α} {next : α → Engine ρ β}
    {scene : Scene ρ} (hfirst : Orderly (first.onScene scene).1)
    (hnext : ∀ a mid, Orderly ((next a).onScene mid).1) :
    Orderly ((first >>= next).onScene scene).1 := by
  rcases h : first.onScene scene with ⟨fault | a, mid⟩
  · rw [h] at hfirst
    rw [onScene_bind_error h]
    exact .error (hfirst fault rfl)
  · rw [onScene_bind_ok h]
    exact hnext a mid

/-- Whether a `Stage` comes before its group is in a `phase` that has a place for it. -/
def Stage.ComesTooSoon (phase : Phase) : Stage → Prop
  | .roll => False
  | .select => phase = .pendingRoll
  | .notify => phase = .pendingRoll ∨ phase = .rolled

namespace Engine

variable {id : GroupId} {record : GroupRecord} {scene : Scene ρ}

/-- To find the guns, by `gunsIn`, is orderly. -/
theorem orderly_gunsIn (board : Board) (territory : String) (units : List UnitId) :
    Orderly (gunsIn board territory units) := by
  induction units with
  | nil => exact .ok []
  | cons unit rest ih =>
    rw [gunsIn]
    split
    · exact (board.orderly_unitWithType unit).bind fun _ => ih.bind fun _ => .ok _
    · exact ih

/-- A roll by `rollDice` is orderly: it is never too soon. -/
theorem rollDice_orderly [RandomSource ρ] (hrecord : scene.ledger.record id = .ok record) :
    Orderly ((rollDice id).onScene scene).1 := by
  by_cases hphase : record.phase = .pendingRoll
  · rw [rollDice_onScene hrecord hphase]
    have hguns := orderly_gunsIn scene.host.board record.group.territory record.group.firingUnits
    cases h : gunsIn scene.host.board record.group.territory record.group.firingUnits with
    | error fault => exact .error (hguns fault h)
    | ok guns =>
      dsimp only
      split
      · exact .ok ()
      · exact .ok ()
  · rw [rollDice_onScene_past hrecord hphase]
    exact .ok ()

/-- A choice by `chooseLosses` is orderly. -/
theorem chooseLosses_orderly [RandomSource ρ] (timing : Timing) (record : GroupRecord)
    (id : GroupId) (roll : Roll) (targets : List Target) (scene : Scene ρ) :
    Orderly ((chooseLosses timing record id roll targets).onScene scene).1 := by
  rw [chooseLosses_onScene]
  generalize scene.proposal record targets roll.hits = proposal
  dsimp only
  cases hcheck : proposal.1.check targets roll.hits with
  | error fault => exact .error (proposal.1.orderly_check targets roll.hits fault hcheck)
  | ok _ =>
    dsimp only
    -- If somebody is asked, the letters never complain about a phase.
    split
    · have hasked := (askForLosses_exchanges id record.group.hitPlayer timing
        (requestOf scene.ledger record.group roll targets proposal.1)
          (scene.setDice proposal.2)).2
      rcases hanswer : (askForLosses timing id record.group.hitPlayer
        (requestOf scene.ledger record.group roll targets proposal.1)).onScene
          (scene.setDice proposal.2) with ⟨fault | choice, after⟩
      · rw [hanswer] at hasked
        exact .error (hasked fault rfl)
      · exact .ok _
    · exact .ok _

/-- A selection by `selectCasualties` is orderly once its group has rolled. -/
theorem selectCasualties_orderly [RandomSource ρ] (timing : Timing)
    (hrecord : scene.ledger.record id = .ok record) (hcome : record.phase ≠ .pendingRoll) :
    Orderly ((selectCasualties timing id).onScene scene).1 := by
  by_cases hphase : record.phase = .rolled
  · have htargets := scene.host.board.orderly_targets record.validTargets
    cases h : scene.host.board.targets record.validTargets with
    | error fault =>
      rw [selectCasualties_onScene timing hrecord hphase, h]
      exact .error (htargets fault h)
    | ok targets =>
      by_cases hhits : (record.dice.getD {}).hits = 0
      · rw [selectCasualties_onScene_no_hits hrecord hphase h hhits]
        exact .ok ()
      · have hchoice := chooseLosses_orderly timing record id (record.dice.getD {}) targets scene
        rcases hchosen : (chooseLosses timing record id (record.dice.getD {}) targets).onScene scene
          with ⟨fault | losses, mid⟩
        · rw [hchosen] at hchoice
          rw [selectCasualties_onScene_unchosen hrecord hphase h hhits hchosen]
          exact .error (hchoice fault rfl)
        · rw [selectCasualties_onScene_chosen hrecord hphase h hhits hchosen]
          exact .ok ()
  · rw [selectCasualties_onScene_not_due timing hrecord hphase]
    refine Orderly.map ?_ _
    -- The group is past its selection.
    cases h : record.phase with
    | pendingRoll => exact absurd h hcome
    | rolled => exact absurd h hphase
    | _ => simpa [due, h, Phase.rank] using Orderly.ok false

/-- To `confirm` losses is orderly. -/
theorem confirm_orderly (id : GroupId) (record : GroupRecord) (losses : Losses)
    (scene : Scene ρ) : Orderly ((confirm id record losses).onScene scene).1 := by
  cases hheadless : scene.ledger.headless with
  | true =>
    simp only [confirm, onScene_bind, onScene_get, hheadless, Bool.not_true, Bool.false_eq_true,
      if_false, onScene_changeLedger]
    exact .ok ()
  | false =>
    have hexchanged := (confirmLosses_exchanges id record.group
      (noticeOf scene.ledger record losses) scene).2
    simp only [confirm, onScene_bind_ok (onScene_get scene), hheadless, Bool.not_false, if_true]
    exact orderly_bind hexchanged fun _ mid => .ok ()

/-- To `finish` a group is orderly. -/
theorem finish_orderly (id : GroupId) (record : GroupRecord) (losses : Losses) (scene : Scene ρ) :
    Orderly ((finish id record losses).onScene scene).1 := by
  rcases finish_onScene id record losses scene with ⟨-, heq⟩ | ⟨-, heq⟩
  · rw [heq]
    exact .ok ()
  · rw [heq]
    exact .error rfl

/-- A notice by `notifyCasualties` is orderly once its group has selected. -/
theorem notifyCasualties_orderly (hrecord : scene.ledger.record id = .ok record)
    (hcome : record.phase ≠ .pendingRoll ∧ record.phase ≠ .rolled) :
    Orderly ((notifyCasualties id).onScene scene).1 := by
  by_cases hselected : record.phase = .casualtiesSelected
  · rw [notifyCasualties_onScene hrecord hselected]
    refine orderly_bind (confirm_orderly id record _ scene) fun _ mid => ?_
    exact finish_orderly id record _ mid
  · by_cases hconfirmed : record.phase = .confirmed
    · rw [notifyCasualties_onScene_confirmed hrecord hconfirmed]
      exact finish_orderly id record _ scene
    · rw [notifyCasualties_onScene_not_due hrecord hselected hconfirmed]
      refine Orderly.map ?_ _
      -- The group is done.
      cases h : record.phase with
      | pendingRoll => exact absurd h hcome.1
      | rolled => exact absurd h hcome.2
      | casualtiesSelected => exact absurd h hselected
      | confirmed => exact absurd h hconfirmed
      | done => simpa [due, h, Phase.rank] using Orderly.ok false

end Engine

/-! ### Steps -/

/-- What a `plan` comes to is orderly. -/
theorem Plan.orderly_groupsOn (plan : Plan) (scene : Scene ρ) : Orderly (plan.groupsOn scene) := by
  have hterritory (name : String) : Orderly (scene.host.board.territory name) := by
    unfold Board.territory
    split
    · exact .ok _
    · exact .error rfl
  cases plan with
  | overflight name targets =>
    unfold groupsOn
    dsimp only
    split
    · exact .ok []
    · exact (hterritory name).map _
  | battle fire => exact (hterritory fire.territory).map _

variable [RandomSource ρ]

/-- A `step` complains about a phase only if it is a stage that `ComesTooSoon`. -/
theorem Step.perform_orderly (timing : Timing) (step : Step) (scene : Scene ρ)
    (hcome : ∀ (stage : Stage) (id : GroupId) (record : GroupRecord), step = .stage stage id →
      scene.ledger.record id = .ok record → ¬ stage.ComesTooSoon record.phase) :
    Orderly ((step.perform timing).onScene scene).1 := by
  cases step with
  | plan plan =>
    rw [perform_plan_onScene, Plan.carryOut_onScene]
    cases hgroups : plan.groupsOn scene with
    | error fault => exact .error (plan.orderly_groupsOn scene fault hgroups)
    | ok groups => exact .ok _
  | stage stage id =>
    rw [perform_stage_onScene]
    refine Orderly.map ?_ _
    -- A group that is not entered is another kind of fault.
    cases hrecord : scene.ledger.record id with
    | error fault =>
      rw [Engine.perform_of_no_record stage hrecord]
      unfold Ledger.record at hrecord
      split at hrecord
      · simp at hrecord
      · obtain rfl := Except.error.inj hrecord
        exact .error rfl
    | ok record =>
      have hlate := hcome stage id record rfl hrecord
      cases stage with
      | roll => exact Engine.rollDice_orderly hrecord
      | select => exact Engine.selectCasualties_orderly timing hrecord hlate
      | notify => exact Engine.notifyCasualties_orderly hrecord (not_or.1 hlate)

end Flak
