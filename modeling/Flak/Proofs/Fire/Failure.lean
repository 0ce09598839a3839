import Flak.Proofs.Engine.Resolve
import Flak.Proofs.Fire.Advance
import Flak.Proofs.Fire.Planning

namespace Flak

/-!
# A step that fails commits nothing

* `RecordKept`, `Uncommitted` — what a step that fails may still have done: requests are parked, the
  firing player has been shown the losses, the losses are confirmed though the dead cannot be taken
  off the board.
* `Step.uncommitted_of_error` — a step that fails has done nothing else.
* `Agenda.failure_commits_nothing` — neither has a run that stops at it, since the step before.
-/

variable {ρ : Type} {timing : Timing} {id : GroupId} {record : GroupRecord}
  {scene mid after : Scene ρ}

/-- The reports among the correspondence of the `host`. -/
def Host.reports (host : Host ρ) : List Event := host.correspondence.filter Event.isReport

/-- What a `step` that fails may do to the record at an `index`: mark its firing player as told,
    and, if it is the notice of that group and the dead cannot be taken off the board, its losses as
    confirmed. -/
structure RecordKept (step : Step) (fault : Fault) (board : Board) (index : Nat)
    (before after : GroupRecord) : Prop where
  same : after = { before with enemyNotified := after.enemyNotified, phase := after.phase }
  enemyNotified : before.enemyNotified → after.enemyNotified
  other : (∀ stage, step ≠ .stage stage ⟨index⟩) → after = before
  phase : after.phase = before.phase ∨
    step = .stage .notify ⟨index⟩ ∧ before.phase = .casualtiesSelected ∧
      after.phase = .confirmed ∧ fault = .unknownTerritory before.group.territory ∧
      board.CannotClear before (before.losses.getD {})

/-- What a `step` that fails may do to a scene. The slot of execution is held if it was held before
    or given up in between; apart from that only records, as in `RecordKept`, and parked requests
    change. -/
structure Uncommitted (step : Step) (fault : Fault) (before after : Scene ρ) : Prop where
  board : after.host.board = before.host.board
  player : after.host.player = before.host.player
  history : after.host.history = before.host.history
  reports : after.host.reports = before.host.reports
  slot : after.host.inDelegate =
    (before.host.inDelegate || decide (before.host.yields < after.host.yields))
  ledger : after.ledger =
    { before.ledger with groups := after.ledger.groups, parked := after.ledger.parked }
  length : after.ledger.groups.length = before.ledger.groups.length
  groups : ∀ (index : Nat) (was is : GroupRecord), before.ledger.groups[index]? = some was →
    after.ledger.groups[index]? = some is →
      RecordKept step fault before.host.board index was is

namespace RecordKept

variable {step : Step} {fault : Fault} {board : Board} {index : Nat}

/-- A `record` is kept as it is. -/
theorem refl (record : GroupRecord) : RecordKept step fault board index record record :=
  ⟨rfl, fun h => h, fun _ => rfl, .inl rfl⟩

/-- A `record` is kept if its firing player is told. -/
theorem tell (told : Bool) (stage : Stage) (record : GroupRecord) :
    RecordKept (.stage stage id) fault board id.index record (record.tell told) where
  same := rfl
  enemyNotified h := by simp [GroupRecord.tell, h]
  other h := absurd rfl (h stage)
  phase := .inl rfl

end RecordKept

namespace Uncommitted

variable {step : Step} {fault : Fault}

/-- Nothing is committed where nothing happens: the scene is `Uncommitted`. -/
theorem refl (scene : Scene ρ) : Uncommitted step fault scene scene where
  board := rfl
  player := rfl
  history := rfl
  reports := rfl
  slot := by simp
  ledger := rfl
  length := rfl
  groups index was is hwas his := by
    obtain rfl : was = is := Option.some.inj (hwas.symm.trans his)
    exact .refl was

/-- Letters about a group and a `change` of its record that fits commit nothing. -/
theorem of_exchanged {dice : ρ} {change : GroupRecord → GroupRecord}
    (h : Exchanged id (scene.setDice dice) mid)
    (hkept : ∀ told was, scene.ledger.groups[id.index]? = some was →
      RecordKept step fault scene.host.board id.index was (change (was.tell told))) :
    Uncommitted step fault scene (mid.updateRecord id change) where
  board := h.board
  player := h.player
  history := h.history
  reports := by
    obtain ⟨sent, hsent, hno⟩ := h.letters
    have hnone : sent.filter Event.isReport = [] :=
      List.filter_eq_nil_iff.2 fun event hevent => by simp [hno event hevent]
    show mid.host.correspondence.filter Event.isReport = _
    rw [hsent, List.filter_append, hnone, List.append_nil]
    rfl
  slot := h.slot
  ledger := by
    obtain ⟨told, parked, hledger⟩ := h.ledger
    simp only [Scene.updateRecord, Ledger.updateRecord, hledger]
    rfl
  length := (Ledger.length_updateRecord _ _ _).trans h.length_groups
  groups index was is hwas his := by
    obtain ⟨told, parked, hledger⟩ := h.ledger
    simp only [Scene.updateRecord, Ledger.updateRecord, hledger, Scene.setDice,
      List.getElem?_modify, hwas] at his
    -- No record but that of the group can have changed.
    by_cases hindex : id.index = index
    · subst hindex
      obtain rfl : change (was.tell told) = is := by simpa using his
      exact hkept told was hwas
    · obtain rfl : was = is := by simpa [hindex] using his
      exact .refl was

end Uncommitted

/-! ### The stages of a group -/

namespace Engine

variable {fault : Fault}

/-- Letters alone commit nothing, whatever the `dice` were rolled to. -/
theorem uncommitted_of_letters {stage : Stage} {dice : ρ}
    (h : Exchanged id (scene.setDice dice) after) :
    Uncommitted (.stage stage id) fault scene after := by
  have hsame : after.updateRecord id (fun record => record) = after := by
    have hgroups : after.ledger.groups.modify id.index (fun record => record) =
        after.ledger.groups := List.modify_id _ _
    simp only [Scene.updateRecord, Ledger.updateRecord, hgroups]
  rw [← hsame]
  exact .of_exchanged h fun told was _ => .tell told stage was

/-- A roll by `rollDice` that fails commits nothing. -/
theorem rollDice_uncommitted [RandomSource ρ] (hrecord : scene.ledger.record id = .ok record)
    (h : (rollDice id).onScene scene = (.error fault, after)) :
    Uncommitted (.stage .roll id) fault scene after := by
  by_cases hphase : record.phase = .pendingRoll
  · rw [rollDice_onScene hrecord hphase] at h
    cases hguns : gunsIn scene.host.board record.group.territory record.group.firingUnits with
    | error fault' =>
      rw [hguns] at h
      obtain ⟨-, rfl⟩ := Prod.mk.inj h
      exact .refl scene
    | ok guns =>
      rw [hguns] at h
      dsimp only at h
      split at h <;> simp at h
  · rw [rollDice_onScene_past hrecord hphase] at h
    simp at h

/-- A selection by `selectCasualties` that fails commits nothing. -/
theorem selectCasualties_uncommitted [RandomSource ρ]
    (hrecord : scene.ledger.record id = .ok record)
    (h : (selectCasualties timing id).onScene scene = (.error fault, after)) :
    Uncommitted (.stage .select id) fault scene after := by
  by_cases hphase : record.phase = .rolled
  · rcases selectCasualties_cases timing hrecord hphase with
      ⟨fault', after', dice, heq, hexchanged⟩ | ⟨_, _, _, _, _, _, _, heq⟩
    · rw [heq] at h
      obtain ⟨-, rfl⟩ := Prod.mk.inj h
      exact uncommitted_of_letters hexchanged.toExchanged
    · rw [heq] at h
      simp at h
  · rw [selectCasualties_onScene_not_due timing hrecord hphase] at h
    obtain ⟨-, rfl⟩ := Prod.mk.inj h
    exact .refl scene

/-- If `finish` fails on confirmed `losses`, the dead cannot be taken off the board. -/
theorem finish_eq_error {losses : Losses}
    (h : (finish id record losses).onScene scene = (.error fault, after)) :
    fault = .unknownTerritory record.group.territory ∧ after = scene ∧
      scene.host.board.CannotClear record losses := by
  rcases finish_onScene id record losses scene with ⟨-, heq⟩ | ⟨hcannot, heq⟩
  · rw [heq] at h
    simp at h
  · rw [heq] at h
    obtain ⟨hfault, rfl⟩ := Prod.mk.inj h
    exact ⟨(Except.error.inj hfault).symm, rfl, hcannot⟩

/-- A notice by `notifyCasualties` that fails commits nothing. -/
theorem notifyCasualties_uncommitted (hrecord : scene.ledger.record id = .ok record)
    (h : (notifyCasualties id).onScene scene = (.error fault, after)) :
    Uncommitted (.stage .notify id) fault scene after := by
  by_cases hselected : record.phase = .casualtiesSelected
  · rw [notifyCasualties_onScene hrecord hselected] at h
    obtain ⟨result, mid, hexchanged, hconfirm⟩ :=
      confirm_cases id record (record.losses.getD {}) scene
    cases result with
    | error fault' =>
      rw [onScene_bind_error hconfirm] at h
      obtain ⟨-, rfl⟩ := Prod.mk.inj h
      have hdice : Exchanged id (scene.setDice scene.host.dice) mid := hexchanged.toExchanged
      exact uncommitted_of_letters hdice
    | ok _ =>
      rw [onScene_bind_ok hconfirm] at h
      obtain ⟨rfl, rfl, hcannot⟩ := finish_eq_error h
      have hdice : Exchanged id (scene.setDice scene.host.dice) mid := hexchanged.toExchanged
      have hboard : mid.host.board = scene.host.board := hexchanged.board
      -- The phase was entered before the board turned out to be in the way.
      refine .of_exchanged hdice fun told was hwas => ?_
      have hsame : was = record := by
        rw [Ledger.record, hwas] at hrecord
        exact Except.ok.inj hrecord
      subst hsame
      exact {
        same := rfl
        enemyNotified := fun h => by simp [GroupRecord.tell, h]
        other := fun h => absurd rfl (h .notify)
        phase := .inr ⟨rfl, hselected, rfl, rfl, hboard ▸ hcannot⟩ }
  · by_cases hconfirmed : record.phase = .confirmed
    · rw [notifyCasualties_onScene_confirmed hrecord hconfirmed] at h
      obtain ⟨-, rfl, -⟩ := finish_eq_error h
      exact .refl after
    · rw [notifyCasualties_onScene_not_due hrecord hselected hconfirmed] at h
      obtain ⟨-, rfl⟩ := Prod.mk.inj h
      exact .refl scene

end Engine

/-! ### Steps and runs -/

variable [RandomSource ρ]

/-- A `step` that fails commits nothing: it is `Uncommitted`. -/
theorem Step.uncommitted_of_error {step : Step} {fault : Fault}
    (h : (step.perform timing).onScene scene = (.error fault, after)) :
    Uncommitted step fault scene after := by
  cases step with
  | plan plan =>
    -- A plan fails before it enters its first group.
    rw [perform_plan_onScene, Plan.carryOut_onScene] at h
    cases hgroups : plan.groupsOn scene with
    | error fault' =>
      rw [hgroups] at h
      obtain ⟨-, rfl⟩ := Prod.mk.inj h
      exact .refl scene
    | ok groups =>
      rw [hgroups] at h
      simp [Except.map] at h
  | stage stage id =>
    have hstage : (stage.perform timing id).onScene scene = (.error fault, after) := by
      rw [perform_stage_onScene] at h
      rcases hresult : (stage.perform timing id).onScene scene with ⟨_ | _, last⟩
      · simpa [hresult, Except.map] using h
      · simp [hresult, Except.map] at h
    cases hrecord : scene.ledger.record id with
    | error fault' =>
      rw [Engine.perform_of_no_record stage hrecord] at hstage
      obtain ⟨-, rfl⟩ := Prod.mk.inj hstage
      exact .refl scene
    | ok record =>
      cases stage with
      | roll => exact Engine.rollDice_uncommitted hrecord hstage
      | select => exact Engine.selectCasualties_uncommitted hrecord hstage
      | notify => exact Engine.notifyCasualties_uncommitted hrecord hstage

/-- A run that fails was stopped by one `step`: the steps before it succeeded, the same run limited
    to these ends where the step began, what is left to do is what was left to do there, and since
    then nothing was committed. -/
theorem Agenda.failure_commits_nothing (timing : Timing) (limit : Option Nat)
    (agenda agenda' : Agenda Step) (scene scene' : Scene ρ) (fault : Fault)
    (h : agenda.run timing limit scene = (.error fault, agenda', scene')) :
    ∃ count step rest mid,
      agenda.run timing (some count) scene = (.ok count, ⟨step :: rest, none⟩, mid) ∧
        (∀ bound, limit = some bound → count < bound) ∧
        agenda'.pending = step :: rest ∧ Uncommitted step fault mid scene' := by
  obtain ⟨count, step, rest, mid, hadvances, hon, herror, rfl⟩ := run_error h
  -- The step that failed had been put back in front.
  have hreaches : Reaches (some count) count (step :: rest) := by simp [Reaches]
  exact ⟨count, step, rest, mid, run_eq_ok hadvances hreaches, hon, rfl,
    Step.uncommitted_of_error herror⟩

/-- A `Scene` whose only group has killed a unit in a territory that is not on the board. -/
def strandedScene : Scene ScriptedDice where
  host := { board := {}, player := ⟨"Reds"⟩, headless := true, dice := ⟨[0], 0⟩ }
  ledger := {
    player := ⟨"Reds"⟩
    headless := true
    groups := [{
      id := ⟨0⟩
      group := {
        territory := "Atlantis"
        kind := "AA Gun"
        firingPlayer := ⟨"Blues"⟩
        hitPlayer := ⟨"Reds"⟩
        firingUnits := [⟨2⟩]
        targets := [⟨1⟩]
        suicideOnHit := false
        removal := .removeFromBoard }
      phase := .casualtiesSelected
      losses := some { killed := [⟨1⟩] } }]
    casualties := [⟨1⟩] }

/-- On the `strandedScene` the notice fails, with its losses confirmed. -/
theorem Agenda.failure_commits_nothing_stranded :
    ∃ scene', Agenda.run {} (some 1) ⟨[.stage .notify ⟨0⟩], none⟩ strandedScene =
        (.error (.unknownTerritory "Atlantis"), ⟨[], some (.stage .notify ⟨0⟩)⟩, scene') ∧
      ∃ count step rest mid,
        Agenda.run {} (some count) ⟨[.stage .notify ⟨0⟩], none⟩ strandedScene =
          (.ok count, ⟨step :: rest, none⟩, mid) ∧
        (∀ bound, some 1 = some bound → count < bound) ∧
        Agenda.pending ⟨[], some (.stage .notify ⟨0⟩)⟩ = step :: rest ∧
        Uncommitted step (.unknownTerritory "Atlantis") mid scene' :=
  ⟨_, rfl, failure_commits_nothing {} (some 1) _ _ _ _ _ rfl⟩

end Flak
