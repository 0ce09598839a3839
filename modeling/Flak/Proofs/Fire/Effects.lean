import Flak.Proofs.Fire.Performed
import Flak.Proofs.Fire.Toll

namespace Flak

/-!
# What an attempt does to the records

An attempt at a step, whether it succeeds or not, changes the record of one group at most, in one of
few ways:

* `RecordChange` — how an attempt at a step can change the record at a position;
* `GroupRecord.eq_of_updated`, `GroupRecord.exists_of_commit`, `GroupRecord.exists_of_finish` — the
  record of a group after its stages;
* `StageDone.recordChange`, `Uncommitted.recordChange` — so do a stage that is done and a step that
  fails;
* `Progress.record_of_attempt` — every record after an attempt comes from the one at its position in
  one of these ways, or it is fresh;
* `Progress.attempt_record` — every record is still there.
-/

variable {ρ : Type} {timing : Timing} {id : GroupId} {record : GroupRecord} {scene after : Scene ρ}

/-- How an attempt at a `step` on a `scene` can change the record at an `index`. -/
inductive RecordChange (scene : Scene ρ) (step : Step) (index : Nat) (was : GroupRecord) :
    GroupRecord → Prop
  /-- Only that the firing player was told may be new. -/
  | kept (told : Bool) : RecordChange scene step index was (was.tell told)
  /-- Nobody could fire, or at nothing. -/
  | idle (hstep : step = .stage .roll ⟨index⟩) (hphase : was.phase = .pendingRoll) :
      RecordChange scene step index was { was with phase := .done }
  | rolled (hstep : step = .stage .roll ⟨index⟩) (hphase : was.phase = .pendingRoll)
      {shooters : List UnitId} {roll : Roll} (hshooters : shooters.Sublist was.group.firingUnits)
      (hstand : ∀ unit ∈ shooters, scene.host.board.standsIn unit was.group.territory)
      (hhits : roll.hits ≤ (Engine.openTargets scene was.group).length) :
      RecordChange scene step index was { was with
        activeFiring := shooters
        validTargets := Engine.openTargets scene was.group
        dice := some roll
        phase := .rolled }
  | selected (hstep : step = .stage .select ⟨index⟩) (hphase : was.phase = .rolled) (told : Bool)
      {targets : List Target} {losses : Losses}
      (htargets : scene.host.board.targets was.validTargets = .ok targets)
      (hcheck : losses.check targets (was.dice.getD {}).hits = .ok ()) :
      RecordChange scene step index was
        { was.tell told with losses := some losses, phase := .casualtiesSelected }
  /-- The losses are confirmed, and unless the dead cannot be taken off, the group is done. -/
  | notified (hstep : step = .stage .notify ⟨index⟩)
      (hphase : was.phase = .casualtiesSelected ∨ was.phase = .confirmed) (told : Bool)
      {phase : Phase} (hnext : phase = .confirmed ∨ phase = .done) :
      RecordChange scene step index was { was.tell told with phase }

/-! ### Steps that succeed -/

/-- Nothing changes in the other records: that is a `RecordChange` too. -/
theorem RecordChange.same (scene : Scene ρ) (step : Step) (index : Nat) (was : GroupRecord) :
    RecordChange scene step index was was := by
  have h : RecordChange scene step index was (was.tell false) := .kept false
  rwa [GroupRecord.tell_false] at h

/-- A `stage` leaves the phases of other groups alone. -/
theorem RecordChange.phase_of_ne {stage : Stage} {index : Nat} {was is : GroupRecord}
    (h : RecordChange scene (.stage stage id) index was is) (hne : index ≠ id.index) :
    is.phase = was.phase := by
  have hother {due : Stage} (hstep : Step.stage stage id = .stage due ⟨index⟩) : False := by
    obtain ⟨-, rfl⟩ := Step.stage.inj hstep
    exact hne rfl
  cases h with
  | kept told => rfl
  | idle hstep => exact (hother hstep).elim
  | rolled hstep => exact (hother hstep).elim
  | selected hstep => exact (hother hstep).elim
  | notified hstep => exact (hother hstep).elim

/-- The record of a group after a `change` of it was made in the ledger. -/
theorem GroupRecord.eq_of_changed {ledger ledger' : Ledger} {is : GroupRecord}
    {change : GroupRecord → GroupRecord} (hrecord : ledger.record id = .ok record)
    (his : ledger'.groups[id.index]? = some is)
    (hgroups : ledger'.groups[id.index]? = (ledger.groups[id.index]?).map fun was =>
      if id.index = id.index then change was else was) : is = change record := by
  rw [his, Ledger.record_eq_ok.1 hrecord] at hgroups
  simpa using hgroups

/-- The record of a group after `updateRecord` is the changed one. -/
theorem GroupRecord.eq_of_updated {ledger : Ledger} {is : GroupRecord}
    {change : GroupRecord → GroupRecord} (hrecord : ledger.record id = .ok record)
    (his : (ledger.updateRecord id change).groups[id.index]? = some is) : is = change record :=
  eq_of_changed hrecord his (Ledger.getElem?_updateRecord id change ledger id.index)

/-- The record of the `group` after its `losses` were committed. -/
theorem GroupRecord.exists_of_commit {dice : ρ} {group : FiringGroup} {hits : Nat} {losses : Losses}
    {is : GroupRecord} (hrecord : scene.ledger.record id = .ok record)
    (hletters : Exchanged id (scene.setDice dice) mid)
    (his : (mid.commit id group hits losses).ledger.groups[id.index]? = some is) :
    ∃ told, is = { record.tell told with losses := some losses, phase := .casualtiesSelected } := by
  obtain ⟨told, hgroups⟩ := getElem?_commit group hits losses hletters
  exact ⟨told, eq_of_changed hrecord his (hgroups id.index)⟩

/-- The record of a group after its end, by `finish`. -/
theorem GroupRecord.exists_of_finish {is : GroupRecord}
    (hrecord : scene.ledger.record id = .ok record) (hletters : Exchanged id scene mid)
    (his : (mid.ledger.updateRecord id fun was => { was with phase := .done }).groups[id.index]? =
      some is) : ∃ told, is = { record.tell told with phase := .done } := by
  have hdice : Exchanged id (scene.setDice scene.host.dice) mid := hletters
  obtain ⟨told, hgroups⟩ := hdice.getElem?_updateRecord fun was => { was with phase := .done }
  exact ⟨told, eq_of_changed hrecord his (hgroups id.index)⟩

namespace StageDone

variable {stage : Stage}

/-- The record `after` a `stage` that is done comes from the one at its position, by a
    `RecordChange`. -/
theorem recordChange (hrecord : scene.ledger.record id = .ok record)
    (h : StageDone id record scene stage after) {index : Nat} {is : GroupRecord}
    (his : after.ledger.groups[index]? = some is) :
    ∃ was, scene.ledger.groups[index]? = some was ∧
      RecordChange scene (.stage stage id) index was is := by
  -- One change of the record of the group is all there is.
  have hone {change : GroupRecord → GroupRecord}
      (hgroups : after.ledger.groups[index]? = (scene.ledger.groups[index]?).map fun was =>
        if index = id.index then change was else was)
      (hchange : index = id.index →
        RecordChange scene (.stage stage id) index record (change record)) :
      ∃ was, scene.ledger.groups[index]? = some was ∧
        RecordChange scene (.stage stage id) index was is := by
    by_cases hindex : index = id.index
    · subst hindex
      refine ⟨record, Ledger.record_eq_ok.1 hrecord, ?_⟩
      rw [GroupRecord.eq_of_changed hrecord his hgroups]
      exact hchange rfl
    · rw [hgroups] at his
      obtain ⟨was, hwas, hsame⟩ := Option.map_eq_some_iff.1 his
      obtain rfl : was = is := by simpa [hindex] using hsame
      exact ⟨was, hwas, .same scene _ index was⟩
  have hid (hindex : index = id.index) : id = ⟨index⟩ := by
    cases id
    rw [hindex]
  cases h with
  | past =>
    refine @hone (fun was => was) (by simp) fun _ => .same scene _ index record
  | idle hphase =>
    refine hone (Ledger.getElem?_updateRecord id _ scene.ledger index) fun hindex => ?_
    exact .idle (by rw [hid hindex]) hphase
  | rolled hphase dice hshooters hstand hhits =>
    refine hone (Ledger.getElem?_updateRecord id _ scene.ledger index) fun hindex => ?_
    exact .rolled (by rw [hid hindex]) hphase hshooters hstand hhits
  | @selected hphase _ _ _ losses htargets hletters hcheck =>
    obtain ⟨told, hgroups⟩ := getElem?_commit record.group (record.dice.getD {}).hits losses
      hletters.toExchanged
    refine hone (hgroups index) fun hindex => ?_
    exact .selected (by rw [hid hindex]) hphase told htargets hcheck
  | @finished hphase mid hletters =>
    have hdice : Exchanged id (scene.setDice scene.host.dice) mid := hletters.toExchanged
    obtain ⟨told, hgroups⟩ := hdice.getElem?_updateRecord fun was => { was with phase := .done }
    refine hone (hgroups index) fun hindex => ?_
    exact .notified (by rw [hid hindex]) hphase told (.inr rfl)

/-- A selection that is `StageDone` of a group that had rolled. -/
theorem of_rolled {index : Nat} {was : GroupRecord}
    (h : StageDone ⟨index⟩ was scene .select after) (hphase : was.phase = .rolled) :
    ∃ told losses targets, scene.host.board.targets was.validTargets = .ok targets ∧
      losses.check targets (was.dice.getD {}).hits = .ok () ∧
      after.host.board = (Board.markDamaged losses.damaged scene.host.board).2 ∧
      ∀ position : Nat, after.ledger.groups[position]? =
        (scene.ledger.groups[position]?).map fun record => if position = index then
          { record.tell told with losses := some losses, phase := .casualtiesSelected }
          else record := by
  cases h with
  | past _ _ hselect _ => exact absurd hphase (hselect rfl).2
  | @selected _ targets _ mid losses htargets hletters hcheck =>
    obtain ⟨told, hgroups⟩ := getElem?_commit was.group (was.dice.getD {}).hits losses
      hletters.toExchanged
    have hboard : mid.host.board = scene.host.board := hletters.board
    refine ⟨told, losses, targets, htargets, hcheck, ?_, hgroups⟩
    show (mid.commitHost was.group (was.dice.getD {}).hits losses).board = _
    rw [Scene.commitHost_board, hboard]

end StageDone

/-! ### Attempts -/

/-- A record after a `step` that fails comes from the one at its position: it is kept, or its losses
    are confirmed without their dead being taken off. -/
theorem Uncommitted.recordChange {step : Step} {fault : Fault}
    (h : Uncommitted step fault scene after) {index : Nat} {is : GroupRecord}
    (his : after.ledger.groups[index]? = some is) :
    ∃ was, scene.ledger.groups[index]? = some was ∧ RecordChange scene step index was is := by
  have hlt : index < scene.ledger.groups.length := by
    rw [← h.length]
    exact (List.getElem?_eq_some_iff.1 his).1
  obtain ⟨was, hwas⟩ : ∃ was, scene.ledger.groups[index]? = some was :=
    ⟨_, List.getElem?_eq_getElem hlt⟩
  obtain ⟨hsame, htold, -, hphase⟩ := h.groups index was is hwas his
  -- Once told, the firing player stays told.
  have htell : is = { was.tell is.enemyNotified with phase := is.phase } := by
    have hor : is.enemyNotified = (was.enemyNotified || is.enemyNotified) := by
      cases hwasTold : was.enemyNotified with
      | false => rfl
      | true => exact htold hwasTold
    rw [hsame]
    simp only [GroupRecord.tell]
    rw [← hor]
  refine ⟨was, hwas, ?_⟩
  rw [htell]
  rcases hphase with hphase | ⟨hstep, hselected, hconfirmed, -⟩
  · rw [hphase]
    exact .kept is.enemyNotified
  · exact .notified hstep (.inl hselected) is.enemyNotified (.inl hconfirmed)

namespace Progress

variable [RandomSource ρ] {step : Step} {rest : List Step} {index : Nat}

/-- A record after an `attempt` is fresh, or it comes from the one at its position. -/
theorem record_of_attempt {is : GroupRecord}
    (his : (attempt timing ⟨step :: rest, scene⟩).scene.ledger.groups[index]? = some is) :
    (scene.ledger.groups[index]? = none ∧ is = { id := ⟨index⟩, group := is.group }) ∨
      ∃ was, scene.ledger.groups[index]? = some was ∧ RecordChange scene step index was is := by
  have hattempted := attempted timing step rest scene
  generalize attempt timing ⟨step :: rest, scene⟩ = progress at hattempted his
  cases hattempted with
  | failed hkept => exact .inr (hkept.recordChange his)
  | planned =>
    rcases Plan.getElem?_opened his with ⟨-, hold⟩ | ⟨hle, hfresh⟩
    · exact .inr ⟨is, hold, .same scene _ index is⟩
    · refine .inl ⟨List.getElem?_eq_none hle, ?_⟩
      rw [freshRecords, List.getElem?_mapIdx] at hfresh
      obtain ⟨group, -, rfl⟩ := Option.map_eq_some_iff.1 hfresh
      have hindex : scene.ledger.groups.length + (index - scene.ledger.groups.length) = index := by
        omega
      rw [hindex]
  | staged hrecord hdone => exact .inr (hdone.recordChange hrecord his)

/-- No `attempt` takes a group away. -/
theorem length_le_attempt (timing : Timing) (step : Step) (rest : List Step) (scene : Scene ρ) :
    scene.ledger.groups.length ≤
      (attempt timing ⟨step :: rest, scene⟩).scene.ledger.groups.length := by
  have hattempted := attempted timing step rest scene
  generalize attempt timing ⟨step :: rest, scene⟩ = progress at hattempted ⊢
  cases hattempted with
  | failed hkept => exact Nat.le_of_eq hkept.length.symm
  | planned => simp [Plan.opened]
  | staged _ hdone => exact Nat.le_of_eq hdone.length.symm

/-- What an `attempt` makes of a record is a `RecordChange`. -/
theorem attempt_record {was : GroupRecord} (hwas : scene.ledger.groups[index]? = some was)
    (timing : Timing) (step : Step) (rest : List Step) :
    ∃ is, (attempt timing ⟨step :: rest, scene⟩).scene.ledger.groups[index]? = some is ∧
      RecordChange scene step index was is := by
  have hlt := Nat.lt_of_lt_of_le (List.getElem?_eq_some_iff.1 hwas).1
    (length_le_attempt timing step rest scene)
  have his := List.getElem?_eq_getElem hlt
  rcases record_of_attempt his with ⟨hnone, -⟩ | ⟨was', hwas', hchange⟩
  · simp [hwas] at hnone
  · obtain rfl : was = was' := Option.some.inj (hwas.symm.trans hwas')
    exact ⟨_, his, hchange⟩

end Progress

end Flak
