import Flak.Proofs.Engine.Dependable
import Flak.Proofs.Fire.Records
import Flak.Proofs.Fire.Order
import Flak.Proofs.Fire.Waypoints

namespace Flak

/-!
# What an action needs stays on the board

What a plan or a group refers to was on the board when the plan was made. Fire only damages units
and takes them off, so that it is still there when a step looks it up:

* `Plan.Grounded`, `FiringGroup.Grounded` — what plans and groups need;
* `Progress.attempt_worn` — an attempt at a step does no more to the board than fire does;
* `Grounded`, `Proceeds.grounded` — plans and groups have what they need at any time;
* `GroupRecord.TargetsThere` — from roll to selection nobody leaves who may be hit;
* `Proceeds.dependable` — so a step fails because of remote players only;
* `no_fatal_fault` — and so do all calls, on moves and in battles.
-/

variable {ρ : Type} {scene after : Scene ρ} {timing : Timing}

/-! ### Plans and groups -/

/-- The territory that a `Plan` fires in. -/
def Plan.territory : Plan → String
  | .overflight name _ => name
  | .battle fire => fire.territory

/-- A plan that a `board` bears out: it is for a known territory and distinct targets, fewer than
    hits can be counted. -/
structure Plan.Grounded (board : Board) (plan : Plan) : Prop where
  territory : board.Knows plan.territory
  nodup : plan.targets.Nodup
  few : plan.targets.length < Losses.hitModulus

/-- A group that a `board` bears out: in a known territory, of units and targets of declared types;
    the targets are distinct and fewer than hits can be counted. -/
structure FiringGroup.Grounded (board : Board) (group : FiringGroup) : Prop where
  territory : board.Knows group.territory
  guns : ∀ unit ∈ group.firingUnits, board.Typed unit
  targets : ∀ unit ∈ group.targets, board.Typed unit
  nodup : group.targets.Nodup
  few : group.targets.length < Losses.hitModulus

namespace Board

variable {board before : Board}

/-- A plan stays `Grounded` on a board that is worn. -/
theorem Worn.plan {board' : Board} (h : Worn board board') {plan : Plan}
    (hplan : plan.Grounded board) : plan.Grounded board' :=
  ⟨h.knows hplan.territory, hplan.nodup, hplan.few⟩

/-- A group stays `Grounded` on a board that is worn. -/
theorem Worn.group {board' : Board} (h : Worn board board') {group : FiringGroup}
    (hgroup : group.Grounded board) : group.Grounded board' where
  territory := h.knows hgroup.territory
  guns unit hunit := h.typed (hgroup.guns unit hunit)
  targets unit hunit := h.typed (hgroup.targets unit hunit)
  nodup := hgroup.nodup
  few := hgroup.few

/-- A unit of a declared type is `Typed`. -/
theorem typed_of_unitType? {id : UnitId} {unit : BoardUnit} {type : UnitType}
    (hunit : board.unit? id = some unit) (htype : board.unitType? unit.typeName = some type) :
    board.Typed id := by
  intro other hother
  obtain rfl := Option.some.inj (hunit.symm.trans hother)
  rw [htype]
  rfl

/-- A unit that has an ability, by `ability?`, is `Typed`. -/
theorem typed_of_ability {id : UnitId} (h : (board.ability? id).isSome) : board.Typed id := by
  obtain ⟨aa, hability⟩ := Option.isSome_iff_exists.1 h
  obtain ⟨unit, type, hunit, htype, -⟩ := ability?_eq_some.1 hability
  exact typed_of_unitType? hunit htype

theorem typed_of_canHit {aa : AntiAir} {exposed : List String} {id : UnitId}
    (h : board.canHit aa exposed id = true) : board.Typed id := by
  obtain ⟨unit, type, hunit, htype, -⟩ := canHit_iff.1 h
  exact typed_of_unitType? hunit htype

/-- A `group` that is `Formed` among distinct candidates is `Grounded`. -/
theorem Formed.grounded {muster : Muster} {group : FiringGroup} (h : board.Formed muster group)
    (hknown : board.Knows muster.territory) (hnodup : muster.candidates.Nodup)
    (hfew : muster.candidates.length < Losses.hitModulus) : group.Grounded board := by
  obtain ⟨aa, exposed, htargets⟩ := h.targets
  have hsublist : group.targets.Sublist muster.candidates := htargets ▸ List.filter_sublist
  refine ⟨h.territory ▸ hknown, ?_, ?_, hnodup.sublist hsublist,
    Nat.lt_of_le_of_lt hsublist.length_le hfew⟩
  · exact fun unit hunit => typed_of_ability (h.guns unit hunit).2
  · intro unit hunit
    rw [htargets] at hunit
    exact typed_of_canHit (List.mem_filter.1 hunit).2

end Board

namespace Plan

variable {plan : Plan}

/-- What is left of the targets of the `plan` is distinct and no more than they. -/
theorem Grounded.filter {board : Board} (h : plan.Grounded board) (keep : UnitId → Bool) :
    (plan.targets.filter keep).Nodup ∧ (plan.targets.filter keep).length < Losses.hitModulus :=
  ⟨h.nodup.sublist List.filter_sublist,
    Nat.lt_of_le_of_lt (List.length_filter_le keep plan.targets) h.few⟩

/-- A `plan` that is `Grounded` comes to groups. -/
theorem Grounded.exists_groupsOn (h : plan.Grounded scene.host.board) :
    ∃ groups, plan.groupsOn scene = .ok groups := by
  obtain ⟨territory, hfound⟩ := Option.isSome_iff_exists.1 h.territory
  -- A plan asks for its territory and for nothing else that could be missing.
  cases plan with
  | overflight name targets =>
    have hname : scene.host.board.territory name = .ok territory := by
      rw [Board.territory, show scene.host.board.territory? name = some territory from hfound]
    rw [groupsOn]
    split
    · exact ⟨[], rfl⟩
    · rw [hname]
      exact ⟨_, rfl⟩
  | battle fire =>
    have hname : scene.host.board.territory fire.territory = .ok territory := by
      rw [Board.territory,
        show scene.host.board.territory? fire.territory = some territory from hfound]
    rw [groupsOn, hname]
    exact ⟨_, rfl⟩

/-- The `groups` of the `plan` are `Formed` in a muster for its territory and for targets of it. -/
theorem formed_of_groupsOn {groups : List FiringGroup} (h : plan.groupsOn scene = .ok groups)
    {group : FiringGroup} (hgroup : group ∈ groups) :
    ∃ muster keep, scene.host.board.Formed muster group ∧ muster.territory = plan.territory ∧
      muster.candidates = plan.targets.filter keep := by
  cases plan with
  | overflight name targets =>
    rw [groupsOn] at h
    split at h
    · obtain rfl := Except.ok.inj h
      simp at hgroup
    · obtain ⟨territory, -, rfl⟩ := Fault.exists_of_map h
      exact ⟨_, _, Board.formed_of_mem_muster hgroup, rfl, rfl⟩
  | battle fire =>
    rw [groupsOn] at h
    obtain ⟨territory, -, rfl⟩ := Fault.exists_of_map h
    exact ⟨_, _, Board.formed_of_mem_muster hgroup, rfl, rfl⟩

/-- The `groups` of a plan that is `Grounded` are so too. -/
theorem Grounded.groups (h : plan.Grounded scene.host.board) {groups : List FiringGroup}
    (hgroups : plan.groupsOn scene = .ok groups) {group : FiringGroup} (hgroup : group ∈ groups) :
    group.Grounded scene.host.board := by
  obtain ⟨muster, keep, hformed, hterritory, hcandidates⟩ := formed_of_groupsOn hgroups hgroup
  obtain ⟨hnodup, hfew⟩ := h.filter keep
  refine hformed.grounded (hterritory ▸ h.territory) ?_ ?_
  · rw [hcandidates]
    exact hnodup
  · rw [hcandidates]
    exact hfew

end Plan

/-! ### The board over time -/

namespace Board

/-- To take off the dead, by `withoutDead`, wears the `board`. -/
theorem worn_withoutDead (record : GroupRecord) (losses : Losses) (board : Board) :
    Worn board (board.withoutDead record losses) := by
  unfold withoutDead
  split
  · exact worn_removeUnits _ _ _
  · exact .refl board

/-- To take off the guns that were spent, by `withoutSpent`, wears the `board`. -/
theorem worn_withoutSpent (record : GroupRecord) (board : Board) :
    Worn board (board.withoutSpent record) := by
  unfold withoutSpent
  split
  · exact worn_removeUnits _ _ _
  · exact .refl board

/-- To clear up after a group, by `cleared`, wears the `board`. -/
theorem worn_cleared (record : GroupRecord) (losses : Losses) (board : Board) :
    Worn board (board.cleared record losses) :=
  (worn_withoutDead record losses board).trans (worn_withoutSpent record _)

end Board

/-- A `stage` wears the board. -/
theorem StageDone.worn {id : GroupId} {record : GroupRecord} {stage : Stage}
    (h : StageDone id record scene stage after) :
    Board.Worn scene.host.board after.host.board := by
  cases h with
  | past => exact .refl _
  | idle => exact .refl _
  | rolled => exact .refl _
  | @selected _ _ _ mid losses _ hletters _ =>
    have hboard : mid.host.board = scene.host.board := hletters.board
    show Board.Worn _ (mid.commitHost record.group (record.dice.getD {}).hits losses).board
    rw [Scene.commitHost_board, hboard]
    exact Board.worn_markDamaged _ _
  | finished => exact Board.worn_cleared _ _ _

/-- An `attempt` at the `step` wears the board, or leaves it as it is. -/
theorem Progress.attempt_worn [RandomSource ρ] (timing : Timing) (step : Step) (rest : List Step)
    (scene : Scene ρ) :
    Board.Worn scene.host.board (attempt timing ⟨step :: rest, scene⟩).scene.host.board := by
  have hattempted := attempted timing step rest scene
  generalize attempt timing ⟨step :: rest, scene⟩ = progress at hattempted ⊢
  cases hattempted with
  | failed hkept => exact hkept.board ▸ .refl _
  | planned => exact .refl _
  | staged _ hdone => exact hdone.worn

/-- An action whose plans and groups are `Grounded` on its board. -/
structure Grounded (progress : Progress ρ) : Prop where
  plans : ∀ plan, .plan plan ∈ progress.pending → plan.Grounded progress.scene.host.board
  groups : ∀ (index : Nat) (record : GroupRecord),
    progress.scene.ledger.groups[index]? = some record →
      record.group.Grounded progress.scene.host.board

/-- A `RecordChange` leaves the group alone. -/
theorem RecordChange.group {step : Step} {index : Nat} {was is : GroupRecord}
    (h : RecordChange scene step index was is) : is.group = was.group := by
  cases h <;> rfl

variable [RandomSource ρ]

/-- An `attempt` at the `step` of an action that is `Grounded` leaves it so. -/
theorem Grounded.attempt {step : Step} {rest : List Step} (timing : Timing)
    (h : Grounded ⟨step :: rest, scene⟩) :
    Grounded (Progress.attempt timing ⟨step :: rest, scene⟩) := by
  have hworn := Progress.attempt_worn timing step rest scene
  refine ⟨fun plan hplan => hworn.plan (h.plans plan (Progress.mem_of_plan_mem_attempt hplan)), ?_⟩
  intro index is his
  refine hworn.group ?_
  have hattempted := Progress.attempted timing step rest scene
  generalize Progress.attempt timing ⟨step :: rest, scene⟩ = progress at hattempted his
  -- A group that is new is that of a plan, and all other groups are as they were.
  cases hattempted with
  | failed hkept =>
    obtain ⟨was, hwas, hchange⟩ := hkept.recordChange his
    exact hchange.group ▸ h.groups index was hwas
  | planned hgroups =>
    rcases Plan.getElem?_opened his with ⟨-, hold⟩ | ⟨-, hfresh⟩
    · exact h.groups index is hold
    · have hgroup := (eq_of_mem_freshRecords (List.mem_of_getElem? hfresh)).1
      exact (h.plans _ List.mem_cons_self).groups hgroups hgroup
  | staged hrecord hdone =>
    obtain ⟨was, hwas, hchange⟩ := hdone.recordChange hrecord his
    exact hchange.group ▸ h.groups index was hwas

/-- However an action `Proceeds`, it does no more to the board than fire does: it is `Worn`. -/
theorem Proceeds.worn {Turns : List Step → List Step → Prop} {start now : Progress ρ}
    {count : Nat}
    (h : Proceeds Interlude Turns start count now) :
    Board.Worn start.scene.host.board now.scene.host.board := by
  refine @preserves ρ _ Interlude Turns start now count (fun progress =>
    Board.Worn start.scene.host.board progress.scene.host.board) (.refl _) ?_ ?_ ?_ h
  · exact fun timing step rest scene hworn =>
      hworn.trans (Progress.attempt_worn timing step rest scene)
  · intro pending before after hpause hworn
    exact hpause.board ▸ hworn
  · exact fun left next scene _ hworn => hworn

/-- Plans and groups stay `Grounded`, as long as plans that are taken up are. -/
theorem Proceeds.grounded {Turns : List Step → List Step → Prop} {start now : Progress ρ}
    {count : Nat} (hstart : Grounded start)
    (hturns : ∀ left next, Turns left next → ∀ plan, .plan plan ∈ next →
      plan.Grounded start.scene.host.board)
    (h : Proceeds Interlude Turns start count now) : Grounded now := by
  induction h with
  | here => exact hstart
  | done earlier hdone ih => exact Progress.attempt_ok hdone _ ▸ ih.attempt _
  | failed earlier hfailed ih => exact Progress.attempt_error hfailed _ ▸ ih.attempt _
  | paused earlier hpause ih =>
    refine ⟨?_, ?_⟩
    · rw [hpause.board]
      exact ih.plans
    · rw [hpause.board, hpause.groups]
      exact ih.groups
  | turned earlier hturn ih =>
    exact ⟨fun plan hplan => earlier.worn.plan (hturns _ _ hturn plan hplan), ih.groups⟩

/-! ### The targets of the group at hand -/

/-- Until the losses of a group are selected, those who may be hit, its `targets`, are there. -/
def GroupRecord.TargetsThere (board : Board) (record : GroupRecord) : Prop :=
  record.phase = .rolled → ∀ unit ∈ record.validTargets, board.hasUnit unit = true

omit [RandomSource ρ] in
theorem GroupRecord.targetsThere_onTheWay :
    OnTheWay ρ fun board record => record.TargetsThere board where
  quiet h hrolled := by rcases h with h | h <;> simp [h] at hrolled
  stage := by
    intro id record is scene after stage h hrecord his hthere
    cases h with
    | past =>
      obtain rfl := Ledger.eq_of_record hrecord his
      exact hthere
    | idle =>
      obtain rfl := eq_of_updated hrecord his
      exact fun hrolled => by simp at hrolled
    | rolled =>
      obtain rfl := eq_of_updated hrecord his
      -- Only those on the board are open targets.
      intro _ unit hunit
      have hopen := (List.mem_filter.1 hunit).2
      simp only [Bool.and_eq_true] at hopen
      exact hopen.2
    | selected _ _ hletters _ =>
      obtain ⟨_, rfl⟩ := exists_of_commit hrecord hletters.toExchanged his
      exact fun hrolled => by simp at hrolled
    | finished _ hletters =>
      obtain ⟨_, rfl⟩ := exists_of_finish hrecord hletters.toExchanged his
      exact fun hrolled => by simp at hrolled
  failed := by
    rintro step fault board index was is ⟨hsame, -, -, hphase⟩ hthere hrolled
    rcases hphase with hphase | ⟨-, -, hconfirmed, -⟩
    · rw [hsame]
      exact hthere (hphase.symm.trans hrolled)
    · simp [hconfirmed] at hrolled

/-! ### Steps and calls -/

/-- The `step` of an action that is `Grounded` fails because of remote players only. -/
theorem Grounded.dependable {step : Step} {rest : List Step} (h : Grounded ⟨step :: rest, scene⟩)
    (horder : InOrder ⟨step :: rest, scene⟩)
    (hsound : ∀ (index : Nat) (record : GroupRecord), scene.ledger.groups[index]? = some record →
      record.Sound ∧ record.TargetsThere scene.host.board) (timing : Timing) :
    Dependable scene.ledger.headless ((step.perform timing).onScene scene).1 := by
  rcases horder.cases with ⟨_, plan, _, rfl, -, -⟩ | ⟨index, more, stage, left, _, rfl, -, hone⟩
  · obtain ⟨groups, hgroups⟩ := (h.plans plan List.mem_cons_self).exists_groupsOn
    rw [Step.perform_plan_onScene, Plan.carryOut_onScene, hgroups]
    exact .ok _
  · -- The group was entered, and the stage does not come too soon.
    have hlt : index < scene.ledger.groups.length := by
      have := hone.length
      omega
    have hfound := List.getElem?_eq_getElem hlt
    generalize scene.ledger.groups[index] = record at hfound
    have hrecord : scene.ledger.record ⟨index⟩ = .ok record := Ledger.record_eq_ok.2 hfound
    have hcome := (hone.hand index record rfl hfound).not_comesTooSoon
    have hgroup := h.groups index record hfound
    obtain ⟨hrecordSound, hthere⟩ := hsound index record hfound
    rw [Step.perform_stage_onScene]
    refine Dependable.map ?_ _
    cases stage with
    | roll => exact .of_eq_ok (Engine.rollDice_ok hrecord hgroup.guns)
    | select =>
      refine Engine.selectCasualties_dependable timing hrecord hcome ?_
        (hgroup.nodup.sublist hrecordSound.validTargets) ?_
      · intro hrolled unit hunit
        exact ⟨hthere hrolled unit hunit,
          hgroup.targets unit (hrecordSound.validTargets.subset hunit)⟩
      · have hle : (record.dice.getD {}).hits ≤ record.validTargets.length := by
          cases hdice : record.dice with
          | none => exact Nat.zero_le _
          | some dice => exact hrecordSound.hits dice hdice
        exact Nat.lt_of_le_of_lt (Nat.le_trans hle hrecordSound.validTargets.length_le) hgroup.few
    | notify =>
      exact Engine.notifyCasualties_dependable hrecord (not_or.1 hcome) hgroup.territory

/-- However an action `Proceeds`, its steps fail because of remote players only. -/
theorem Proceeds.dependable {Turns : List Step → List Step → Prop} {start : Progress ρ}
    {count : Nat} {step : Step} {rest : List Step} (hbegins : Begins start)
    (hstart : Grounded start) (hnext : ∀ left next, Turns left next → FiresNext left next)
    (hturns : ∀ left next, Turns left next → ∀ plan, .plan plan ∈ next →
      plan.Grounded start.scene.host.board)
    (h : Proceeds Interlude Turns start count ⟨step :: rest, scene⟩) (timing : Timing) :
    Dependable scene.ledger.headless ((step.perform timing).onScene scene).1 := by
  have hfires : Proceeds Interlude FiresNext start count ⟨step :: rest, scene⟩ := h.firesNext hnext
  refine (h.grounded hstart hturns).dependable (hfires.inOrder hbegins.inOrder) ?_ timing
  intro index record hrecord
  exact ⟨h.freely.sound hbegins.groups hrecord,
    GroupRecord.targetsThere_onTheWay.holds hbegins hfires hrecord⟩

/-- However an action `Proceeds`, runs of it fail because of remote players only. -/
theorem Proceeds.run_dependable {Turns : List Step → List Step → Prop} {start : Progress ρ}
    {count : Nat} {agenda : Agenda Step} (hbegins : Begins start) (hstart : Grounded start)
    (hnext : ∀ left next, Turns left next → FiresNext left next)
    (hturns : ∀ left next, Turns left next → ∀ plan, .plan plan ∈ next →
      plan.Grounded start.scene.host.board)
    (h : Proceeds Interlude Turns start count ⟨agenda.pending, scene⟩) (timing : Timing)
    (limit : Option Nat) : Dependable scene.ledger.headless (agenda.run timing limit scene).1 := by
  rcases hrun : agenda.run timing limit scene with ⟨fault | done, agenda', last⟩
  -- The step that failed is one that the action has come to.
  · obtain ⟨more, step, rest, mid, hadvances, -, herror, -⟩ := Agenda.run_error hrun
    have hsteady : mid.ledger.headless = scene.ledger.headless := by
      refine @Advances.preserves ρ _ timing more ⟨agenda.pending, scene⟩ _ (fun progress =>
        progress.scene.ledger.headless = scene.ledger.headless) rfl ?_ hadvances
      intro _ step rest mid _ _ hsame
      exact (Progress.attempt_steady timing step rest mid).headless.trans hsame
    have hfault := (h.trans hadvances.proceeds).dependable hbegins hstart hnext hturns timing
    rw [herror, hsteady] at hfault
    intro fault' heq
    exact hfault fault' (by simpa using heq)
  · exact .ok done

/-! ### Where plans come from -/

omit [RandomSource ρ] in
/-- The plans of a move that was prepared by `prepare` are `Grounded`. -/
theorem Grounded.of_prepare {fire ready : Overflight} {host : Host ρ} {route : Route}
    {units : List UnitId} {ordering : BoardUnit → BoardUnit → Ordering} (hnodup : units.Nodup)
    (hfew : units.length < Losses.hitModulus) (hnew : fire.agenda.isEmpty = true)
    (hready : fire.prepare host route units ordering = .ok ready) :
    Grounded (ready.progress host) := by
  obtain ⟨territories, moving, hterritories, hmoving, -, hstart⟩ :=
    Overflight.prepare_ok hnew hready
  have hperm : ((Overflight.inOrder ordering moving).map BoardUnit.id).Perm units :=
    Overflight.perm_inOrder hmoving
  rw [hstart]
  refine ⟨fun plan hplan => ?_, fun index record hrecord => ?_⟩
  · obtain ⟨name, hname, hplan⟩ := List.mem_map.1 hplan
    obtain rfl := Step.plan.inj hplan
    exact ⟨Board.knows_of_firingTerritories hterritories name hname, hperm.nodup_iff.2 hnodup,
      Nat.lt_of_le_of_lt (Nat.le_of_eq hperm.length_eq) hfew⟩
  · simp [Overflight.freshLedger] at hrecord

/-- What is queued in a battle that began without groups is `Dependable`: it fails because of remote
    players only. -/
theorem Engagement.run_dependable {fires : List BattleFire} {fire : BattleFire}
    {firing : Engagement} {start mid there : Scene ρ} (hgroups : start.ledger.groups = [])
    (hcasualties : start.ledger.casualties = []) (hparked : start.ledger.parked = ∅)
    (hfires : ∀ other ∈ fires ++ [fire], (Plan.battle other).Grounded start.host.board)
    (hfirings : Firings Step.Unrestricted fires start mid)
    (hcourse : Engagement.Course Step.Unrestricted fire mid firing there) (timing : Timing)
    {agenda : Agenda Step} (hagenda : agenda.pending = (firing.progress fire there).pending) :
    Dependable start.ledger.headless (agenda.run timing none there).1 := by
  have hearlier (other : BattleFire) (hother : other ∈ fires) : other ∈ fires ++ [fire] :=
    List.mem_append_left _ hother
  obtain ⟨count, hbefore⟩ := hfirings.proceeds_among hearlier
  obtain ⟨more, hfiring⟩ := hcourse.proceeds_among (List.mem_append_right fires List.mem_cons_self)
  have hproceeds : Proceeds Interlude (FiresAmong (fires ++ [fire])) ⟨[], start⟩ (count + more)
      ⟨agenda.pending, there⟩ := hagenda ▸ hbefore.trans hfiring
  have hstart : Grounded ⟨[], start⟩ := by
    refine ⟨by simp, fun index record hrecord => ?_⟩
    simp [hgroups] at hrecord
  rw [← hproceeds.steady.headless]
  refine hproceeds.run_dependable (.battle hgroups hcasualties hparked) hstart
    FiresAmong.firesNext ?_ timing none
  rintro left next ⟨-, other, hother, rfl⟩ plan hplan
  obtain rfl := Step.plan.inj (List.mem_singleton.1 hplan)
  exact hfires other hother

/-- Calls on a move that was prepared, and on a firing in a battle that follows others, are
    `Dependable`: they fail because of remote players only. Where nobody takes part they do not
    fail. -/
theorem no_fatal_fault :
    (∀ (fire now : Overflight) (host there : Host ρ) (route : Route) (units : List UnitId)
        (ordering : BoardUnit → BoardUnit → Ordering),
      units.Nodup → units.length < Losses.hitModulus →
      Overflight.Course Step.Unrestricted fire host route units ordering now there →
      (∀ limit, Dependable host.headless (now.run limit there).1) ∧
      (now.agenda.isEmpty = false → ∀ route' units' ordering' handle,
        Dependable host.headless (now.fireAlong there route' units' ordering' handle).1)) ∧
    ∀ (fires : List BattleFire) (fire : BattleFire) (firing : Engagement)
        (start mid there : Scene ρ),
      start.ledger.groups = [] → start.ledger.casualties = [] → start.ledger.parked = ∅ →
      (∀ other ∈ fires ++ [fire], start.host.board.Knows other.territory ∧
        other.targets.Nodup ∧ other.targets.length < Losses.hitModulus) →
      Firings Step.Unrestricted fires start mid →
      Engagement.Course Step.Unrestricted fire mid firing there →
      (∀ timing parameters, (firing.firstCasualty = none → parameters = fire) →
        Dependable start.ledger.headless (firing.fire timing parameters there).1) ∧
      ∀ timing, Dependable start.ledger.headless (firing.resume timing there).1 := by
  constructor
  · intro fire now host there route units ordering hnodup hfew hcourse
    obtain ⟨ready, hnew, hready⟩ := hcourse.exists_prepared
    obtain ⟨count, hproceeds⟩ := hcourse.proceeds_from hready
    have hheadless : now.ledger.headless = host.headless :=
      hproceeds.steady.headless.trans (Overflight.prepare_headless hnew hready)
    have hrun (limit : Option Nat) : Dependable host.headless (now.run limit there).1 := by
      rw [← hheadless]
      exact hproceeds.run_dependable (.move hnew hready) (.of_prepare hnodup hfew hnew hready)
        (fun _ _ hturn => hturn.elim) (fun _ _ hturn => hturn.elim) now.timing limit
    refine ⟨hrun, fun hleft route' units' ordering' handle => ?_⟩
    -- What is under way is not prepared again.
    have hprepare : now.prepare there route' units' ordering' = .ok now := by
      rw [Overflight.prepare, hleft]
      rfl
    rw [Overflight.fireAlong, hprepare]
    exact (hrun none).map _
  · intro fires fire firing start mid there hgroups hcasualties hparked hfires hfirings hcourse
    have hgrounded (other : BattleFire) (hother : other ∈ fires ++ [fire]) :
        (Plan.battle other).Grounded start.host.board := by
      obtain ⟨hterritory, hnodup, hfew⟩ := hfires other hother
      exact ⟨hterritory, hnodup, hfew⟩
    have hnew := hcourse.pending_of_none
    constructor
    · intro timing parameters hfirst
      rw [Engagement.fire, Engagement.resume]
      refine Dependable.map ?_ _
      refine Engagement.run_dependable hgroups hcasualties hparked hgrounded hfirings hcourse
        timing ?_
      exact Engagement.started_pending there hfirst hnew
    · intro timing
      rw [Engagement.resume]
      refine Dependable.map ?_ _
      cases hfirst : firing.firstCasualty with
      | none =>
        -- Nothing has been queued yet.
        rw [Agenda.run_of_pending_nil none (hnew hfirst)]
        exact .ok 0
      | some first =>
        refine Engagement.run_dependable hgroups hcasualties hparked hgrounded hfirings hcourse
          timing ?_
        simp [Engagement.progress, hfirst]

/-- A `Sortie` whose gun has rolled goes on without fail if nobody takes part, and with players who
    do it fails because of them only. So does a second volley at a bomber that is gone. -/
theorem no_fatal_fault_sortie :
    (∀ limit, ∃ count, ((Sortie.fired true).run limit
      (Sortie.rolled true .returnToHost Sortie.outcome).host).1 = .ok count) ∧
    (∀ limit, Dependable false ((Sortie.fired false).run limit
      (Sortie.rolled false .returnToHost Sortie.outcome).host).1) ∧
    ∃ last : Scene ScriptedDice, last.host.board.hasUnit ⟨1⟩ = false ∧
      ∀ timing, Dependable false (Engagement.fire {} timing Sortie.volley last).1 := by
  have hunrestricted : ∀ (timing : Timing) (step : Step) (scene : Scene ScriptedDice),
      step.Unrestricted timing scene := fun _ _ _ => trivial
  have hmove (headless : Bool) (limit : Option Nat) : Dependable headless
      ((Sortie.fired headless).run limit
        (Sortie.rolled headless .returnToHost Sortie.outcome).host).1 := by
    have hcourse : Overflight.Course Step.Unrestricted {} (Sortie.host headless) Sortie.route [⟨1⟩]
        BoardUnit.leastMovementFirst _ _ :=
      .ran (.prepared rfl (Sortie.prepare_eq headless)) (some 2)
        (fun _ _ _ => hunrestricted _ _ _) (Sortie.run_eq headless)
    exact (no_fatal_fault.1 {} _ (Sortie.host headless) _ _ _ _ (by simp) (by decide) hcourse).1
      limit
  refine ⟨fun limit => (hmove true limit).exists_ok, hmove false, ?_⟩
  -- The second volley finds no target, since the first has taken the bomber off.
  obtain ⟨last, hfirings, -, hgone⟩ := Sortie.firings_volley false hunrestricted
  have htargeted : ∀ other ∈ [Sortie.volley] ++ [Sortie.volley],
      Sortie.board.Knows other.territory ∧ other.targets.Nodup ∧
        other.targets.length < Losses.hitModulus := by
    intro other hother
    obtain rfl : other = Sortie.volley := by simpa using hother
    exact ⟨rfl, by decide, by decide⟩
  refine ⟨last, hgone, fun timing => ?_⟩
  exact (no_fatal_fault.2 [Sortie.volley] Sortie.volley {} _ _ _ rfl rfl rfl htargeted hfirings
    .planned).1 timing Sortie.volley fun _ => rfl

end Flak
