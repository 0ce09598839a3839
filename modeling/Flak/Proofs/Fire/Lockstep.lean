import Flak.Proofs.Fire.Course
import Flak.Proofs.Fire.Toll

namespace Flak

/-!
# Nobody dies twice

The steps of an action and its groups move in lockstep: there is at most one group between its roll
and its notice, the groups before it are through, the groups after it are as they were opened, and
then come the plans.

* `AtHand` — the stages that are left of the group at hand, and what its record says then;
* `Lockstep` — the state of an action in which the dead are accounted for;
* `Kept` — changes after which the same steps are left to be done;
* `InLockstep.attempt` — an attempt at a step keeps an action in lockstep;
* `dead_accounted` — so that the dead of moves and battles are accounted for at any time.
-/

variable {ρ : Type} {scene mid after : Scene ρ}

/-- What is left of the group at hand, the last of those in the `ledger` that have begun. When it is
    about to select, it has no losses yet, and nobody whom it may hit is dead. -/
inductive AtHand (ledger : Ledger) : Nat → List Step → Prop
  | nothing (first : Nat) : AtHand ledger first []
  | rolled {index : Nat} {record : GroupRecord} (hrecord : ledger.groups[index]? = some record)
      (hlosses : record.losses = none)
      (halive : record.phase = .rolled → ∀ unit ∈ record.validTargets, unit ∉ ledger.casualties) :
      AtHand ledger (index + 1) [.stage .select ⟨index⟩, .stage .notify ⟨index⟩]
  | selected (index : Nat) : AtHand ledger (index + 1) [.stage .notify ⟨index⟩]

/-- What is to be done after the group at hand: the groups from `first` on that have not begun, then
    the `plans`. -/
def toCome (first more : Nat) (plans : List Plan) : List Step :=
  (List.range' first more).flatMap (fun index => Step.allOf ⟨index⟩) ++ plans.map .plan

/-- An action in lockstep: `left` is left of the group at hand, the `more` groups from `first` on
    have not begun, and nothing aims at units that are not among the `aims`. -/
structure Lockstep (aims : List UnitId) (before : List HistoryEntry) (first more : Nat)
    (left : List Step) (plans : List Plan) (scene : Scene ρ) : Prop where
  accounted : Accounted aims before scene
  aimed : ∀ (index : Nat) (record : GroupRecord), scene.ledger.groups[index]? = some record →
    ∀ unit, unit ∈ record.group.targets ∨ unit ∈ record.validTargets → unit ∈ aims
  plans : ∀ plan ∈ plans, ∀ unit ∈ plan.targets, unit ∈ aims
  hand : AtHand scene.ledger first left
  length : first + more = scene.ledger.groups.length
  fresh : ∀ (index : Nat) (record : GroupRecord), first ≤ index →
    scene.ledger.groups[index]? = some record → record.phase = .pendingRoll ∧ record.losses = none

/-- An action is in `Lockstep`, whatever is left of it. -/
def InLockstep (aims : List UnitId) (before : List HistoryEntry) (progress : Progress ρ) : Prop :=
  ∃ first more left plans, progress.pending = left ++ toCome first more plans ∧
    Lockstep aims before first more left plans progress.scene

/-! ### What keeps the steps that are left -/

/-- Nobody is killed between `before` and `after`, no targets are found, no group begins to roll,
    and none has begun. -/
structure Kept (before after : Scene ρ) : Prop extends Unharmed before after where
  kept : ∀ (index : Nat) (was is : GroupRecord), before.ledger.groups[index]? = some was →
    after.ledger.groups[index]? = some is → is.validTargets = was.validTargets ∧
      (is.phase = .rolled → was.phase = .rolled) ∧
      (was.phase = .pendingRoll → is.phase = .pendingRoll)

namespace Kept

/-- In an `Interlude` nobody is killed, and no group begins. -/
theorem of_interlude (h : Interlude scene after) : Kept scene after := by
  obtain ⟨_, _, _, hhost⟩ := h.host
  have hsame {index : Nat} {was is : GroupRecord} (hwas : scene.ledger.groups[index]? = some was)
      (his : after.ledger.groups[index]? = some is) : is = was := by
    rw [h.groups, hwas] at his
    exact (Option.some.inj his).symm
  refine ⟨⟨h.casualties, by rw [hhost], by rw [h.groups], ?_⟩, ?_⟩
  · intro index was is hwas his
    obtain rfl := hsame hwas his
    exact ⟨rfl, rfl, rfl⟩
  · intro index was is hwas his
    obtain rfl := hsame hwas his
    exact ⟨rfl, id, id⟩

/-- A `step` that fails kills nobody, and no group begins. -/
theorem of_uncommitted {step : Step} {fault : Fault} (h : Uncommitted step fault scene after) :
    Kept scene after := by
  refine ⟨⟨by rw [h.ledger], h.history, h.length, ?_⟩, ?_⟩
  · intro index was is hwas his
    rw [(h.groups index was is hwas his).same]
    exact ⟨rfl, rfl, rfl⟩
  · intro index was is hwas his
    obtain ⟨hsame, -, -, hphase⟩ := h.groups index was is hwas his
    refine ⟨by rw [hsame], ?_⟩
    -- The one phase that a failure can enter comes after the roll.
    rcases hphase with hphase | ⟨-, hselected, hconfirmed, -⟩
    · rw [hphase]
      exact ⟨id, id⟩
    · simp [hselected, hconfirmed]

/-- Nobody dies of a notice, so the scene is `Kept`. -/
theorem of_notified {id : GroupId} {record : GroupRecord}
    (hrecord : scene.ledger.record id = .ok record)
    (h : StageDone id record scene .notify after) : Kept scene after := by
  cases h with
  | past =>
    refine ⟨⟨rfl, rfl, rfl, ?_⟩, ?_⟩
    · intro index was is hwas his
      obtain rfl := Option.some.inj (hwas.symm.trans his)
      exact ⟨rfl, rfl, rfl⟩
    · intro index was is hwas his
      obtain rfl := Option.some.inj (hwas.symm.trans his)
      exact ⟨rfl, fun h => h, fun h => h⟩
  | @finished hphase mid hletters =>
    have hdice : Exchanged id (scene.setDice scene.host.dice) mid := hletters.toExchanged
    obtain ⟨told, hgroups⟩ := hdice.getElem?_updateRecord fun record =>
      { record with phase := .done }
    obtain ⟨_, _, hledger⟩ := hletters.ledger
    have hindex := Ledger.record_eq_ok.1 hrecord
    -- The only record that changes is that of the group, which is done.
    have hsame {index : Nat} {was is : GroupRecord} (hwas : scene.ledger.groups[index]? = some was)
        (his : (mid.ledger.updateRecord id fun record =>
          { record with phase := .done }).groups[index]? = some is) :
        is = if index = id.index then { was.tell told with phase := .done } else was := by
      rw [hgroups index, hwas] at his
      exact (Option.some.inj his).symm
    refine ⟨⟨?_, hletters.history, ?_, ?_⟩, ?_⟩
    · show mid.ledger.casualties = _
      rw [hledger]
      rfl
    · show (mid.ledger.updateRecord id _).groups.length = _
      rw [Ledger.length_updateRecord, hledger]
      exact Ledger.length_updateRecord _ _ _
    · intro index was is hwas his
      rw [hsame hwas his]
      split
      · exact ⟨rfl, rfl, rfl⟩
      · exact ⟨rfl, rfl, rfl⟩
    · intro index was is hwas his
      rw [hsame hwas his]
      split
      · rename_i heq
        subst heq
        obtain rfl : record = was := Option.some.inj (hindex.symm.trans hwas)
        refine ⟨rfl, fun h => ?_, fun h => ?_⟩
        · simp at h
        · rcases hphase with hphase | hphase <;> simp [hphase] at h
      · exact ⟨rfl, fun h => h, fun h => h⟩

end Kept

/-! ### The steps -/

namespace Lockstep

variable {aims : List UnitId} {before : List HistoryEntry} {first more index : Nat}
  {left : List Step} {plans : List Plan} {record : GroupRecord}

/-- Where the scene is `Kept`, the lockstep is. -/
theorem kept (h : Lockstep aims before first more left plans scene) (hkept : Kept scene after) :
    Lockstep aims before first more left plans after where
  accounted := h.accounted.of_unharmed hkept.toUnharmed
  aimed := by
    intro index is his unit hunit
    obtain ⟨was, hwas⟩ := hkept.exists_was his
    rw [(hkept.records index was is hwas his).2.1, (hkept.kept index was is hwas his).1] at hunit
    exact h.aimed index was hwas unit hunit
  plans := h.plans
  hand := by
    -- A group that is about to select keeps its targets, and nobody among them has died.
    cases h.hand with
    | nothing => exact .nothing first
    | selected index => exact .selected index
    | @rolled index was hwas hlosses halive =>
      have hlt : index < after.ledger.groups.length := by
        rw [hkept.length]
        exact (List.getElem?_eq_some_iff.1 hwas).1
      have his := List.getElem?_eq_getElem hlt
      obtain ⟨hvalid, hrolled, -⟩ := hkept.kept index was _ hwas his
      refine .rolled his ((hkept.records index was _ hwas his).2.2.trans hlosses) fun hphase => ?_
      rw [hvalid, hkept.casualties]
      exact halive (hrolled hphase)
  length := h.length.trans hkept.length.symm
  fresh := by
    intro index is hle his
    obtain ⟨was, hwas⟩ := hkept.exists_was his
    obtain ⟨hphase, hlosses⟩ := h.fresh index was hle hwas
    exact ⟨(hkept.kept index was is hwas his).2.2 hphase,
      (hkept.records index was is hwas his).2.2.trans hlosses⟩

/-- A `plan` is carried out when all groups before it are through. -/
theorem opened {plan : Plan} {groups : List FiringGroup}
    (h : Lockstep aims before first 0 [] (plan :: plans) scene)
    (hgroups : plan.groupsOn scene = .ok groups) :
    Lockstep aims before first groups.length [] plans
      { scene with ledger := plan.opened groups scene.ledger } := by
  have hlength : first = scene.ledger.groups.length := h.length
  have hplan : ∀ unit ∈ plan.targets, unit ∈ aims := h.plans plan List.mem_cons_self
  refine ⟨h.accounted.opened plan groups, ?_, ?_, .nothing first, ?_, ?_⟩
  · intro index is his unit hunit
    -- A record that was there is as it was; one that is fresh aims at targets of the plan.
    rcases Plan.getElem?_opened his with ⟨-, hwas⟩ | ⟨-, hfresh⟩
    · exact h.aimed index is hwas unit hunit
    · obtain ⟨hgroup, heq⟩ := eq_of_mem_freshRecords (List.mem_of_getElem? hfresh)
      rcases hunit with htarget | hvalid
      · exact hplan unit (Plan.targets_of_groupsOn hgroups hgroup unit htarget)
      · rw [heq] at hvalid
        simp at hvalid
  · exact fun other hother => h.plans other (List.mem_cons_of_mem plan hother)
  · show first + groups.length = (plan.opened groups scene.ledger).groups.length
    rw [Plan.length_opened, hlength]
  · intro index is hle his
    rcases Plan.getElem?_opened his with ⟨hlt, -⟩ | ⟨-, hfresh⟩
    · omega
    · rw [(eq_of_mem_freshRecords (List.mem_of_getElem? hfresh)).2]
      exact ⟨rfl, rfl⟩

/-- A group begins: its `record` changes, and if it has rolled it may hit what is alive. -/
theorem begun {dice : ρ} {change : GroupRecord → GroupRecord}
    (h : Lockstep aims before first (more + 1) [] plans scene)
    (hrecord : scene.ledger.groups[first]? = some record)
    (hsame : ∀ was, (change was).id = was.id ∧ (change was).group = was.group ∧
      (change was).losses = was.losses)
    (haimed : ∀ unit ∈ (change record).validTargets, unit ∈ aims)
    (halive : (change record).phase = .rolled →
      ∀ unit ∈ (change record).validTargets, unit ∉ scene.ledger.casualties) :
    Lockstep aims before (first + 1) more [.stage .select ⟨first⟩, .stage .notify ⟨first⟩] plans
      ((scene.setDice dice).updateRecord ⟨first⟩ change) := by
  have hgroups (index : Nat) :
      ((scene.setDice dice).updateRecord ⟨first⟩ change).ledger.groups[index]? =
        (scene.ledger.groups[index]?).map fun was => if index = first then change was else was :=
    Ledger.getElem?_updateRecord ⟨first⟩ change scene.ledger index
  have hunharmed : Unharmed scene ((scene.setDice dice).updateRecord ⟨first⟩ change) := by
    refine ⟨rfl, rfl, Ledger.length_updateRecord _ _ _, ?_⟩
    intro index was is hwas his
    rw [hgroups index, hwas] at his
    obtain rfl := Option.some.inj his
    split
    · exact hsame was
    · exact ⟨rfl, rfl, rfl⟩
  obtain ⟨-, hlosses⟩ := h.fresh first record (Nat.le_refl _) hrecord
  have hfirst : ((scene.setDice dice).updateRecord ⟨first⟩ change).ledger.groups[first]? =
      some (change record) := by
    rw [hgroups first, hrecord]
    simp
  -- The group at hand is the one that begins; nobody dies of it yet.
  refine ⟨h.accounted.of_unharmed hunharmed, ?_, h.plans,
    .rolled hfirst ((hsame record).2.2.trans hlosses) halive, ?_, ?_⟩
  · intro index is his unit hunit
    rw [hgroups index] at his
    obtain ⟨was, hwas, rfl⟩ := Option.map_eq_some_iff.1 his
    split at hunit
    · rename_i heq
      subst heq
      obtain rfl : record = was := Option.some.inj (hrecord.symm.trans hwas)
      rcases hunit with htarget | hvalid
      · rw [(hsame record).2.1] at htarget
        exact h.aimed index record hwas unit (.inl htarget)
      · exact haimed unit hvalid
    · exact h.aimed index was hwas unit hunit
  · rw [hunharmed.length, ← h.length]
    omega
  · intro index is hle his
    rw [hgroups index] at his
    obtain ⟨was, hwas, rfl⟩ := Option.map_eq_some_iff.1 his
    have hne : index ≠ first := by omega
    rw [if_neg hne]
    exact h.fresh index was (by omega) hwas

/-- A group in `Lockstep` rolls. -/
theorem rolled (h : Lockstep aims before first (more + 1) [] plans scene)
    (hrecord : scene.ledger.record ⟨first⟩ = .ok record)
    (hdone : StageDone ⟨first⟩ record scene .roll after) :
    Lockstep aims before (first + 1) more [.stage .select ⟨first⟩, .stage .notify ⟨first⟩] plans
      after := by
  have hindex := Ledger.record_eq_ok.1 hrecord
  obtain ⟨hpending, -⟩ := h.fresh first record (Nat.le_refl _) hindex
  cases hdone with
  | past stage hroll =>
    -- The groups that have not begun are still to roll.
    exact absurd hpending (hroll rfl)
  | idle hphase =>
    have hbegun := @begun _ _ _ _ _ _ _ _ scene.host.dice
      (fun record => { record with phase := .done }) h hindex (fun was => ⟨rfl, rfl, rfl⟩)
    refine hbegun ?_ ?_
    · exact fun unit hunit => h.aimed first record hindex unit (.inr hunit)
    · exact fun hrolled => by simp at hrolled
  | rolled hphase dice =>
    -- Whoever has died since the plan is not aimed at any more.
    refine h.begun hindex ?_ ?_ ?_
    · exact fun was => ⟨rfl, rfl, rfl⟩
    · intro unit hunit
      have htarget : unit ∈ record.group.targets := (List.mem_filter.1 hunit).1
      exact h.aimed first record hindex unit (.inl htarget)
    · intro _ unit hunit
      have hopen := (List.mem_filter.1 hunit).2
      simp only [Ledger.isCasualty, Bool.and_eq_true, Bool.not_eq_true', decide_eq_false_iff_not]
        at hopen
      exact hopen.1

/-- When a group in `Lockstep` is about to select, neither it nor a group after it has losses. -/
theorem losses_eq_none (h : Lockstep aims before (index + 1) more
      [.stage .select ⟨index⟩, .stage .notify ⟨index⟩] plans scene)
    {position : Nat} (hle : index ≤ position) {is : GroupRecord}
    (his : scene.ledger.groups[position]? = some is) : is.losses = none := by
  cases h.hand with
  | @rolled _ was hwas hlosses halive =>
    by_cases heq : position = index
    · subst heq
      obtain rfl : was = is := Option.some.inj (hwas.symm.trans his)
      exact hlosses
    · have hlt : index + 1 ≤ position := by omega
      exact (h.fresh position is hlt his).2

/-- When a group in `Lockstep` is about to select, whom it may hit is alive. -/
theorem validTargets_alive (h : Lockstep aims before (index + 1) more
      [.stage .select ⟨index⟩, .stage .notify ⟨index⟩] plans scene)
    (hindex : scene.ledger.groups[index]? = some record) (hphase : record.phase = .rolled) :
    ∀ unit ∈ record.validTargets, unit ∉ scene.ledger.casualties := by
  cases h.hand with
  | @rolled _ was hwas hlosses halive =>
    obtain rfl : record = was := Option.some.inj (hindex.symm.trans hwas)
    exact halive hphase

/-- A group in `Lockstep` selects its losses. -/
theorem selected (h : Lockstep aims before (index + 1) more
      [.stage .select ⟨index⟩, .stage .notify ⟨index⟩] plans scene)
    (hrecord : scene.ledger.record ⟨index⟩ = .ok record)
    (hdone : StageDone ⟨index⟩ record scene .select after) :
    Lockstep aims before (index + 1) more [.stage .notify ⟨index⟩] plans after := by
  have hindex := Ledger.record_eq_ok.1 hrecord
  cases hdone with
  | past => exact { h with hand := .selected index }
  | @selected hphase targets dice mid losses htargets hletters hcheck =>
    have hvalid := Losses.valid_of_check hcheck
    -- Whoever chose, the dead are among those whom the group may hit.
    have htaken : ∀ unit ∈ losses.killed, unit ∈ record.validTargets := fun unit hunit =>
      (Board.map_unit_targets_sublist htargets).subset (hvalid.killed unit hunit)
    have hnew : ∀ unit ∈ losses.killed, unit ∉ scene.ledger.casualties := fun unit hunit =>
      h.validTargets_alive hindex hphase unit (htaken unit hunit)
    have haimed : ∀ unit ∈ losses.killed, unit ∈ aims := fun unit hunit =>
      h.aimed index record hindex unit (.inr (htaken unit hunit))
    have haccounted := h.accounted.commit record.group (record.dice.getD {}).hits losses hrecord
      hletters.toExchanged (List.nodup_append.1 hvalid.nodup).1 hnew haimed
      fun position is hle his => h.losses_eq_none hle his
    obtain ⟨told, hgroups⟩ := getElem?_commit record.group (record.dice.getD {}).hits losses
      hletters.toExchanged
    refine ⟨haccounted, ?_, h.plans, .selected index, ?_, ?_⟩
    · intro position is his unit hunit
      rw [hgroups position] at his
      obtain ⟨was, hwas, rfl⟩ := Option.map_eq_some_iff.1 his
      refine h.aimed position was hwas unit ?_
      split at hunit
      · exact hunit
      · exact hunit
    · show _ = (mid.ledger.updateRecord ⟨index⟩ _).groups.length
      rw [Ledger.length_updateRecord, hletters.length_groups]
      exact h.length
    · intro position is hle his
      rw [hgroups position] at his
      obtain ⟨was, hwas, rfl⟩ := Option.map_eq_some_iff.1 his
      have hne : position ≠ index := by omega
      rw [if_neg hne]
      exact h.fresh position was hle hwas

/-- A group in `Lockstep` is through. -/
theorem notified (h : Lockstep aims before (index + 1) more [.stage .notify ⟨index⟩] plans scene)
    (hrecord : scene.ledger.record ⟨index⟩ = .ok record)
    (hdone : StageDone ⟨index⟩ record scene .notify after) :
    Lockstep aims before (index + 1) more [] plans after :=
  { h.kept (.of_notified hrecord hdone) with hand := .nothing (index + 1) }

end Lockstep

/-! ### Attempts -/

/-- What comes first in what is left by `toCome`. -/
theorem toCome_cons {first more : Nat} {plans : List Plan} {step : Step} {rest : List Step}
    (h : step :: rest = toCome first more plans) :
    (∃ fewer, more = fewer + 1 ∧ step = .stage .roll ⟨first⟩ ∧
        rest = [.stage .select ⟨first⟩, .stage .notify ⟨first⟩] ++
          toCome (first + 1) fewer plans) ∨
      more = 0 ∧ ∃ plan others, plans = plan :: others ∧ step = .plan plan ∧
        rest = toCome first 0 others := by
  cases more with
  | succ fewer =>
    obtain ⟨rfl, rfl⟩ := List.cons.inj h
    exact .inl ⟨fewer, rfl, rfl, rfl⟩
  | zero =>
    cases plans with
    | nil => simp [toCome] at h
    | cons plan others =>
      obtain ⟨rfl, rfl⟩ := List.cons.inj h
      exact .inr ⟨rfl, plan, others, rfl, rfl, rfl⟩

namespace InLockstep

variable {aims : List UnitId} {before : List HistoryEntry}

/-- An action stays `InLockstep` where the scene is kept. -/
theorem kept {pending : List Step} (h : InLockstep aims before ⟨pending, scene⟩)
    (hkept : Kept scene after) : InLockstep aims before ⟨pending, after⟩ := by
  obtain ⟨first, more, left, plans, hpending, hstate⟩ := h
  exact ⟨first, more, left, plans, hpending, hstate.kept hkept⟩

/-- An action that has ended `InLockstep` takes up a `plan`. -/
theorem plan {plan : Plan} (h : InLockstep aims before ⟨[], scene⟩)
    (haimed : ∀ unit ∈ plan.targets, unit ∈ aims) :
    InLockstep aims before ⟨[.plan plan], scene⟩ := by
  -- Nothing is left, so that no group is at hand, none is to come and there are no plans.
  obtain ⟨first, more, left, plans, hpending, hstate⟩ := h
  obtain ⟨rfl, hcome⟩ := List.append_eq_nil_iff.1 hpending.symm
  obtain ⟨hgroups, hplans⟩ := List.append_eq_nil_iff.1 hcome
  obtain rfl : more = 0 := by
    cases more with
    | zero => rfl
    | succ more => simp [List.range'_succ, Step.allOf] at hgroups
  refine ⟨first, 0, [], [plan], rfl, { hstate with plans := ?_ }⟩
  intro other hother
  obtain rfl : other = plan := by simpa using hother
  exact haimed

/-- Whom a group has killed is among the casualties, where the action is `InLockstep`. -/
theorem killed_dead {pending : List Step} (h : InLockstep aims before ⟨pending, scene⟩) :
    ∀ record ∈ scene.ledger.groups, ∀ unit ∈ record.killed, unit ∈ scene.ledger.casualties := by
  obtain ⟨first, more, left, plans, -, hstate⟩ := h
  intro record hrecord unit hunit
  rw [← hstate.accounted.casualties]
  exact List.mem_flatten.2 ⟨record.killed, List.mem_map_of_mem hrecord, hunit⟩

/-- In an action that is `InLockstep` whoever a group may hit is among the `aims`. -/
theorem validTargets_aimed {progress : Progress ρ} (h : InLockstep aims before progress)
    {record : GroupRecord} (hrecord : record ∈ progress.scene.ledger.groups) :
    ∀ unit ∈ record.validTargets, unit ∈ aims := by
  obtain ⟨_, _, _, _, -, hstate⟩ := h
  obtain ⟨index, hindex⟩ := List.mem_iff_getElem?.1 hrecord
  exact fun unit hunit => hstate.aimed index record hindex unit (.inr hunit)

/-- What an action `InLockstep` is about to select is alive. -/
theorem validTargets_alive {index : Nat} {record : GroupRecord} {rest : List Step}
    (h : InLockstep aims before ⟨.stage .select ⟨index⟩ :: rest, scene⟩)
    (hrecord : scene.ledger.groups[index]? = some record) (hphase : record.phase = .rolled) :
    ∀ unit ∈ record.validTargets, unit ∉ scene.ledger.casualties := by
  obtain ⟨first, more, left, plans, hpending, hstate⟩ := h
  have hhand := hstate.hand
  cases hhand with
  | nothing =>
    rcases toCome_cons hpending with ⟨_, _, hroll, _⟩ | ⟨_, _, _, _, hplan, _⟩
    · simp at hroll
    · simp at hplan
  | @rolled hand was hwas hlosses halive =>
    obtain ⟨hsame, -⟩ := List.cons.inj hpending
    obtain ⟨-, hindex⟩ := Step.stage.inj hsame
    obtain rfl : index = hand := GroupId.mk.inj hindex
    exact hstate.validTargets_alive hrecord hphase
  | selected hand =>
    obtain ⟨hsame, -⟩ := List.cons.inj hpending
    simp at hsame

/-- What an action `InLockstep` is about to plan aims at the `aims`. -/
theorem plan_aimed {plan : Plan} {rest : List Step}
    (h : InLockstep aims before ⟨.plan plan :: rest, scene⟩) :
    ∀ unit ∈ plan.targets, unit ∈ aims := by
  obtain ⟨first, more, left, plans, hpending, hstate⟩ := h
  have hhand := hstate.hand
  cases hhand with
  | nothing =>
    rcases toCome_cons hpending with ⟨_, _, hroll, _⟩ | ⟨_, other, others, rfl, hplan, _⟩
    · simp at hroll
    · obtain rfl := Step.plan.inj hplan
      exact hstate.plans plan List.mem_cons_self
  | rolled => exact nomatch (List.cons.inj hpending).1
  | selected => exact nomatch (List.cons.inj hpending).1

/-- An action without groups is `InLockstep` with any `plans`. -/
theorem of_plans {plans : List Plan} (hgroups : scene.ledger.groups = [])
    (hcasualties : scene.ledger.casualties = [])
    (haimed : ∀ plan ∈ plans, ∀ unit ∈ plan.targets, unit ∈ aims) :
    InLockstep aims scene.host.history ⟨plans.map .plan, scene⟩ := by
  have hnone {index : Nat} {record : GroupRecord} :
      scene.ledger.groups[index]? ≠ some record := by simp [hgroups]
  refine ⟨0, 0, [], plans, rfl, ?_, ?_, haimed, .nothing 0, ?_, ?_⟩
  · refine ⟨?_, ?_, ?_, ?_, ?_⟩
    · exact fun index record hrecord => absurd hrecord hnone
    · simp [Ledger.toll, hgroups, hcasualties]
    · simp [hcasualties]
    · simp [hcasualties]
    · exact ⟨[], by simp, by simp [Ledger.toll, hgroups]⟩
  · exact fun index record hrecord => absurd hrecord hnone
  · simp [hgroups]
  · exact fun index record _ hrecord => absurd hrecord hnone

variable [RandomSource ρ]

/-- A `step` that succeeds leads on `InLockstep`. -/
theorem step {timing : Timing} {step : Step} {rest next : List Step}
    (h : InLockstep aims before ⟨step :: rest, scene⟩)
    (hdone : (step.perform timing).onScene scene = (.ok next, after)) :
    InLockstep aims before ⟨next ++ rest, after⟩ := by
  obtain ⟨first, more, left, plans, hpending, hstate⟩ := h
  have hhand := hstate.hand
  -- Which step it is follows from what is left of the group at hand.
  cases hhand with
  | nothing =>
    rcases toCome_cons hpending with ⟨fewer, rfl, rfl, rfl⟩ | ⟨rfl, plan, others, rfl, rfl, rfl⟩
    · obtain ⟨rfl, record, hrecord, hstage⟩ := Step.perform_stage_ok hdone
      exact ⟨first + 1, fewer, _, plans, rfl, hstate.rolled hrecord hstage⟩
    · obtain ⟨groups, hgroups, rfl, rfl⟩ := Step.perform_plan_ok hdone
      refine ⟨first, groups.length, [], others, ?_, hstate.opened hgroups⟩
      have hlength : first = scene.ledger.groups.length := hstate.length
      rw [map_id_freshRecords, hlength]
      simp [toCome, List.flatMap_map]
  | @rolled index was hwas hlosses halive =>
    obtain ⟨rfl, rfl⟩ := List.cons.inj hpending
    obtain ⟨rfl, record, hrecord, hstage⟩ := Step.perform_stage_ok hdone
    exact ⟨index + 1, more, _, plans, rfl, hstate.selected hrecord hstage⟩
  | selected index =>
    obtain ⟨rfl, rfl⟩ := List.cons.inj hpending
    obtain ⟨rfl, record, hrecord, hstage⟩ := Step.perform_stage_ok hdone
    exact ⟨index + 1, more, [], plans, rfl, hstate.notified hrecord hstage⟩

/-- An `attempt` at a step keeps the action `InLockstep`. -/
theorem attempt {step : Step} {rest : List Step} (timing : Timing)
    (h : InLockstep aims before ⟨step :: rest, scene⟩) :
    InLockstep aims before (Progress.attempt timing ⟨step :: rest, scene⟩) := by
  rcases hresult : (step.perform timing).onScene scene with ⟨fault | next, after⟩
  · rw [Progress.attempt_error hresult]
    exact h.kept (.of_uncommitted (Step.uncommitted_of_error hresult))
  · rw [Progress.attempt_ok hresult]
    exact h.step hresult

end InLockstep

/-! ### Moves and battles -/

/-- A unit that `Board.unit` gives is found and has the number asked for. -/
theorem Board.unit_eq_ok {board : Board} {id : UnitId} {unit : BoardUnit}
    (h : board.unit id = .ok unit) : board.unit? id = some unit ∧ unit.id = id := by
  rw [Board.unit] at h
  cases hfind : board.unit? id with
  | none => simp [hfind] at h
  | some other =>
    simp only [hfind, Except.ok.injEq] at h
    subst h
    exact ⟨rfl, by simpa using List.find?_some hfind⟩

/-- The units that `findUnits` gives are those looked for, and they are on the `board`. -/
theorem Board.findUnits_eq_ok {board : Board} {ids : List UnitId} {found : List BoardUnit}
    (h : board.findUnits ids = .ok found) :
    found.map BoardUnit.id = ids ∧ ∀ id ∈ ids, ∃ unit, board.unit? id = some unit := by
  induction ids generalizing found with
  | nil =>
    obtain rfl : [] = found := by simpa [findUnits, pure, Except.pure] using h
    simp
  | cons id rest ih =>
    rw [findUnits, List.mapM_cons] at h
    obtain ⟨unit, hunit, hothers⟩ := Fault.exists_of_bind h
    obtain ⟨others, hrest, hfound⟩ := Fault.exists_of_bind hothers
    obtain rfl := Except.ok.inj hfound
    obtain ⟨hfind, hid⟩ := unit_eq_ok hunit
    obtain ⟨hids, hall⟩ := ih hrest
    exact ⟨by rw [List.map_cons, hid, hids], List.forall_mem_cons.2 ⟨⟨unit, hfind⟩, hall⟩⟩

/-- Putting units `inOrder` neither adds nor drops one. -/
theorem Overflight.perm_inOrder {board : Board} {ids : List UnitId} {moving : List BoardUnit}
    {ordering : BoardUnit → BoardUnit → Ordering} (h : board.findUnits ids = .ok moving) :
    ((inOrder ordering moving).map BoardUnit.id).Perm ids := by
  rw [← (Board.findUnits_eq_ok h).1]
  exact (List.mergeSort_perm moving _).map _

variable [RandomSource ρ] {Permits : Timing → Step → Scene ρ → Prop} {aims : List UnitId}
  {before : List HistoryEntry}

omit [RandomSource ρ] in
/-- A move that was prepared, by `prepare`, is `InLockstep`. -/
theorem InLockstep.of_prepare {fire ready : Overflight} {host : Host ρ} {route : Route}
    {units : List UnitId} {ordering : BoardUnit → BoardUnit → Ordering}
    (hnew : fire.agenda.isEmpty = true)
    (hready : fire.prepare host route units ordering = .ok ready) :
    InLockstep units host.history (ready.progress host) := by
  obtain ⟨territories, moving, -, hmoving, -, hstart⟩ := Overflight.prepare_ok hnew hready
  have hplans := @of_plans ρ ⟨host, Overflight.freshLedger host
    ((Overflight.inOrder ordering moving).map BoardUnit.id)⟩ units (territories.map fun territory =>
      .overflight territory ((Overflight.inOrder ordering moving).map BoardUnit.id)) rfl rfl
  rw [hstart]
  rw [List.map_map] at hplans
  refine hplans ?_
  intro plan hplan unit hunit
  obtain ⟨territory, -, rfl⟩ := List.mem_map.1 hplan
  exact (Overflight.perm_inOrder hmoving).mem_iff.1 hunit

/-- The `fire` at a move is `InLockstep` in all its course. -/
theorem Overflight.Course.inLockstep {fire now : Overflight} {host there : Host ρ} {route : Route}
    {units : List UnitId} {ordering : BoardUnit → BoardUnit → Ordering}
    (h : Course Permits fire host route units ordering now there) :
    InLockstep units host.history (now.progress there) := by
  refine h.preserves ?_ ?_ ?_
  · exact fun timing step rest mid _ hstate => hstate.attempt timing
  · exact fun pending before after hpause hstate => hstate.kept (.of_interlude hpause)
  · exact fun ready hnew hready => .of_prepare hnew hready

/-- A firing keeps an action `InLockstep` that has ended before it. -/
theorem Engagement.Course.inLockstep {fire : BattleFire} {start there : Scene ρ} {now : Engagement}
    (hstart : InLockstep aims before ⟨[], start⟩) (haimed : ∀ unit ∈ fire.targets, unit ∈ aims)
    (h : Course Permits fire start now there) :
    InLockstep aims before (now.progress fire there) := by
  refine (h.preserves ?_ ?_ (hstart.plan haimed)).2
  · exact fun timing step rest mid _ hstate => hstate.attempt timing
  · exact fun pending before after hpause hstate => hstate.kept (.of_interlude hpause)

/-- So do `Firings` one after the other. -/
theorem Firings.inLockstep {fires : List BattleFire} {start last : Scene ρ}
    (hstart : InLockstep aims before ⟨[], start⟩)
    (haimed : ∀ fire ∈ fires, ∀ unit ∈ fire.targets, unit ∈ aims)
    (h : Firings Permits fires start last) : InLockstep aims before ⟨[], last⟩ := by
  induction h with
  | none => exact hstart
  | @next fire fires start mid last firing hcourse hfinished hrest ih =>
    -- A firing ends with nothing left, which is where the next one starts.
    have hmid := hcourse.inLockstep hstart (haimed fire List.mem_cons_self)
    have hend := Engagement.pending_of_isFinished fire mid hfinished
    refine ih ?_ fun other hother => haimed other (List.mem_cons_of_mem fire hother)
    rw [← hend]
    exact hmid

/-- At any time in the `Course` of fire at a move, and in that of a firing in a battle that follows
    others on an action that began empty, the dead are `Accounted` for. -/
theorem dead_accounted :
    (∀ (fire now : Overflight) (host there : Host ρ) (route : Route) (units : List UnitId)
        (ordering : BoardUnit → BoardUnit → Ordering),
      Overflight.Course Step.Unrestricted fire host route units ordering now there →
      Accounted units host.history ⟨there, now.ledger⟩) ∧
    ∀ (fires : List BattleFire) (fire : BattleFire) (firing : Engagement)
        (start mid last : Scene ρ),
      start.ledger.groups = [] → start.ledger.casualties = [] →
      Firings Step.Unrestricted fires start mid →
      Engagement.Course Step.Unrestricted fire mid firing last →
      Accounted ((fires ++ [fire]).flatMap BattleFire.targets) start.host.history last := by
  constructor
  · intro fire now host there route units ordering hcourse
    obtain ⟨_, _, _, _, -, hstate⟩ := hcourse.inLockstep
    exact hstate.accounted
  · intro fires fire firing start mid last hgroups hcasualties hfirings hcourse
    have haimed : ∀ other ∈ fires ++ [fire], ∀ unit ∈ other.targets,
        unit ∈ (fires ++ [fire]).flatMap BattleFire.targets :=
      fun other hother unit hunit => List.mem_flatMap.2 ⟨other, hother, hunit⟩
    have hstart := @InLockstep.of_plans ρ start
      ((fires ++ [fire]).flatMap BattleFire.targets) [] hgroups hcasualties (by simp)
    have hmid := hfirings.inLockstep hstart fun other hother =>
      haimed other (List.mem_append_left _ hother)
    have hlast := hcourse.inLockstep hmid (haimed fire (by simp))
    obtain ⟨_, _, _, _, -, hstate⟩ := hlast
    exact hstate.accounted

/-- A `Sortie` whose dead bomber has not been confirmed, and a second volley after one that
    killed. -/
theorem dead_accounted_sortie :
    (∃ (now : Overflight) (there : Host ScriptedDice), now.ledger.casualties = [⟨1⟩] ∧
      Accounted [⟨1⟩] [] ⟨there, now.ledger⟩) ∧
    ∃ last : Scene ScriptedDice, last.ledger.casualties = [⟨1⟩] ∧
      Accounted [⟨1⟩, ⟨1⟩] [] last := by
  constructor
  · have hcourse : Overflight.Course Step.Unrestricted {} (Sortie.host false) Sortie.route [⟨1⟩]
        BoardUnit.leastMovementFirst _ _ :=
      .ran (.ran (.prepared rfl (Sortie.prepare_eq false)) (some 2) (fun _ _ _ => trivial)
        (Sortie.run_eq false)) (some 1) (fun _ _ _ => trivial) rfl
    exact ⟨_, _, rfl, dead_accounted.1 _ _ _ _ _ _ _ hcourse⟩
  · have hunrestricted : ∀ (timing : Timing) (step : Step) (scene : Scene ScriptedDice),
        step.Unrestricted timing scene := fun _ _ _ => trivial
    obtain ⟨last, hfirings, hcasualties, -⟩ := Sortie.firings_volley false hunrestricted
    exact ⟨last, hcasualties, dead_accounted.2 [Sortie.volley] Sortie.volley {} _ _ _ rfl rfl
      hfirings .planned⟩

end Flak
