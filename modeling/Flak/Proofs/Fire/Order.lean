import Flak.Proofs.Fire.Lockstep
import Flak.Proofs.Fire.Orderly
import Flak.Proofs.Fire.Outstanding

namespace Flak

/-!
# Steps and groups are in step

The steps of an action hold no more than the numbers of groups, and how far a group has come is in
its record. The two agree at any time, whatever failed on the way:

* `Phase.ahead`, `stagesOf` — the stages that a phase has before it, and those of a group among
  steps;
* `InStep` — what steps and records say when they agree;
* `OneByOne`, `InOrder` — groups are gone through one after the other, which is what steps preserve;
* `InOrder.attempt` — an attempt at a step keeps an action in order;
* `InOrder.orderly` — in an action in order no stage comes before its phase;
* `OnTheWay` — facts about a group and the board that hold as long as they matter;
* `Overflight.in_step_until_drained` — a move is in step at any time, and when nothing is left to
  do, its groups are done.
-/

variable {ρ : Type} {timing : Timing} {scene after : Scene ρ}

/-! ### Stages -/

/-- The stages that a group in this `Phase` has before it. -/
def Phase.ahead : Phase → List Stage
  | .pendingRoll => [.roll, .select, .notify]
  | .rolled => [.select, .notify]
  | .casualtiesSelected => [.notify]
  | .confirmed => [.notify]
  | .done => []

/-- The number of the group that a `Step` is a stage of. -/
def Step.index? : Step → Option Nat
  | .plan _ => none
  | .stage _ group => some group.index

/-- The stage that a `Step` is of the group with this number. -/
def Step.stageOf? (index : Nat) : Step → Option Stage
  | .plan _ => none
  | .stage due group => if group.index = index then some due else none

/-- The stages among `steps` of the group with the number `index`. -/
def stagesOf (index : Nat) (steps : List Step) : List Stage :=
  steps.filterMap (Step.stageOf? index)

/-- Whether these `stages` may be left of a group in the `phase`: those that it has before it, or,
    if it is done, stages at the end that find nothing to do. -/
def Phase.Leaves (phase : Phase) (stages : List Stage) : Prop :=
  stages = phase.ahead ∨ phase = .done ∧ stages <:+ [.select, .notify]

/-- The steps that are `pending` and the records of the groups agree. -/
structure InStep (pending : List Step) (ledger : Ledger) : Prop where
  /-- First come stages, then the fire in further territories. -/
  split : ∃ stages plans, pending = stages ++ plans ∧ (∀ step ∈ stages, step.isPlan = false) ∧
    ∀ step ∈ plans, ∃ name targets, step = .plan (.overflight name targets)
  /-- Stages of groups that were entered earlier come first. -/
  increasing : (pending.filterMap Step.index?).Pairwise (· ≤ ·)
  /-- The groups have been entered. -/
  known : ∀ index ∈ pending.filterMap Step.index?, index < ledger.groups.length
  stages : ∀ (index : Nat) (record : GroupRecord), ledger.groups[index]? = some record →
    record.phase.Leaves (stagesOf index pending)
  /-- One group at most is on its way; those before it are done and those after it have not begun. -/
  hand : ∃ hand, ∀ (index : Nat) (record : GroupRecord), ledger.groups[index]? = some record →
    (index < hand → record.phase = .done) ∧ (hand < index → record.phase = .pendingRoll)

namespace Phase

/-- Nothing is `ahead` of a group just if it is done. -/
theorem ahead_eq_nil {phase : Phase} : phase.ahead = [] ↔ phase = .done := by
  cases phase <;> simp [ahead]

/-- What is `ahead` tells the phases at both ends of the way apart from all others. -/
theorem eq_of_ahead_eq {phase phase' : Phase} (h : phase'.ahead = phase.ahead)
    (hend : phase = .done ∨ phase = .pendingRoll) : phase' = phase := by
  rcases hend with rfl | rfl <;> cases phase' <;> simp_all [ahead]

namespace Leaves

variable {phase : Phase} {stage : Stage} {left : List Stage}

/-- What a phase `Leaves` is left by any phase with the same ahead of it. -/
theorem of_ahead_eq {phase' : Phase} (h : phase.Leaves left) (hahead : phase'.ahead = phase.ahead) :
    phase'.Leaves left := by
  rcases h with rfl | ⟨rfl, hleft⟩
  · exact .inl hahead.symm
  · exact .inr ⟨eq_of_ahead_eq hahead (.inl rfl), hleft⟩

/-- A phase that `Leaves` nothing is the last. -/
theorem eq_done (h : phase.Leaves []) : phase = .done := by
  rcases h with hahead | ⟨hdone, -⟩
  · exact ahead_eq_nil.1 hahead.symm
  · exact hdone

/-- A `stage` that is left of a group does not come too soon. -/
theorem not_comesTooSoon (h : phase.Leaves (stage :: left)) : ¬ stage.ComesTooSoon phase := by
  rcases h with hahead | ⟨rfl, -⟩
  · cases phase <;> simp only [ahead, List.cons.injEq, reduceCtorEq] at hahead <;>
      obtain ⟨rfl, -⟩ := hahead <;> simp [Stage.ComesTooSoon]
  · cases stage <;> simp [Stage.ComesTooSoon]

end Leaves

end Phase

/-- A `stage` that is done leaves its group with the stages after it. -/
theorem StageDone.leaves {id : GroupId} {record is : GroupRecord} {stage : Stage}
    {left : List Stage} (h : StageDone id record scene stage after)
    (hrecord : scene.ledger.record id = .ok record)
    (his : after.ledger.groups[id.index]? = some is)
    (hleaves : record.phase.Leaves (stage :: left)) : is.phase.Leaves left := by
  -- A group that is not done has the stage before it, and then those that are left.
  have hahead {phase : Phase} (hphase : record.phase = phase) (hunfinished : phase ≠ .done) :
      stage :: left = phase.ahead := by
    subst hphase
    rcases hleaves with hahead | ⟨hdone, -⟩
    · exact hahead
    · exact absurd hdone hunfinished
  cases h with
  | past _ hroll hselect hnotify =>
    obtain rfl := Ledger.eq_of_record hrecord his
    rcases hleaves with hahead | ⟨hdone, hsuffix⟩
    · -- The stage would have had something to do.
      cases hphase : record.phase <;> rw [hphase] at hahead <;>
        simp only [Phase.ahead, List.cons.injEq, reduceCtorEq] at hahead <;>
        obtain ⟨rfl, -⟩ := hahead <;> simp [hphase] at hroll hselect hnotify
    · exact .inr ⟨hdone, (List.suffix_cons stage left).trans hsuffix⟩
  | idle hphase =>
    obtain ⟨-, rfl⟩ := List.cons.inj (hahead hphase (by simp))
    obtain rfl := GroupRecord.eq_of_updated hrecord his
    exact .inr ⟨rfl, List.suffix_refl _⟩
  | rolled hphase =>
    obtain ⟨-, rfl⟩ := List.cons.inj (hahead hphase (by simp))
    obtain rfl := GroupRecord.eq_of_updated hrecord his
    exact .inl rfl
  | selected hphase _ hletters _ =>
    obtain ⟨-, rfl⟩ := List.cons.inj (hahead hphase (by simp))
    obtain ⟨_, rfl⟩ := GroupRecord.exists_of_commit hrecord hletters.toExchanged his
    exact .inl rfl
  | finished hphase hletters =>
    obtain ⟨_, rfl⟩ := GroupRecord.exists_of_finish hrecord hletters.toExchanged his
    have hleft : left = [] := by
      rcases hphase with hphase | hphase
      · exact (List.cons.inj (hahead hphase (by simp))).2
      · exact (List.cons.inj (hahead hphase (by simp))).2
    rw [hleft]
    exact .inl rfl

/-! ### One group after the other -/

/-- Groups are gone through one after the other: of the `first` groups that have begun, `left` is
    left of the last one and those before it are done; the `more` groups after it have not begun. -/
structure OneByOne (first more : Nat) (left : List Stage) (ledger : Ledger) : Prop where
  length : first + more = ledger.groups.length
  earlier : ∀ (index : Nat) (record : GroupRecord), index + 1 < first →
    ledger.groups[index]? = some record → record.phase = .done
  hand : ∀ (index : Nat) (record : GroupRecord), index + 1 = first →
    ledger.groups[index]? = some record → record.phase.Leaves left
  none : first = 0 → left = []
  later : ∀ (index : Nat) (record : GroupRecord), first ≤ index →
    ledger.groups[index]? = some record → record.phase = .pendingRoll

/-- What is to be done agrees with how far the groups have come, by `OneByOne`. -/
def InOrder (progress : Progress ρ) : Prop :=
  ∃ first more left plans, progress.pending =
      left.map (fun stage => Step.stage stage ⟨first - 1⟩) ++ toCome first more plans ∧
    OneByOne first more left progress.scene.ledger

namespace OneByOne

variable {ledger ledger' : Ledger} {first more : Nat} {left left' : List Stage}

/-- All other groups stay where they are on their way, and the last that has begun goes on: the
    groups stay `OneByOne`. -/
theorem next (h : OneByOne first more left ledger)
    (hlength : ledger'.groups.length = ledger.groups.length) (hnone : first = 0 → left' = [])
    (hothers : ∀ (index : Nat) (was is : GroupRecord), index + 1 ≠ first →
      ledger.groups[index]? = some was → ledger'.groups[index]? = some is →
        is.phase.ahead = was.phase.ahead)
    (hhand : ∀ (index : Nat) (was is : GroupRecord), index + 1 = first →
      ledger.groups[index]? = some was → ledger'.groups[index]? = some is →
        was.phase.Leaves left → is.phase.Leaves left') :
    OneByOne first more left' ledger' := by
  have hwas {index : Nat} {is : GroupRecord} (his : ledger'.groups[index]? = some is) :
      ∃ was, ledger.groups[index]? = some was := by
    have hlt : index < ledger.groups.length := by
      rw [← hlength]
      exact (List.getElem?_eq_some_iff.1 his).1
    exact ⟨_, List.getElem?_eq_getElem hlt⟩
  -- Groups before the one at hand stay done, and those after it stay pending.
  refine ⟨h.length.trans hlength.symm, ?_, ?_, hnone, ?_⟩
  · intro index is hlt his
    obtain ⟨was, hwas⟩ := hwas his
    have hdone := h.earlier index was hlt hwas
    have hsame := hothers index was is (by omega) hwas his
    rw [Phase.eq_of_ahead_eq hsame (.inl hdone), hdone]
  · intro index is hindex his
    obtain ⟨was, hwas⟩ := hwas his
    exact hhand index was is hindex hwas his (h.hand index was hindex hwas)
  · intro index is hle his
    obtain ⟨was, hwas⟩ := hwas his
    have hpending := h.later index was hle hwas
    have hsame := hothers index was is (by omega) hwas his
    rw [Phase.eq_of_ahead_eq hsame (.inr hpending), hpending]

/-- All groups stay where they are on their way, so they stay `OneByOne`. -/
theorem kept (h : OneByOne first more left ledger)
    (hlength : ledger'.groups.length = ledger.groups.length)
    (hkept : ∀ (index : Nat) (was is : GroupRecord), ledger.groups[index]? = some was →
      ledger'.groups[index]? = some is → is.phase.ahead = was.phase.ahead) :
    OneByOne first more left ledger' := by
  refine h.next hlength h.none (fun index was is _ => hkept index was is) ?_
  exact fun index was is _ hwas his hleaves => hleaves.of_ahead_eq (hkept index was is hwas his)

/-- A group through which nothing is left is done, and the next one has everything before it, by
    `OneByOne`. -/
theorem begin (h : OneByOne first (more + 1) [] ledger) :
    OneByOne (first + 1) more [.roll, .select, .notify] ledger := by
  refine ⟨by rw [← h.length]; omega, ?_, ?_, by omega, ?_⟩
  · intro index record hlt hrecord
    rcases Nat.lt_or_eq_of_le (Nat.lt_succ_iff.1 hlt) with hlt | heq
    · exact h.earlier index record hlt hrecord
    · exact (h.hand index record heq hrecord).eq_done
  · intro index record heq hrecord
    rw [h.later index record (by omega) hrecord]
    exact .inl rfl
  · exact fun index record hle => h.later index record (by omega)

/-- The `groups` that are entered have not begun. -/
theorem opened (h : OneByOne first 0 [] ledger) (plan : Plan) (groups : List FiringGroup) :
    OneByOne first groups.length [] (plan.opened groups ledger) := by
  have hlength : first = ledger.groups.length := h.length
  -- A record is an old one, or it is fresh.
  have hold {index : Nat} {record : GroupRecord} (hlt : index < first)
      (hrecord : (plan.opened groups ledger).groups[index]? = some record) :
      ledger.groups[index]? = some record := by
    rcases Plan.getElem?_opened hrecord with ⟨-, hold⟩ | ⟨hle, -⟩
    · exact hold
    · omega
  refine ⟨?_, ?_, ?_, fun _ => rfl, ?_⟩
  · simp [Plan.opened, freshRecords, hlength]
  · exact fun index record hlt hrecord => h.earlier index record hlt (hold (by omega) hrecord)
  · exact fun index record heq hrecord => h.hand index record heq (hold (by omega) hrecord)
  · intro index record hle hrecord
    rcases Plan.getElem?_opened hrecord with ⟨hlt, -⟩ | ⟨-, hfresh⟩
    · omega
    · obtain ⟨-, hfresh⟩ := eq_of_mem_freshRecords (List.mem_of_getElem? hfresh)
      rw [hfresh]

end OneByOne

namespace InOrder

/-- What an action `InOrder` has before it: a plan when all groups are done, or a stage of the last
    group that has begun, or is about to begin. -/
theorem cases {step : Step} {rest : List Step} (h : InOrder ⟨step :: rest, scene⟩) :
    (∃ first plan, ∃ others : List Plan, step = .plan plan ∧ rest = others.map .plan ∧
        OneByOne first 0 [] scene.ledger) ∨
      ∃ index more stage left plans, step = .stage stage ⟨index⟩ ∧
        rest = left.map (fun stage => Step.stage stage ⟨index⟩) ++ toCome (index + 1) more plans ∧
        OneByOne (index + 1) more (stage :: left) scene.ledger := by
  obtain ⟨first, more, left, plans, hpending, horder⟩ := h
  cases left with
  | cons stage left =>
    obtain ⟨rfl, rfl⟩ := List.cons.inj hpending
    cases first with
    | zero => exact absurd (horder.none rfl) (by simp)
    | succ index => exact .inr ⟨index, more, stage, left, plans, rfl, rfl, horder⟩
  | nil =>
    rcases toCome_cons hpending with ⟨fewer, rfl, rfl, rfl⟩ | ⟨rfl, plan, others, rfl, rfl, rfl⟩
    · exact .inr ⟨first, fewer, .roll, [.select, .notify], plans, rfl, rfl, horder.begin⟩
    · exact .inl ⟨first, plan, others, rfl, rfl, horder⟩

/-- An action is `InOrder` at the beginning, with any `plans`. -/
theorem of_plans {plans : List Plan} (hgroups : scene.ledger.groups = []) :
    InOrder ⟨plans.map .plan, scene⟩ := by
  refine ⟨0, 0, [], plans, rfl, ⟨by simp [hgroups], ?_, ?_, fun _ => rfl, ?_⟩⟩
  · simp [hgroups]
  · simp [hgroups]
  · simp [hgroups]

/-- In an `Interlude` an action stays in order. -/
theorem interlude {pending : List Step} (h : InOrder ⟨pending, scene⟩)
    (hpause : Interlude scene after) : InOrder ⟨pending, after⟩ := by
  obtain ⟨first, more, left, plans, hpending, horder⟩ := h
  obtain ⟨parked, hledger⟩ := hpause.ledger
  refine ⟨first, more, left, plans, hpending, ?_⟩
  show OneByOne first more left after.ledger
  rw [hledger]
  exact ⟨horder.length, horder.earlier, horder.hand, horder.none, horder.later⟩

/-- An action of which nothing is left takes up a `plan`, and is `InOrder`. -/
theorem plan (h : InOrder ⟨[], scene⟩) (plan : Plan) : InOrder ⟨[.plan plan], scene⟩ := by
  obtain ⟨first, more, left, plans, hpending, horder⟩ := h
  obtain ⟨hleft, hcome⟩ := List.append_eq_nil_iff.1 hpending.symm
  obtain rfl : left = [] := List.map_eq_nil_iff.1 hleft
  cases more with
  | zero => exact ⟨first, 0, [], [plan], rfl, horder⟩
  | succ fewer => simp [toCome, List.range'_succ, Step.allOf] at hcome

/-- When nothing is left to do of an action `InOrder`, all groups are done. -/
theorem done_of_drained (h : InOrder ⟨[], scene⟩) {index : Nat} {record : GroupRecord}
    (hrecord : scene.ledger.groups[index]? = some record) : record.phase = .done := by
  obtain ⟨first, more, left, plans, hpending, horder⟩ := h
  obtain ⟨hleft, hcome⟩ := List.append_eq_nil_iff.1 hpending.symm
  obtain rfl : left = [] := List.map_eq_nil_iff.1 hleft
  cases more with
  | succ fewer => simp [toCome, List.range'_succ, Step.allOf] at hcome
  | zero =>
    have hlength : first = scene.ledger.groups.length := horder.length
    have hlt := (List.getElem?_eq_some_iff.1 hrecord).1
    rcases Nat.lt_or_eq_of_le (hlength ▸ hlt : index + 1 ≤ first) with hearlier | hlast
    · exact horder.earlier index record hearlier hrecord
    · exact (horder.hand index record hlast hrecord).eq_done

variable [RandomSource ρ]

/-- A `step` that succeeds leads on `InOrder`. -/
theorem step {step : Step} {rest next : List Step} (h : InOrder ⟨step :: rest, scene⟩)
    (hdone : (step.perform timing).onScene scene = (.ok next, after)) :
    InOrder ⟨next ++ rest, after⟩ := by
  -- What succeeds is the next plan, with no group at hand, or the next stage of the group at hand.
  rcases h.cases with ⟨first, plan, others, rfl, rfl, horder⟩ |
    ⟨index, more, stage, left, plans, rfl, rfl, horder⟩
  · obtain ⟨groups, -, rfl, rfl⟩ := Step.perform_plan_ok hdone
    refine ⟨first, groups.length, [], others, ?_, horder.opened plan groups⟩
    have hlength : first = scene.ledger.groups.length := horder.length
    rw [map_id_freshRecords, hlength]
    simp [toCome, List.flatMap_map]
  · obtain ⟨rfl, record, hrecord, hstage⟩ := Step.perform_stage_ok hdone
    refine ⟨index + 1, more, left, plans, rfl, ?_⟩
    refine horder.next hstage.length (by omega) ?_ ?_
    · intro other was is hne hwas his
      obtain ⟨was', hwas', hchange⟩ := hstage.recordChange hrecord his
      obtain rfl : was = was' := Option.some.inj (hwas.symm.trans hwas')
      have hother : other ≠ index := by omega
      rw [hchange.phase_of_ne hother]
    · intro other was is heq hwas his hleaves
      obtain rfl : other = index := by omega
      obtain rfl := Ledger.eq_of_record hrecord hwas
      exact hstage.leaves hrecord his hleaves

/-- An `attempt` at a step keeps the action in order. -/
theorem attempt {step : Step} {rest : List Step} (timing : Timing)
    (h : InOrder ⟨step :: rest, scene⟩) :
    InOrder (Progress.attempt timing ⟨step :: rest, scene⟩) := by
  rcases hresult : (step.perform timing).onScene scene with ⟨fault | next, after⟩
  · rw [Progress.attempt_error hresult]
    have hkept := Step.uncommitted_of_error hresult
    obtain ⟨first, more, left, plans, hpending, horder⟩ := h
    refine ⟨first, more, left, plans, hpending, horder.kept hkept.length ?_⟩
    intro index was is hwas his
    rcases (hkept.groups index was is hwas his).phase with hsame | ⟨-, hwas, his, -⟩
    · rw [hsame]
    · rw [hwas, his]
      rfl
  · rw [Progress.attempt_ok hresult]
    exact h.step hresult

/-- No `step` of an action `InOrder` complains about a phase. -/
theorem orderly {step : Step} {rest : List Step} (timing : Timing)
    (h : InOrder ⟨step :: rest, scene⟩) : Orderly ((step.perform timing).onScene scene).1 := by
  refine Step.perform_orderly timing step scene fun stage id record hstep hrecord => ?_
  rcases h.cases with ⟨_, _, _, rfl, -, -⟩ | ⟨index, _, due, _, _, rfl, -, horder⟩
  · simp at hstep
  · obtain ⟨rfl, rfl⟩ := Step.stage.inj hstep
    exact (horder.hand index record rfl (Ledger.record_eq_ok.1 hrecord)).not_comesTooSoon

end InOrder

/-- An action `Begins` in order. -/
theorem Begins.inOrder {start : Progress ρ} (h : Begins start) : InOrder start := by
  have hgroups := h.groups
  cases h with
  | @move _ _ _ _ _ ordering hnew hready =>
    obtain ⟨territories, moving, -, -, -, hstart⟩ := Overflight.prepare_ok hnew hready
    dsimp only at hstart
    generalize (Overflight.inOrder ordering moving).map BoardUnit.id = targets at hstart
    rw [hstart] at hgroups ⊢
    have horder := @InOrder.of_plans ρ _ (territories.map (Plan.overflight · targets)) hgroups
    rwa [List.map_map] at horder
  | battle => exact @InOrder.of_plans ρ _ [] hgroups

/-! ### Facts about the group at hand -/

/-- A fact `Holds` of a record and the board that matters only while the group is on its way: it
    holds of groups that have not begun or are done, and neither the stages of the group itself nor
    steps that fail put an end to it. -/
structure OnTheWay (ρ : Type) (Holds : Board → GroupRecord → Prop) : Prop where
  quiet : ∀ {board : Board} {record : GroupRecord},
    record.phase = .pendingRoll ∨ record.phase = .done → Holds board record
  stage : ∀ {id : GroupId} {record is : GroupRecord} {scene after : Scene ρ} {stage : Stage},
    StageDone id record scene stage after → scene.ledger.record id = .ok record →
      after.ledger.groups[id.index]? = some is → Holds scene.host.board record →
        Holds after.host.board is
  failed : ∀ {step : Step} {fault : Fault} {board : Board} {index : Nat} {was is : GroupRecord},
    RecordKept step fault board index was is → Holds board was → Holds board is

namespace OnTheWay

variable {Holds : Board → GroupRecord → Prop} [RandomSource ρ]

/-- An attempt at a `step` is about one group, and no other group is on its way then: so the fact is
    kept. -/
theorem attempt (hway : OnTheWay ρ Holds) {step : Step} {rest : List Step}
    (horder : InOrder ⟨step :: rest, scene⟩)
    (hholds : ∀ (index : Nat) (record : GroupRecord), scene.ledger.groups[index]? = some record →
      Holds scene.host.board record) {index : Nat} {is : GroupRecord}
    (his : (Progress.attempt timing ⟨step :: rest, scene⟩).scene.ledger.groups[index]? = some is) :
    Holds (Progress.attempt timing ⟨step :: rest, scene⟩).scene.host.board is := by
  rcases hresult : (step.perform timing).onScene scene with ⟨fault | next, after⟩
  · rw [Progress.attempt_error hresult] at his ⊢
    have hkept := Step.uncommitted_of_error hresult
    obtain ⟨was, hwas, -⟩ := hkept.recordChange his
    show Holds after.host.board is
    rw [hkept.board]
    exact hway.failed (hkept.groups index was is hwas his) (hholds index was hwas)
  rw [Progress.attempt_ok hresult] at his ⊢
  rcases horder.cases with ⟨_, plan, _, rfl, -, -⟩ | ⟨hand, _, stage, _, _, rfl, -, hone⟩
  · obtain ⟨groups, -, -, rfl⟩ := Step.perform_plan_ok hresult
    rcases Plan.getElem?_opened his with ⟨-, hold⟩ | ⟨-, hfresh⟩
    · exact hholds index is hold
    · obtain ⟨-, hfresh⟩ := eq_of_mem_freshRecords (List.mem_of_getElem? hfresh)
      exact hway.quiet (.inl (by rw [hfresh]))
  · obtain ⟨-, record, hrecord, hstage⟩ := Step.perform_stage_ok hresult
    by_cases hindex : index = hand
    · subst hindex
      exact hway.stage hstage hrecord his (hholds index record (Ledger.record_eq_ok.1 hrecord))
    · obtain ⟨was, hwas, hchange⟩ := hstage.recordChange hrecord his
      have hsame : is.phase = was.phase := hchange.phase_of_ne hindex
      -- Any other group is done or has not begun, and there the property asks for nothing.
      rcases Nat.lt_or_gt_of_ne hindex with hlt | hgt
      · exact hway.quiet (.inr (hsame.trans (hone.earlier index was (by omega) hwas)))
      · exact hway.quiet (.inl (hsame.trans (hone.later index was (by omega) hwas)))

/-- When steps and groups are in order, a fact that is `OnTheWay` holds of all groups at any
    time. -/
theorem holds (hway : OnTheWay ρ Holds) {start now : Progress ρ} {count : Nat}
    (hbegins : Begins start) (h : Proceeds Interlude FiresNext start count now) {index : Nat}
    {record : GroupRecord} (hrecord : now.scene.ledger.groups[index]? = some record) :
    Holds now.scene.host.board record := by
  -- The order of the steps is carried along, since the step lemma needs it.
  refine (@Proceeds.preserves ρ _ Interlude FiresNext start now count (fun progress =>
    InOrder progress ∧ ∀ (index : Nat) (record : GroupRecord),
      progress.scene.ledger.groups[index]? = some record →
        Holds progress.scene.host.board record) ?_ ?_ ?_ ?_ h).2 index record hrecord
  · exact ⟨hbegins.inOrder, by simp [hbegins.groups]⟩
  · rintro timing step rest scene ⟨horder, hholds⟩
    exact ⟨horder.attempt timing, fun index is his => hway.attempt horder hholds his⟩
  · rintro pending before after hpause ⟨horder, hholds⟩
    refine ⟨horder.interlude hpause, fun index record hrecord => ?_⟩
    rw [hpause.groups] at hrecord
    rw [hpause.board]
    exact hholds index record hrecord
  · rintro left next scene ⟨rfl, fire, rfl⟩ ⟨horder, hholds⟩
    exact ⟨horder.plan (.battle fire), hholds⟩

end OnTheWay

/-! ### In step -/

/-- By `stagesOf`, the stages among some steps and others are those among both. -/
theorem stagesOf_append (index : Nat) (steps steps' : List Step) :
    stagesOf index (steps ++ steps') = stagesOf index steps ++ stagesOf index steps' :=
  List.filterMap_append

/-- What is `left` of one group is stages of that group only. -/
theorem stagesOf_map_stage (index hand : Nat) (left : List Stage) :
    stagesOf index (left.map fun stage => Step.stage stage ⟨hand⟩) =
      if hand = index then left else [] := by
  unfold stagesOf
  rw [List.filterMap_map]
  by_cases h : hand = index
  · have hsome : Step.stageOf? index ∘ (fun stage => Step.stage stage ⟨hand⟩) = some := by
      funext stage
      simp [Step.stageOf?, h]
    rw [hsome, List.filterMap_some, if_pos h]
  · have hnone : Step.stageOf? index ∘ (fun stage => Step.stage stage ⟨hand⟩) = fun _ => none := by
      funext stage
      simp [Step.stageOf?, h]
    rw [hnone, if_neg h]
    simp

/-- A group that is still `toCome` has everything before it. -/
theorem stagesOf_toCome (index first more : Nat) (plans : List Plan) :
    stagesOf index (toCome first more plans) =
      if first ≤ index ∧ index < first + more then [.roll, .select, .notify] else [] := by
  induction more generalizing first with
  | zero =>
    have hplans : stagesOf index (plans.map .plan) = [] := by
      simp [stagesOf, Step.stageOf?]
    have hnone : ¬ (first ≤ index ∧ index < first + 0) := by omega
    rw [if_neg hnone]
    exact hplans
  | succ more ih =>
    have hone : toCome first (more + 1) plans =
        [Stage.roll, .select, .notify].map (fun stage => Step.stage stage ⟨first⟩) ++
          toCome (first + 1) more plans := rfl
    rw [hone, stagesOf_append, stagesOf_map_stage, ih]
    -- The stages of the first group to come are in front, and those of all others behind.
    by_cases h : first = index
    · have hin : first ≤ index ∧ index < first + (more + 1) := by omega
      have hout : ¬ (first + 1 ≤ index ∧ index < first + 1 + more) := by omega
      rw [if_pos h, if_pos hin, if_neg hout, List.append_nil]
    · have hiff : (first + 1 ≤ index ∧ index < first + 1 + more) ↔
          first ≤ index ∧ index < first + (more + 1) := by omega
      rw [if_neg h, List.nil_append]
      simp only [hiff]

/-- What is `left` of one group is stages with its number. -/
theorem filterMap_index?_map_stage (hand : Nat) (left : List Stage) :
    (left.map fun stage => Step.stage stage ⟨hand⟩).filterMap Step.index? =
      List.replicate left.length hand := by
  simp only [List.filterMap_map, Function.comp_def, Step.index?, List.filterMap_eq_map',
    List.map_const']

/-- The groups whose stages are `toCome`, in order, three stages each. -/
theorem filterMap_index?_toCome (first more : Nat) (plans : List Plan) :
    (toCome first more plans).filterMap Step.index? =
      (List.range' first more).flatMap fun index => List.replicate 3 index := by
  have hplans : (plans.map Step.plan).filterMap Step.index? = [] := by simp [Step.index?]
  rw [toCome, List.filterMap_append, hplans, List.append_nil, List.filterMap_flatMap]
  rfl

/-- What is `left` of each group is what its phase leaves, by `OneByOne`. -/
theorem OneByOne.leaves {first more index : Nat} {left : List Stage} {ledger : Ledger}
    {record : GroupRecord} (h : OneByOne first more left ledger) (plans : List Plan)
    (hrecord : ledger.groups[index]? = some record) :
    record.phase.Leaves (stagesOf index
      (left.map (fun stage => Step.stage stage ⟨first - 1⟩) ++ toCome first more plans)) := by
  have hlength := h.length
  have hlt := (List.getElem?_eq_some_iff.1 hrecord).1
  rw [stagesOf_append, stagesOf_map_stage, stagesOf_toCome]
  -- The group is done, at hand, or still to come.
  rcases Nat.lt_trichotomy (index + 1) first with hbefore | hhand | hafter
  · have hother : first - 1 ≠ index := by omega
    have hout : ¬ (first ≤ index ∧ index < first + more) := by omega
    rw [if_neg hother, if_neg hout, h.earlier index record hbefore hrecord]
    exact .inl rfl
  · have hthis : first - 1 = index := by omega
    have hout : ¬ (first ≤ index ∧ index < first + more) := by omega
    rw [if_pos hthis, if_neg hout, List.append_nil]
    exact h.hand index record hhand hrecord
  · have hin : first ≤ index ∧ index < first + more := by omega
    have hnone : (if first - 1 = index then left else []) = [] := by
      split
      · exact h.none (by omega)
      · rfl
    rw [hnone, if_pos hin, h.later index record (by omega) hrecord]
    exact .inl rfl

/-- An action `InOrder` is in step, if all that comes after its groups is fire at a move. -/
theorem InOrder.inStep {pending : List Step} (h : InOrder ⟨pending, scene⟩)
    (hflights : ∀ plan, Step.plan plan ∈ pending →
      ∃ name targets, plan = .overflight name targets) :
    InStep pending scene.ledger := by
  obtain ⟨first, more, left, plans, rfl, horder⟩ := h
  dsimp only at hflights horder ⊢
  have hlength := horder.length
  have hleft := filterMap_index?_map_stage (first - 1) left
  have hcome := filterMap_index?_toCome first more plans
  constructor
  case split =>
    refine ⟨left.map (fun stage => Step.stage stage ⟨first - 1⟩) ++
      (List.range' first more).flatMap (fun index => Step.allOf ⟨index⟩), plans.map .plan, ?_, ?_, ?_⟩
    · rw [toCome, List.append_assoc]
    · intro step hstep
      rcases List.mem_append.1 hstep with hhand | hlater
      · obtain ⟨stage, -, rfl⟩ := List.mem_map.1 hhand
        rfl
      · obtain ⟨index, -, hall⟩ := List.mem_flatMap.1 hlater
        have hstages : step = .stage .roll ⟨index⟩ ∨ step = .stage .select ⟨index⟩ ∨
            step = .stage .notify ⟨index⟩ := by simpa [Step.allOf] using hall
        rcases hstages with rfl | rfl | rfl <;> rfl
    · intro step hstep
      obtain ⟨plan, hplan, rfl⟩ := List.mem_map.1 hstep
      have hmem : Step.plan plan ∈ toCome first more plans :=
        List.mem_append_right _ (List.mem_map_of_mem hplan)
      obtain ⟨name, targets, rfl⟩ := hflights plan (List.mem_append_right _ hmem)
      exact ⟨name, targets, rfl⟩
  case increasing =>
    rw [List.filterMap_append, hleft, hcome, List.pairwise_append]
    refine ⟨List.pairwise_replicate.2 (.inr (Nat.le_refl _)), ?_, ?_⟩
    · rw [List.pairwise_flatMap]
      refine ⟨fun index _ => List.pairwise_replicate.2 (.inr (Nat.le_refl _)), ?_⟩
      refine (List.pairwise_lt_range' (s := first) (n := more)).imp fun hlt x hx y hy => ?_
      rw [List.eq_of_mem_replicate hx, List.eq_of_mem_replicate hy]
      exact Nat.le_of_lt hlt
    · intro x hx y hy
      obtain ⟨index, hindex, hy⟩ := List.mem_flatMap.1 hy
      have hfirst := (List.mem_range'_1.1 hindex).1
      rw [List.eq_of_mem_replicate hx, List.eq_of_mem_replicate hy]
      omega
  case known =>
    intro index hindex
    rw [List.filterMap_append, hleft, hcome, List.mem_append] at hindex
    rcases hindex with hhand | hlater
    · obtain ⟨hsome, rfl⟩ := List.mem_replicate.1 hhand
      have hfirst : first ≠ 0 := fun hzero => hsome (by simp [horder.none hzero])
      omega
    · obtain ⟨other, hother, hindex⟩ := List.mem_flatMap.1 hlater
      obtain rfl := List.eq_of_mem_replicate hindex
      have := List.mem_range'_1.1 hother
      omega
  case stages => exact fun index record hrecord => horder.leaves plans hrecord
  case hand =>
    refine ⟨first - 1, fun index record hrecord => ⟨fun hlt => ?_, fun hlt => ?_⟩⟩
    · exact horder.earlier index record (by omega) hrecord
    · exact horder.later index record (by omega) hrecord

/-! ### Runs -/

/-- A move begins with plans for the territories that `fire`: `prepare` queues no others. -/
theorem Overflight.overflights_of_prepare {fire ready : Overflight} {host : Host ρ} {route : Route}
    {units : List UnitId} {ordering : BoardUnit → BoardUnit → Ordering}
    (hnew : fire.agenda.isEmpty = true) (hready : fire.prepare host route units ordering = .ok ready) :
    ∀ plan, .plan plan ∈ (ready.progress host).pending →
      ∃ name targets, plan = .overflight name targets := by
  obtain ⟨territories, moving, -, -, -, hstart⟩ := prepare_ok hnew hready
  intro plan hplan
  rw [hstart] at hplan
  obtain ⟨name, -, hname⟩ := List.mem_map.1 hplan
  exact ⟨name, _, (Step.plan.inj hname).symm⟩

variable [RandomSource ρ]

/-- From the `start` of an action on, steps and groups are `InOrder`. -/
theorem Proceeds.inOrder {start now : Progress ρ} {count : Nat} (hstart : InOrder start)
    (h : Proceeds Interlude FiresNext start count now) : InOrder now := by
  refine h.preserves hstart ?_ ?_ ?_
  · exact fun timing step rest scene horder => horder.attempt timing
  · exact fun pending before after hpause horder => horder.interlude hpause
  · rintro left next scene ⟨rfl, fire, rfl⟩ horder
    exact horder.plan (.battle fire)

/-- A run of an action `InOrder` does not complain about a phase. -/
theorem InOrder.run_orderly {agenda : Agenda Step} (h : InOrder ⟨agenda.pending, scene⟩)
    (timing : Timing) (limit : Option Nat) : Orderly (agenda.run timing limit scene).1 := by
  rcases hrun : agenda.run timing limit scene with ⟨fault | done, agenda', after⟩
  · obtain ⟨count, step, rest, mid, hadvances, -, herror, -⟩ := Agenda.run_error hrun
    have hmid : InOrder ⟨step :: rest, mid⟩ :=
      hadvances.preserves h fun _ _ _ _ _ _ horder => horder.attempt timing
    have horderly := hmid.orderly timing
    rw [herror] at horderly
    exact .error (horderly fault rfl)
  · exact .ok done

/-- Every attempt that succeeds takes a step off, and for each group that is entered three are put
    on: so the `count` is known. -/
theorem Proceeds.count_add_length {start now : Progress ρ} {count : Nat}
    (h : Proceeds Lapse Stays start count now) :
    count + now.pending.length + 3 * start.scene.ledger.groups.length =
      start.pending.length + 3 * now.scene.ledger.groups.length := by
  induction h with
  | here => omega
  | @done count timing step rest next scene after _ hdone ih =>
    -- A plan is taken off, and three stages are put on for each group; a stage is taken off.
    cases step with
    | plan plan =>
      obtain ⟨groups, -, rfl, rfl⟩ := Step.perform_plan_ok hdone
      have hnext : (((freshRecords scene.ledger.groups.length groups).map
          GroupRecord.id).flatMap Step.allOf).length = 3 * groups.length := by
        rw [List.length_flatMap, List.map_map]
        simp [Function.comp_def, Step.allOf, freshRecords, List.map_const', Nat.mul_comm]
      have hopened : (plan.opened groups scene.ledger).groups.length =
          scene.ledger.groups.length + groups.length := by
        simp [Plan.opened, freshRecords]
      simp only [List.length_append, List.length_cons, hnext, hopened] at ih ⊢
      omega
    | stage stage id =>
      obtain ⟨rfl, record, -, hstage⟩ := Step.perform_stage_ok hdone
      simp only [List.nil_append, List.length_cons, hstage.length] at ih ⊢
      omega
  | failed _ hfailed ih =>
    rw [← (Step.uncommitted_of_error hfailed).length] at ih
    exact ih
  | paused _ hlapse ih =>
    rw [hlapse.groups]
    exact ih
  | turned _ hturn => exact hturn.elim

/-- By `attempt` no plan is queued: those that are `pending` were so before. -/
theorem Progress.mem_of_plan_mem_attempt {step : Step} {rest : List Step} {plan : Plan}
    (h : .plan plan ∈ (attempt timing ⟨step :: rest, scene⟩).pending) :
    .plan plan ∈ step :: rest := by
  have hattempted := attempted timing step rest scene
  generalize attempt timing ⟨step :: rest, scene⟩ = progress at hattempted h
  cases hattempted with
  | failed => exact h
  | planned =>
    refine List.mem_cons_of_mem _ ?_
    rcases List.mem_append.1 h with hnext | hrest
    · obtain ⟨id, -, hstage⟩ := List.mem_flatMap.1 hnext
      simp [Step.allOf] at hstage
    · exact hrest
  | staged => exact List.mem_cons_of_mem _ h

/-- Where nothing but what is left is done, each `plan` that is done was left at first. -/
theorem Proceeds.mem_of_plan_mem {start now : Progress ρ} {count : Nat}
    (h : Proceeds Interlude Stays start count now) {plan : Plan}
    (hplan : .plan plan ∈ now.pending) : .plan plan ∈ start.pending := by
  refine @preserves ρ _ Interlude Stays start now count (fun progress =>
    ∀ plan, .plan plan ∈ progress.pending → .plan plan ∈ start.pending) ?_ ?_ ?_ ?_ h plan hplan
  · exact fun plan hplan => hplan
  · exact fun timing step rest scene hplans plan hplan =>
      hplans plan (Progress.mem_of_plan_mem_attempt hplan)
  · exact fun pending before after _ hplans => hplans
  · exact fun left next scene hturn => hturn.elim

/-- A move fires over territories only: what it `Proceeds` to has no plan for a battle. -/
theorem Proceeds.overflights {start now : Progress ρ} {count : Nat}
    (hstart : ∀ plan, .plan plan ∈ start.pending → ∃ name targets, plan = .overflight name targets)
    (h : Proceeds Interlude Stays start count now) :
    ∀ plan, .plan plan ∈ now.pending → ∃ name targets, plan = .overflight name targets :=
  fun plan hplan => hstart plan (h.mem_of_plan_mem hplan)

/-- At any time in the `fire` at a move, whatever has failed or was saved and loaded before, what is
    left to do is `InStep` with the groups. So no run complains about a phase; a run with which the
    move ends makes the steps that were done as many as the territories and three for each group; a
    run without a limit ends, with a fault or with nothing left to do; and when nothing is left to
    do, all groups are done and nothing is parked. -/
theorem Overflight.in_step_until_drained {fire ready now : Overflight} {host there : Host ρ}
    {route : Route} {units : List UnitId} {ordering : BoardUnit → BoardUnit → Ordering}
    {count : Nat} (hnew : fire.agenda.isEmpty = true)
    (hready : fire.prepare host route units ordering = .ok ready)
    (hproceeds : Proceeds Lapse Stays (ready.progress host) count (now.progress there)) :
    InStep now.agenda.pending now.ledger ∧
      (∀ limit, Orderly (now.run limit there).1) ∧
      (∀ limit done later last, now.run limit there = (.ok done, later, last) →
        later.agenda.isEmpty = true →
          count + done = ready.agenda.size + 3 * later.ledger.groups.length) ∧
      (∃ bound, now.run none there = now.run (some bound) there) ∧
      (∀ done later last, now.run none there = (.ok done, later, last) →
        later.agenda.isEmpty = true) ∧
      (now.agenda.isEmpty = true → (∀ record ∈ now.ledger.groups, record.phase = .done) ∧
        now.ledger.parked = ∅) := by
  have hbegins : Begins (ready.progress host) := .move hnew hready
  have horder : InOrder (now.progress there) :=
    (hproceeds.interlude.firesNext Stays.firesNext).inOrder hbegins.inOrder
  have hflights := hproceeds.interlude.overflights (overflights_of_prepare hnew hready)
  -- When nothing is left of a step, nothing is left of any group.
  have hdrained {later : Overflight} {last : Host ρ} (hempty : later.agenda.isEmpty = true) :
      (later.progress last).pending.length = 0 := by
    rw [pending_of_isEmpty last hempty]
    rfl
  refine ⟨horder.inStep hflights, ?_, ?_, ?_, ?_, ?_⟩
  · intro limit
    rcases hrun : now.run limit there with ⟨result, later, last⟩
    have horderly := horder.run_orderly now.timing limit
    rwa [run_eq hrun] at horderly
  · intro limit done later last hrun hempty
    obtain ⟨more, hmore, hdone⟩ := run_proceeds hrun
    have hlength := (hproceeds.trans hmore).count_add_length
    rw [hdrained hempty, hbegins.groups, ← hdone done rfl] at hlength
    have hsize : (ready.progress host).pending.length = ready.agenda.size := by
      cases hcurrent : ready.agenda.current <;>
        simp [progress, Agenda.pending, Agenda.size, hcurrent]
    rw [hsize] at hlength
    exact hlength
  · obtain ⟨bound, hbound⟩ := Agenda.exists_run_eq now.timing now.agenda ⟨there, now.ledger⟩
    refine ⟨bound, ?_⟩
    rw [run, hbound]
    rfl
  · intro done later last hrun
    obtain ⟨⟨pending, _⟩, _, hreaches, hagenda, _⟩ := Agenda.run_ok (run_eq hrun)
    obtain rfl : pending = [] := hreaches
    rw [hagenda]
    rfl
  · intro hempty
    have hpending : now.agenda.pending = [] := pending_of_isEmpty there hempty
    have hdone (index : Nat) (record : GroupRecord)
        (hrecord : now.ledger.groups[index]? = some record) : record.phase = .done := by
      rw [progress, hpending] at horder
      exact horder.done_of_drained hrecord
    refine ⟨fun record hrecord => ?_, ?_⟩
    · obtain ⟨index, hindex⟩ := List.mem_iff_getElem?.1 hrecord
      exact hdone index record hindex
    · have hfreely : Proceeds Lapse Freely (ready.progress host) count (now.progress there) :=
        hproceeds.weaken (fun _ _ hlapse => hlapse) fun _ _ _ => trivial
      have hnone := (hfreely.apt hbegins.question?).question?_eq_none hdone
      refine Std.ExtTreeMap.ext_getElem? fun key => ?_
      have hkey : (now.ledger.parked[key]?).map Request.question = none := hnone key
      simpa using hkey

/-- A `Sortie` after its roll is in step, and two more steps end it. -/
theorem Overflight.in_step_until_drained_sortie :
    prepare {} (Sortie.host true) Sortie.route [⟨1⟩] BoardUnit.leastMovementFirst =
        .ok (Sortie.ready true) ∧
      InStep Sortie.left (Sortie.fired true).ledger ∧
      ∃ later last, (Sortie.fired true).run (some 2)
          (Sortie.rolled true .returnToHost Sortie.outcome).host = (.ok 2, later, last) ∧
        later.agenda.isEmpty = true ∧
        2 + 2 = (Sortie.ready true).agenda.size + 3 * later.ledger.groups.length := by
  obtain ⟨count, hproceeds, hcount⟩ := run_proceeds (Sortie.run_eq true)
  obtain rfl : 2 = count := hcount 2 rfl
  obtain ⟨hstep, -, hdone, -⟩ := in_step_until_drained rfl (Sortie.prepare_eq true) hproceeds
  exact ⟨Sortie.prepare_eq true, hstep, _, _, rfl, rfl, hdone (some 2) 2 _ _ rfl rfl⟩

end Flak
