import Flak.Fire.Step
import Flak.Proofs.Engine.Run
import Mathlib.Logic.Function.Iterate

namespace Flak

/-!
# Running an action step by step

What the calls that run an agenda have in common, whatever their limits:

* `Progress.attempt` — one attempt at the next step, which stays the next one if it fails;
* `Advances` — steps that succeed one after the other;
* `Agenda.run_ends`, `Agenda.run_eq_ok`, `Agenda.run_eq_error` — a run is such a sequence, up to its
  limit, the end of the agenda or a step that fails;
* `Agenda.exists_run_eq` — a run without a limit comes to an end;
* `Agenda.run_preserves` — what every attempt preserves, every run does.
-/

variable {ρ : Type} [RandomSource ρ] {timing : Timing}

/-- How far an action has come: what is `pending`, next step first, and the `scene`. -/
structure Progress (ρ : Type) where
  pending : List Step
  scene : Scene ρ

/-- Where an attempt at the next step of a `Progress` leads. -/
def Progress.attempt (timing : Timing) : Progress ρ → Progress ρ
  | ⟨[], scene⟩ => ⟨[], scene⟩
  | ⟨step :: rest, scene⟩ =>
      match (step.perform timing).onScene scene with
      | (.error _, after) => ⟨step :: rest, after⟩
      | (.ok next, after) => ⟨next ++ rest, after⟩

/-- A `count` of steps succeed, one after the other. -/
inductive Advances (timing : Timing) : Nat → Progress ρ → Progress ρ → Prop
  | refl (progress : Progress ρ) : Advances timing 0 progress progress
  | step {count : Nat} {step : Step} {rest next : List Step} {scene mid : Scene ρ}
      {last : Progress ρ} (done : (step.perform timing).onScene scene = (.ok next, mid))
      (others : Advances timing count ⟨next ++ rest, mid⟩ last) :
      Advances timing (count + 1) ⟨step :: rest, scene⟩ last

/-! ### Attempts -/

namespace Progress

/-- Where nothing is pending, an `attempt` does nothing. -/
theorem attempt_nil (scene : Scene ρ) : attempt timing ⟨[], scene⟩ = ⟨[], scene⟩ := rfl

/-- An `attempt` at a step that fails leaves the step where it is, and the scene where the step left
    off. -/
theorem attempt_error {step : Step} {scene after : Scene ρ} {fault : Fault}
    (h : (step.perform timing).onScene scene = (.error fault, after)) (rest : List Step) :
    attempt timing ⟨step :: rest, scene⟩ = ⟨step :: rest, after⟩ := by
  simp only [attempt, h]

/-- An `attempt` at a step that succeeds puts what is to be done `next` in front of the rest. -/
theorem attempt_ok {step : Step} {scene after : Scene ρ} {next : List Step}
    (h : (step.perform timing).onScene scene = (.ok next, after)) (rest : List Step) :
    attempt timing ⟨step :: rest, scene⟩ = ⟨next ++ rest, after⟩ := by
  simp only [attempt, h]

/-- Whether it succeeds or not, the `attempt` leads to the `scene` where its `step` left off. -/
theorem attempt_scene (timing : Timing) (step : Step) (rest : List Step) (scene : Scene ρ) :
    (attempt timing ⟨step :: rest, scene⟩).scene = ((step.perform timing).onScene scene).2 := by
  rcases h : (step.perform timing).onScene scene with ⟨_ | _, after⟩
  · rw [attempt_error h]
  · rw [attempt_ok h]

/-- An action that has ended stays as it is, whatever the `count` of attempts. -/
theorem iterate_attempt_nil (count : Nat) (scene : Scene ρ) :
    (attempt timing)^[count] ⟨[], scene⟩ = ⟨[], scene⟩ :=
  Function.iterate_fixed (attempt_nil scene) count

/-- An action that ends does so in one way only, however many attempts are made at it from the
    `start`. -/
theorem iterate_attempt_unique {start : Progress ρ} {first second : Nat}
    (hfirst : ((attempt timing)^[first] start).pending = [])
    (hsecond : ((attempt timing)^[second] start).pending = []) :
    (attempt timing)^[first] start = (attempt timing)^[second] start := by
  -- Attempts beyond the end change nothing, so that more of them lead where fewer did.
  have hmore {few more : Nat} (hle : few ≤ more)
      (hfew : ((attempt timing)^[few] start).pending = []) :
      (attempt timing)^[more] start = (attempt timing)^[few] start := by
    obtain ⟨extra, rfl⟩ := Nat.exists_eq_add_of_le' hle
    rw [Function.iterate_add_apply]
    rcases hend : (attempt timing)^[few] start with ⟨pending, scene⟩
    obtain rfl : pending = [] := by simpa [hend] using hfew
    exact iterate_attempt_nil extra scene
  rcases Nat.le_total first second with hle | hle
  · exact (hmore hle hfirst).symm
  · exact hmore hle hsecond

end Progress

/-! ### Sequences of steps that succeed -/

namespace Advances

variable {count extra : Nat} {first second third : Progress ρ}

/-- What `Advances` first and then advances altogether. -/
theorem trans (h : Advances timing count first second) (h' : Advances timing extra second third) :
    Advances timing (count + extra) first third := by
  induction h with
  | refl => simpa using h'
  | step done _ ih =>
    rw [Nat.add_right_comm]
    exact .step done (ih h')

/-- A longer sequence passes through where a shorter one from the same start has led. -/
theorem rest_of_le (h : Advances timing count first second)
    (h' : Advances timing (count + extra) first third) : Advances timing extra second third := by
  induction h with
  | refl => simpa using h'
  | @step count step rest next scene mid last done _ ih =>
    -- The same step on the same scene cannot have gone two ways.
    rw [Nat.add_right_comm] at h'
    cases h' with
    | step done' others' =>
      obtain ⟨hnext, rfl⟩ := Prod.mk.injEq .. ▸ (done.symm.trans done')
      obtain rfl := Except.ok.inj hnext
      exact ih others'

/-- Steps that are done lead to one place only: `Advances` by the same count is unique. -/
theorem unique (h : Advances timing count first second) (h' : Advances timing count first third) :
    second = third := by
  have hnone : Advances timing 0 second third := h.rest_of_le h'
  cases hnone
  rfl

/-- A sequence of `Advances` can be cut where a part of it leads. -/
theorem exists_of_add (h : Advances timing (count + extra) first third) :
    ∃ second, Advances timing count first second ∧ Advances timing extra second third := by
  induction count generalizing first with
  | zero => exact ⟨first, .refl first, by simpa using h⟩
  | succ count ih =>
    rw [Nat.add_right_comm] at h
    cases h with
    | step done others =>
      obtain ⟨second, hleft, hright⟩ := ih others
      exact ⟨second, .step done hleft, hright⟩

/-- Nothing follows the end of an action: whatever `Advances` has something pending. -/
theorem pending_ne_nil (h : Advances timing (count + 1) first second) : first.pending ≠ [] := by
  cases h
  simp

/-- Nothing follows a `step` that fails: no sequence advances past it. -/
theorem not_of_error {step : Step} {rest : List Step} {scene after : Scene ρ} {fault : Fault}
    (herror : (step.perform timing).onScene scene = (.error fault, after)) :
    ¬ Advances timing (count + 1) ⟨step :: rest, scene⟩ second := by
  intro h
  cases h with
  | step done _ => simp [herror] at done

/-- What every `attempt` on the way preserves `Holds` where the steps lead. -/
theorem preserves {Holds : Progress ρ → Prop} (hstart : Holds first)
    (hattempt : ∀ (fewer : Nat) (step : Step) (rest : List Step) (mid : Scene ρ), fewer < count →
      Advances timing fewer first ⟨step :: rest, mid⟩ → Holds ⟨step :: rest, mid⟩ →
        Holds (Progress.attempt timing ⟨step :: rest, mid⟩))
    (h : Advances timing count first second) : Holds second := by
  -- The last step is taken off, since the condition is about what leads to a step.
  induction count generalizing second with
  | zero =>
    cases h
    exact hstart
  | succ count ih =>
    obtain ⟨⟨pending, mid⟩, hmid, hlast⟩ := h.exists_of_add
    cases hlast with
    | @step _ step rest next _ _ _ done others =>
      cases others
      have hholds := ih (fun fewer step rest mid hlt =>
        hattempt fewer step rest mid (Nat.lt_succ_of_lt hlt)) hmid
      have hnext := hattempt count step rest mid (Nat.lt_succ_self count) hmid hholds
      rwa [Progress.attempt_ok done] at hnext

end Advances

/-! ### Runs -/

/-- Whether a run with this `limit` ends with a `count` of steps done and these left. -/
def Reaches (limit : Option Nat) (count : Nat) (pending : List Step) : Prop :=
  match limit with
  | none => pending = []
  | some limit => count ≤ limit ∧ (count < limit → pending = [])

/-- Whether a run with this `limit` goes on after a `count` of steps. -/
def GoesOn (limit : Option Nat) (count : Nat) : Prop := ∀ bound, limit = some bound → count < bound

/-- Where a run `Reaches` its end, a longer one leads no further. -/
theorem Reaches.eq_zero {limit : Option Nat} {count extra : Nat} {last later : Progress ρ}
    (h : Reaches limit count last.pending) (h' : Reaches limit (count + extra) later.pending)
    (hlater : Advances timing extra last later) : extra = 0 := by
  cases extra with
  | zero => rfl
  | succ extra =>
    refine absurd ?_ hlater.pending_ne_nil
    cases limit with
    | none => exact h
    | some limit => exact h.2 (by have := h'.1; omega)

/-- A run that has reached its end and yet `GoesOn` has come to the end of the agenda. -/
theorem Reaches.pending_eq_nil {limit : Option Nat} {count extra : Nat} {pending : List Step}
    (h : Reaches limit count pending) (hon : GoesOn limit (count + extra)) : pending = [] := by
  cases limit with
  | none => exact h
  | some limit => exact h.2 (by have := hon limit rfl; omega)

/-- A run `GoesOn` before it ends. -/
theorem Reaches.goesOn {limit : Option Nat} {count fewer : Nat} {pending : List Step}
    (h : Reaches limit count pending) (hlt : fewer < count) : GoesOn limit fewer := by
  rintro bound rfl
  exact Nat.lt_of_lt_of_le hlt h.1

/-- What a run comes to from its `start`: it succeeds after a number of steps more, or the step
    after them fails. Those `done` were counted before. -/
def RunEnds (timing : Timing) (limit : Option Nat) (done : Nat) (start : Progress ρ)
    (result : Except Fault Nat × Agenda Step × Scene ρ) : Prop :=
  (∃ count last, Advances timing count start last ∧ Reaches limit count last.pending ∧
      result = (.ok (done + count), ⟨last.pending, none⟩, last.scene)) ∨
    ∃ count step rest mid fault after, Advances timing count start ⟨step :: rest, mid⟩ ∧
      GoesOn limit count ∧ (step.perform timing).onScene mid = (.error fault, after) ∧
      result = (.error fault, ⟨rest, some step⟩, after)

namespace RunEnds

variable {limit longer : Option Nat} {done : Nat} {step : Step} {rest next : List Step}
  {scene mid : Scene ρ} {result : Except Fault Nat × Agenda Step × Scene ρ}

/-- A run that goes on after its first `step` ends as its `rest` does. -/
theorem of_step (hdone : (step.perform timing).onScene scene = (.ok next, mid))
    (hreaches : ∀ count pending, Reaches limit count pending → Reaches longer (count + 1) pending)
    (hgoes : ∀ count, GoesOn limit count → GoesOn longer (count + 1))
    (h : RunEnds timing limit (done + 1) ⟨next ++ rest, mid⟩ result) :
    RunEnds timing longer done ⟨step :: rest, scene⟩ result := by
  rcases h with ⟨count, last, hadvances, hlast, rfl⟩ |
    ⟨count, failing, later, before, fault, after, hadvances, hon, herror, rfl⟩
  · refine .inl ⟨count + 1, last, .step hdone hadvances, hreaches count _ hlast, ?_⟩
    rw [Nat.add_right_comm, Nat.add_assoc]
  · exact .inr ⟨count + 1, failing, later, before, fault, after, .step hdone hadvances,
      hgoes count hon, herror, rfl⟩

/-- A run ends at a first `step` that fails: it `RunEnds` there with the fault. -/
theorem of_error {after : Scene ρ} {fault : Fault} (hon : GoesOn limit 0)
    (herror : (step.perform timing).onScene scene = (.error fault, after)) :
    RunEnds timing limit done ⟨step :: rest, scene⟩ (.error fault, ⟨rest, some step⟩, after) :=
  .inr ⟨0, step, rest, scene, fault, after, .refl _, hon, herror, rfl⟩

end RunEnds

namespace Engine

/-- Without a group to work on, every `stage` fails, and nothing has changed. -/
theorem perform_of_no_record (stage : Stage)
    {id : GroupId} {scene : Scene ρ} {fault : Fault} (h : scene.ledger.record id = .error fault) :
    (stage.perform timing id).onScene scene = (.error fault, scene) := by
  have hrecord : (Engine.record id : Engine ρ GroupRecord).onScene scene =
      (.error fault, scene) := by
    rw [onScene_record, h]
  cases stage with
  | roll => exact onScene_bind_error hrecord
  | select => exact onScene_bind_error hrecord
  | notify => exact onScene_bind_error hrecord

end Engine

namespace Step

/-- By `perform` a `stage` succeeds without further steps, or fails. -/
theorem perform_stage_onScene (stage : Stage) (group : GroupId) (scene : Scene ρ) :
    (perform timing (.stage stage group)).onScene scene =
      (((stage.perform timing group).onScene scene).1.map fun _ => [],
        ((stage.perform timing group).onScene scene).2) := by
  rw [perform, Engine.onScene_bind]
  rcases (stage.perform timing group).onScene scene with ⟨_ | _, after⟩ <;> rfl

/-- By `perform` a `plan` becomes the stages of its groups, or fails. -/
theorem perform_plan_onScene (plan : Plan) (scene : Scene ρ) :
    (perform timing (.plan plan)).onScene scene =
      ((plan.carryOut.onScene scene).1.map fun groups => groups.flatMap allOf,
        (plan.carryOut.onScene scene).2) := by
  rw [perform, Engine.onScene_bind]
  rcases plan.carryOut.onScene scene with ⟨_ | _, after⟩ <;> rfl

/-- How a run without a limit ends: `drainQueued` comes to what `RunEnds` says. -/
theorem drainQueued_ends (timing : Timing) (done : Nat) (steps : List Step) (scene : Scene ρ) :
    RunEnds timing none done ⟨steps, scene⟩ (drainQueued timing done steps scene) := by
  -- A stage and a plan are run apart there, since only a plan leads to more steps.
  fun_induction drainQueued timing done steps scene with
  | case1 => exact .inl ⟨0, ⟨[], _⟩, .refl _, rfl, rfl⟩
  | case2 done scene stage group rest fault after h =>
    exact .of_error (by simp [GoesOn]) (by rw [perform_stage_onScene, h]; rfl)
  | case3 done scene stage group rest after h ih =>
    have hdone : (perform timing (.stage stage group)).onScene scene = (.ok [], after) := by
      rw [perform_stage_onScene, h]
      rfl
    refine .of_step hdone ?_ ?_ ih
    · exact fun _ _ h => h
    · simp [GoesOn]
  | case4 done scene plan rest fault after h =>
    exact .of_error (by simp [GoesOn]) (by rw [perform_plan_onScene, h]; rfl)
  | case5 done scene plan rest groups after h ih =>
    have hdone : (perform timing (.plan plan)).onScene scene =
        (.ok (groups.flatMap allOf), after) := by
      rw [perform_plan_onScene, h]
      rfl
    refine .of_step hdone ?_ ?_ ih
    · exact fun _ _ h => h
    · simp [GoesOn]

end Step

namespace Agenda

/-- How a run with a `limit` ends: `runQueued` comes to what `RunEnds` says. -/
theorem runQueued_ends (timing : Timing) (limit done : Nat) (queued : List Step)
    (scene : Scene ρ) :
    RunEnds timing (some limit) done ⟨queued, scene⟩
      (runQueued (Step.execute timing) done limit ⟨queued, none⟩ scene) := by
  -- By induction on the limit, as the run is counted down.
  induction limit generalizing done queued scene with
  | zero => exact .inl ⟨0, ⟨queued, scene⟩, .refl _, by simp [Reaches], rfl⟩
  | succ limit ih =>
    cases queued with
    | nil => exact .inl ⟨0, ⟨[], scene⟩, .refl _, by simp [Reaches], rfl⟩
    | cons step rest =>
      rcases hstep : (step.perform timing).onScene scene with ⟨fault | next, after⟩
      · simp only [runQueued, Step.execute, hstep]
        exact .of_error (by simp [GoesOn]) hstep
      · simp only [runQueued, Step.execute, hstep, pushAll]
        refine .of_step hstep (fun count pending h => ?_) (fun count h => ?_)
          (ih (done + 1) (next ++ rest) after)
        · obtain ⟨hle, hlt⟩ := h
          exact ⟨by omega, fun h => hlt (by omega)⟩
        · intro bound hbound
          have := h limit rfl
          cases hbound
          omega

/-- How a run ends, with a `limit` or without. -/
theorem run_ends (timing : Timing) (limit : Option Nat) (agenda : Agenda Step) (scene : Scene ρ) :
    RunEnds timing limit 0 ⟨agenda.pending, scene⟩ (agenda.run timing limit scene) := by
  cases limit with
  | none => exact Step.drainQueued_ends timing 0 agenda.pending scene
  | some limit => exact runQueued_ends timing limit 0 agenda.pending scene

variable {limit : Option Nat} {agenda agenda' : Agenda Step} {scene scene' : Scene ρ}

/-- A run that succeeds: what its `limit` allows was done. -/
theorem run_ok {count : Nat} (h : agenda.run timing limit scene = (.ok count, agenda', scene')) :
    ∃ last, Advances timing count ⟨agenda.pending, scene⟩ last ∧ Reaches limit count last.pending ∧
      agenda' = ⟨last.pending, none⟩ ∧ scene' = last.scene := by
  have hends := run_ends timing limit agenda scene
  rw [h] at hends
  rcases hends with ⟨count', last, hadvances, hreaches, heq⟩ | ⟨_, _, _, _, _, _, _, _, _, heq⟩
  · simp only [Prod.mk.injEq, Except.ok.injEq, Nat.zero_add] at heq
    obtain ⟨rfl, rfl, rfl⟩ := heq
    exact ⟨last, hadvances, hreaches, rfl, rfl⟩
  · simp at heq

/-- A run that leaves nothing to do is steps that `Advances` takes to the end. -/
theorem advances_of_run {count : Nat} (h : agenda.run timing limit scene = (.ok count, {}, scene')) :
    Advances timing count ⟨agenda.pending, scene⟩ ⟨[], scene'⟩ := by
  obtain ⟨⟨pending, last⟩, hadvances, -, hagenda, rfl⟩ := run_ok h
  obtain rfl : [] = pending := congrArg Agenda.queued hagenda
  exact hadvances

/-- A run that fails: some steps were done, and the `step` after them failed and comes first
    again. -/
theorem run_error {fault : Fault}
    (h : agenda.run timing limit scene = (.error fault, agenda', scene')) :
    ∃ count step rest mid, Advances timing count ⟨agenda.pending, scene⟩ ⟨step :: rest, mid⟩ ∧
      GoesOn limit count ∧ (step.perform timing).onScene mid = (.error fault, scene') ∧
      agenda' = ⟨rest, some step⟩ := by
  have hends := run_ends timing limit agenda scene
  rw [h] at hends
  rcases hends with ⟨_, _, _, _, heq⟩ |
    ⟨count, step, rest, mid, fault', after, hadvances, hon, herror, heq⟩
  · simp at heq
  · simp only [Prod.mk.injEq, Except.error.injEq] at heq
    obtain ⟨rfl, rfl, rfl⟩ := heq
    exact ⟨count, step, rest, mid, hadvances, hon, herror, rfl⟩

/-- Where a run `Reaches` its end, no step within its `limit` fails on the way. -/
theorem not_error_of_reaches {start last : Progress ρ} {count count' : Nat} {step : Step}
    {rest : List Step} {mid after : Scene ρ} {fault : Fault}
    (h : Advances timing count start last) (hreaches : Reaches limit count last.pending)
    (h' : Advances timing count' start ⟨step :: rest, mid⟩) (hon : GoesOn limit count') :
    (step.perform timing).onScene mid ≠ (.error fault, after) := by
  intro herror
  -- The step that fails would have to come after the end, or within what succeeds.
  rcases Nat.lt_or_ge count' count with hlt | hle
  · obtain ⟨extra, rfl⟩ := Nat.exists_eq_add_of_lt hlt
    exact Advances.not_of_error herror (h'.rest_of_le h)
  · obtain ⟨extra, rfl⟩ := Nat.exists_eq_add_of_le hle
    have hpending : last.pending ≠ [] := by
      cases extra with
      | zero => simp [h.unique h']
      | succ extra => exact (h.rest_of_le h').pending_ne_nil
    exact hpending (hreaches.pending_eq_nil hon)

/-- A run stops where its `limit` is reached, and not before. -/
theorem run_eq_ok {count : Nat} {last : Progress ρ}
    (h : Advances timing count ⟨agenda.pending, scene⟩ last)
    (hreaches : Reaches limit count last.pending) :
    agenda.run timing limit scene = (.ok count, ⟨last.pending, none⟩, last.scene) := by
  rcases run_ends timing limit agenda scene with ⟨count', last', h', hreaches', heq⟩ |
    ⟨count', step, rest, mid, fault, after, h', hon, herror, -⟩
  · -- Of two runs that end, the shorter one is part of the longer one, which then adds nothing.
    rcases Nat.le_total count count' with hle | hle
    · obtain ⟨extra, rfl⟩ := Nat.exists_eq_add_of_le hle
      obtain rfl := hreaches.eq_zero hreaches' (h.rest_of_le h')
      rw [heq, h.unique h', Nat.zero_add]
      rfl
    · obtain ⟨extra, rfl⟩ := Nat.exists_eq_add_of_le hle
      obtain rfl := hreaches'.eq_zero hreaches (h'.rest_of_le h)
      rw [heq, h.unique h', Nat.zero_add]
      rfl
  · exact absurd herror (not_error_of_reaches h hreaches h' hon)

/-- A run stops at the first `step` that fails, if it goes so far. -/
theorem run_eq_error {count : Nat} {step : Step} {rest : List Step} {mid after : Scene ρ}
    {fault : Fault} (h : Advances timing count ⟨agenda.pending, scene⟩ ⟨step :: rest, mid⟩)
    (hon : GoesOn limit count)
    (herror : (step.perform timing).onScene mid = (.error fault, after)) :
    agenda.run timing limit scene = (.error fault, ⟨rest, some step⟩, after) := by
  rcases run_ends timing limit agenda scene with ⟨count', last, h', hreaches, -⟩ |
    ⟨count', step', rest', mid', fault', after', h', hon', herror', heq⟩
  · exact absurd herror (not_error_of_reaches h' hreaches h hon)
  · -- Neither of two steps that fail comes before the other.
    obtain rfl : count = count' := by
      rcases Nat.lt_trichotomy count count' with hlt | rfl | hlt
      · obtain ⟨extra, rfl⟩ := Nat.exists_eq_add_of_lt hlt
        exact absurd (h.rest_of_le h') (Advances.not_of_error herror)
      · rfl
      · obtain ⟨extra, rfl⟩ := Nat.exists_eq_add_of_lt hlt
        exact absurd (h'.rest_of_le h) (Advances.not_of_error herror')
    obtain ⟨hpending, rfl⟩ := Progress.mk.inj (h.unique h')
    obtain ⟨rfl, rfl⟩ := List.cons.inj hpending
    obtain ⟨hfault, rfl⟩ := Prod.mk.inj (herror.symm.trans herror')
    obtain rfl := Except.error.inj hfault
    exact heq

/-- A run without a limit comes to its end within some `bound`. -/
theorem exists_run_eq (timing : Timing) (agenda : Agenda Step) (scene : Scene ρ) :
    ∃ bound, agenda.run timing none scene = agenda.run timing (some bound) scene := by
  rcases run_ends timing none agenda scene with ⟨count, last, h, hreaches, -⟩ |
    ⟨count, step, rest, mid, fault, after, h, hon, herror, -⟩
  · have hbounded : Reaches (some count) count last.pending := ⟨Nat.le_refl count, by simp⟩
    exact ⟨count, (run_eq_ok h hreaches).trans (run_eq_ok h hbounded).symm⟩
  · -- One more step than those that succeed is the one that fails.
    have hbounded : GoesOn (some (count + 1)) count := by simp [GoesOn]
    exact ⟨count + 1, (run_eq_error h hon herror).trans (run_eq_error h hbounded herror).symm⟩

/-- A run does nothing when nothing is `pending`. -/
theorem run_of_pending_nil (limit : Option Nat) (h : agenda.pending = []) :
    agenda.run timing limit scene = (.ok 0, ⟨[], none⟩, scene) := by
  have hhere : Advances timing 0 ⟨agenda.pending, scene⟩ ⟨[], scene⟩ := by
    rw [h]
    exact .refl _
  have hreaches : Reaches limit 0 (Progress.mk [] scene).pending := by
    cases limit <;> simp [Reaches]
  exact run_eq_ok hhere hreaches

/-! ### What runs preserve -/

/-- Whether the `step` is attempted in a run, on the scene `mid`. -/
def Tries (timing : Timing) (limit : Option Nat) (agenda : Agenda Step) (scene : Scene ρ)
    (step : Step) (mid : Scene ρ) : Prop :=
  ∃ count rest, Advances timing count ⟨agenda.pending, scene⟩ ⟨step :: rest, mid⟩ ∧
    GoesOn limit count

/-- What every attempt preserves that a run `Tries`, the run does. -/
theorem run_preserves {Holds : Progress ρ → Prop} {result : Except Fault Nat}
    (hattempt : ∀ step rest mid, Tries timing limit agenda scene step mid →
      Holds ⟨step :: rest, mid⟩ → Holds (Progress.attempt timing ⟨step :: rest, mid⟩))
    (hstart : Holds ⟨agenda.pending, scene⟩)
    (hrun : agenda.run timing limit scene = (result, agenda', scene')) :
    Holds ⟨agenda'.pending, scene'⟩ := by
  have hadvances {count : Nat} {last : Progress ρ}
      (h : Advances timing count ⟨agenda.pending, scene⟩ last)
      (hon : ∀ fewer, fewer < count → GoesOn limit fewer) : Holds last :=
    h.preserves hstart fun fewer step rest mid hlt hmid =>
      hattempt step rest mid ⟨fewer, rest, hmid, hon fewer hlt⟩
  cases result with
  | ok count =>
    obtain ⟨last, h, hreaches, rfl, rfl⟩ := run_ok hrun
    exact hadvances h fun fewer hlt => hreaches.goesOn hlt
  | error fault =>
    obtain ⟨count, step, rest, mid, h, hon, herror, rfl⟩ := run_error hrun
    have hholds := hadvances h fun fewer hlt bound hbound =>
      Nat.lt_trans hlt (hon bound hbound)
    -- The step that fails was tried too.
    have hfailed := hattempt step rest mid ⟨count, rest, h, hon⟩ hholds
    rwa [Progress.attempt_error herror] at hfailed

end Agenda

end Flak
