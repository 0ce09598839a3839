import Flak.Proofs.Agenda.DepthFirst

namespace Flak

/-!
# What an agenda shows of itself

An agenda can be asked for its size, whether it is empty, what is pending, and for the step queued
first:

* `Agenda.Executor.LeavesCurrent` — steps that leave it to the agenda to remember which one runs;
* `Agenda.Reached` — the agendas that come of pushing, popping and running, and whether the last run
  has failed;
* `Agenda.Reached.isSome_current` — a step is remembered just if it has;
* `Agenda.views_agree` — all that is shown agrees until a run fails; then a step that is still
  pending cannot be popped, and what is popped is the step behind it;
* `Agenda.not_pop_pending` — so an agenda that is not empty may have nothing to pop.
-/

namespace Agenda

variable {σ γ ε : Type} {exec : Executor σ γ ε} {agenda after : Agenda σ}

/-! ### Size and emptiness -/

/-- The `size` of an agenda is the number of its `pending` steps. -/
theorem size_eq_length_pending (agenda : Agenda σ) : agenda.size = agenda.pending.length := by
  rcases agenda with ⟨queued, _ | current⟩
  · rfl
  · rfl

/-- An agenda `isEmpty` just if nothing is `pending`. -/
theorem isEmpty_eq_true_iff : agenda.isEmpty = true ↔ agenda.pending = [] := by
  rcases agenda with ⟨_ | ⟨step, rest⟩, _ | current⟩ <;> simp [isEmpty, pending]

/-! ### Popping -/

/-- The step that `pop` takes comes out of those queued, and what was running stays. -/
theorem pop_eq_ok_iff {step : σ} {left : Agenda σ} :
    agenda.pop = .ok (step, left) ↔
      ∃ rest, agenda.queued = step :: rest ∧ left = ⟨rest, agenda.current⟩ := by
  rcases agenda with ⟨_ | ⟨first, rest⟩, current⟩
  · simp [pop]
  · simp only [pop, Except.ok.injEq, Prod.mk.injEq, List.cons.injEq]
    constructor
    · rintro ⟨rfl, rfl⟩
      exact ⟨rest, ⟨rfl, rfl⟩, rfl⟩
    · rintro ⟨others, ⟨rfl, rfl⟩, rfl⟩
      exact ⟨rfl, rfl⟩

/-- A `pop` fails just if nothing is queued, whatever was running. -/
theorem pop_eq_error_iff : agenda.pop = .error .emptyStack ↔ agenda.queued = [] := by
  rcases agenda with ⟨_ | ⟨first, rest⟩, current⟩ <;> simp [pop]

/-! ### Running -/

/-- Steps that leave it to the agenda to remember which of them runs, as its `current` one. They may
    queue others, pop some that are queued, and fail before or after that. -/
def Executor.LeavesCurrent (exec : Executor σ γ ε) : Prop :=
  ∀ (step : σ) (before : Agenda σ) (world : γ),
    (exec step before world).2.1.current = before.current

/-- Steps that do nothing but queue others leave the `current` one to the agenda. -/
theorem Executor.Queues.leavesCurrent (hexec : exec.Queues) : exec.LeavesCurrent := by
  intro step before world
  rcases hstep : exec step before world with ⟨fault | u, later, there⟩
  · rw [hexec.of_error hstep]
  · obtain ⟨steps, hqueued⟩ := hexec.of_ok hstep
    rw [hqueued.eq_pushAll]
    rfl

/-- At the end of `runQueued` a step is remembered just if it has failed. -/
theorem isSome_current_runQueued (hexec : exec.LeavesCurrent) (done limit : Nat)
    (hcurrent : agenda.current = none) (world : γ) :
    (runQueued exec done limit agenda world).2.1.current.isSome =
      !(runQueued exec done limit agenda world).1.isOk := by
  induction limit generalizing done agenda world with
  | zero => simp [runQueued, hcurrent, Except.isOk, Except.toBool]
  | succ limit ih =>
    rcases agenda with ⟨_ | ⟨step, rest⟩, current⟩
    · obtain rfl : current = none := hcurrent
      rfl
    · have hleft := hexec step ⟨rest, some step⟩ world
      rcases hstep : exec step ⟨rest, some step⟩ world with ⟨fault | u, later, there⟩
      · rw [hstep] at hleft
        simp only [runQueued, hstep]
        rw [hleft]
        rfl
      · simp only [runQueued, hstep]
        exact ih (done + 1) rfl there

/-! ### Agendas that can be reached -/

/-- The agendas that come of an empty one by any pushing, popping and running, each run with its own
    limit and world, and whether the last run has `failed`. -/
inductive Reached (exec : Executor σ γ ε) : Bool → Agenda σ → Prop
  | empty : Reached exec false {}
  | push {failed : Bool} {agenda : Agenda σ} (h : Reached exec failed agenda) (step : σ) :
      Reached exec failed (agenda.push step)
  | pushAll {failed : Bool} {agenda : Agenda σ} (h : Reached exec failed agenda) (steps : List σ) :
      Reached exec failed (agenda.pushAll steps)
  | pop {failed : Bool} {agenda left : Agenda σ} {step : σ} (h : Reached exec failed agenda)
      (hpop : agenda.pop = .ok (step, left)) : Reached exec failed left
  | run {failed : Bool} {agenda after : Agenda σ} {limit : Nat} {world there : γ}
      {result : Except ε Nat} (h : Reached exec failed agenda)
      (hrun : agenda.runSteps exec limit world = (result, after, there)) :
      Reached exec (!result.isOk) after

/-- A step is remembered just if the last run has `failed`. -/
theorem Reached.isSome_current (hexec : exec.LeavesCurrent) {failed : Bool}
    (h : Reached exec failed agenda) : agenda.current.isSome = failed := by
  induction h with
  | empty => rfl
  | push _ step ih => exact ih
  | pushAll _ steps ih => exact ih
  | pop _ hpop ih =>
    obtain ⟨rest, -, rfl⟩ := pop_eq_ok_iff.1 hpop
    exact ih
  | @run failed before after limit world there result _ hrun _ =>
    -- Whatever was remembered before is queued again when a run begins.
    have hrestored : before.restored.current = none := rfl
    have hends := isSome_current_runQueued hexec 0 limit hrestored world
    rw [runSteps] at hrun
    rw [hrun] at hends
    exact hends

/-- The `size` of the `agenda` is the number of `pending` steps, and it is empty if there are none.
    Until a run fails, popping gives the `first` pending step and leaves the others, and it fails
    just if the agenda is empty. After a run has `failed`, the step that failed is the first pending
    one, and popping passes over it: it gives the second one, and fails if there is none. -/
theorem views_agree (hexec : exec.LeavesCurrent) {failed : Bool} (h : Reached exec failed agenda) :
    agenda.size = agenda.pending.length ∧ (agenda.isEmpty = true ↔ agenda.pending = []) ∧
      (failed = false →
        (agenda.pop = .error .emptyStack ↔ agenda.isEmpty = true) ∧
        ∀ first rest, agenda.pending = first :: rest →
          ∃ left, agenda.pop = .ok (first, left) ∧ left.pending = rest) ∧
      (failed = true →
        ∃ first rest, agenda.pending = first :: rest ∧ agenda.isEmpty = false ∧
          (agenda.pop = .error .emptyStack ↔ rest = []) ∧
          ∀ second others, rest = second :: others →
            ∃ left, agenda.pop = .ok (second, left) ∧ left.pending = first :: others) := by
  have hcurrent := h.isSome_current hexec
  refine ⟨size_eq_length_pending agenda, isEmpty_eq_true_iff, ?_, ?_⟩
  · rintro rfl
    -- Without a failure there is no current step, and all that is pending is queued.
    have hnone : agenda.current = none := by simpa using hcurrent
    have hpending : agenda.pending = agenda.queued := by simp [pending, hnone]
    refine ⟨?_, fun first rest hfirst => ?_⟩
    · rw [pop_eq_error_iff, isEmpty_eq_true_iff, hpending]
    · rw [hpending] at hfirst
      exact ⟨⟨rest, agenda.current⟩, pop_eq_ok_iff.2 ⟨rest, hfirst, rfl⟩, by simp [pending, hnone]⟩
  · rintro rfl
    obtain ⟨first, hfirst⟩ := Option.isSome_iff_exists.1 hcurrent
    -- After a failure the current step is pending in front of those that are queued.
    have hpending : agenda.pending = first :: agenda.queued := by simp [pending, hfirst]
    have hsome : agenda.isEmpty = false := by simp [isEmpty, hfirst]
    refine ⟨first, agenda.queued, hpending, hsome, pop_eq_error_iff,
      fun second others hsecond => ?_⟩
    exact ⟨⟨others, agenda.current⟩, pop_eq_ok_iff.2 ⟨others, hsecond, rfl⟩, by
      simp [pending, hfirst]⟩

/-! ### A roll that fails -/

end Agenda

namespace Halted

/-- Nothing has fired on this `Scene`, so that there is no group that could roll. -/
def scene : Scene ScriptedDice := ⟨Sortie.host true, {}⟩

/-- The agenda on which the roll of an unknown group has failed, with other steps `behind` it. -/
def agenda (behind : List Step) : Agenda Step := ⟨behind, some (.stage .roll ⟨0⟩)⟩

/-- The halted `agenda` comes of an empty one by pushing two steps and running the first. -/
theorem reached (behind : List Step) :
    Agenda.Reached (Step.execute {} : Agenda.Executor Step (Scene ScriptedDice) Fault) true
      (agenda behind) := by
  have hroll : ((Step.stage .roll ⟨0⟩).perform {}).onScene scene =
      (.error (.unknownGroup ⟨0⟩), scene) := by
    rw [Step.perform_stage_onScene, Engine.perform_of_no_record .roll rfl]
    rfl
  have hrun : (Agenda.pushAll (.stage .roll ⟨0⟩ :: behind) {}).runSteps (Step.execute {}) 1 scene =
      (.error (.unknownGroup ⟨0⟩), agenda behind, scene) := by
    simp only [Agenda.runSteps, Agenda.restored, Agenda.pending, Agenda.pushAll, Agenda.runQueued,
      Step.execute, Option.toList, List.nil_append, List.append_nil, hroll]
    rfl
  exact (Agenda.Reached.empty.pushAll _).run hrun

end Halted

namespace Agenda

/-- Behind the roll that has failed on the `Halted.agenda` a selection is pending, and that is what
    popping gives. -/
theorem views_agree_halted :
    (Step.execute {} : Executor Step (Scene ScriptedDice) Fault).LeavesCurrent ∧
      Reached (Step.execute {} : Executor Step (Scene ScriptedDice) Fault) true
        (Halted.agenda [.stage .select ⟨0⟩]) ∧
      (Halted.agenda [.stage .select ⟨0⟩]).pending =
        [.stage .roll ⟨0⟩, .stage .select ⟨0⟩] ∧
      ∃ left, (Halted.agenda [.stage .select ⟨0⟩]).pop = .ok (.stage .select ⟨0⟩, left) ∧
        left.pending = [.stage .roll ⟨0⟩] := by
  have hexec := (Step.execute_queues {} :
    (Step.execute {} : Executor Step (Scene ScriptedDice) Fault).Queues).leavesCurrent
  have hreached := Halted.reached [.stage .select ⟨0⟩]
  obtain ⟨-, -, -, hfailed⟩ := views_agree hexec hreached
  obtain ⟨first, rest, hpending, -, -, hpop⟩ := hfailed rfl
  obtain ⟨rfl, rfl⟩ := List.cons.inj (hpending : [_, _] = first :: rest)
  exact ⟨hexec, hreached, rfl, hpop _ _ rfl⟩

/-- A `pop` does not always give the first pending step: not after a run has `failed`. -/
theorem not_pop_pending :
    ¬ ∀ (failed : Bool) (agenda : Agenda Step),
        Reached (Step.execute {} : Executor Step (Scene ScriptedDice) Fault) failed agenda →
        (agenda.pop = .error .emptyStack ↔ agenda.isEmpty = true) ∧
        ∀ first rest, agenda.pending = first :: rest →
          ∃ left, agenda.pop = .ok (first, left) ∧ left.pending = rest := by
  intro hall
  obtain ⟨hempty, -⟩ := hall true (Halted.agenda []) (Halted.reached [])
  have hnothing := hempty.1 rfl
  revert hnothing
  decide

end Agenda

end Flak
