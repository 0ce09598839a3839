import Flak.Fault

namespace Flak

/-!
# Agendas

An `Agenda` is what is still to be done. A step that runs may queue further steps, and they come
before everything queued earlier. The step that runs is remembered, and if it fails it runs again
first.

* `Agenda.pending` — all that is to be done, next step first.
* `Agenda.runSteps` — runs a number of steps.
-/

/-- Steps to be done: those `queued`, the next one first, and as `current` the step that was running
    when a run failed. -/
structure Agenda (σ : Type) where
  queued : List σ := []
  current : Option σ := none
  deriving DecidableEq

namespace Agenda

variable {σ : Type}

/-- Everything on the `agenda`, next step first; a step that failed comes before all others. -/
def pending (agenda : Agenda σ) : List σ := agenda.current.toList ++ agenda.queued

/-- How many steps there are on the `agenda`, one that failed included. -/
def size (agenda : Agenda σ) : Nat := agenda.queued.length + if agenda.current.isSome then 1 else 0

/-- Whether nothing is left on the `agenda`, not even a step that failed. -/
def isEmpty (agenda : Agenda σ) : Bool := agenda.queued.isEmpty && agenda.current.isNone

/-- Queues the `step` before the others. -/
def push (step : σ) (agenda : Agenda σ) : Agenda σ :=
  { agenda with queued := step :: agenda.queued }

/-- Queues the `steps` before the others, to run in the order given. -/
def pushAll (steps : List σ) (agenda : Agenda σ) : Agenda σ :=
  { agenda with queued := steps ++ agenda.queued }

/-- Takes out the step `queued` first. A step that failed is not among them, so it is passed
    over. -/
def pop (agenda : Agenda σ) : Except Fault (σ × Agenda σ) :=
  match agenda.queued with
  | step :: rest => .ok (step, { agenda with queued := rest })
  | [] => .error .emptyStack

/-- The `agenda` with a step that failed `queued` again. -/
def restored (agenda : Agenda σ) : Agenda σ := ⟨agenda.pending, none⟩

/-! ### Running -/

/-- How a step of type `σ` runs: it may change the agenda and the world `γ` it works on, and it may
    fail with an `ε`. -/
abbrev Executor (σ γ ε : Type) := σ → Agenda σ → γ → Except ε Unit × Agenda σ × γ

variable {γ ε : Type}

/-- Runs at most this many queued steps and counts them in `done`. -/
def runQueued (exec : Executor σ γ ε) (done : Nat) :
    Nat → Agenda σ → γ → Except ε Nat × Agenda σ × γ
  | 0, agenda, world => (.ok done, agenda, world)
  | limit + 1, agenda, world =>
      match agenda.queued with
      | [] => (.ok done, agenda, world)
      | step :: rest =>
          match exec step ⟨rest, some step⟩ world with
          | (.error e, agenda, world) => (.error e, agenda, world)
          | (.ok (), agenda, world) =>
              runQueued exec (done + 1) limit { agenda with current := none } world

/-- Runs at most `limit` steps and counts them. If one fails, it stays the next one to run. -/
def runSteps (exec : Executor σ γ ε) (limit : Nat) (agenda : Agenda σ) (world : γ) :
    Except ε Nat × Agenda σ × γ :=
  runQueued exec 0 limit agenda.restored world

end Agenda

end Flak
