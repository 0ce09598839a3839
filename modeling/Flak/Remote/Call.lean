import Flak.Fault

namespace Flak

/-!
# Calls to a remote player

A `Call` is a call that runs while the action waits. What it will answer is settled when it is
made; what may happen while somebody waits for the answer is its list of hitches. Cancellation may
also come with the answer, and then it meets the next wait.

* `Call.callsOff` — whether a call that nobody waits for cancels the waits for others.
* `Call.wait` — waits once. A cancelled wait and one that is out of time leave the call running, so
  that it can be waited for again; an answer is given out once.
-/

/-- What can come between a call and its answer: everything is cancelled, or the answer is
    `slow`. -/
inductive Hitch where
  /-- Whoever waits is told to stop waiting. -/
  | cancel
  /-- The answer does not come before any deadline. -/
  | slow
  deriving DecidableEq

/-- A running call that ends with its `answer`, once all its `hitches` are over. -/
structure Call (α : Type) where
  /-- What is answered, none if the worker dies or has answered already. -/
  answer : Option α
  /-- What comes before the answer. -/
  hitches : List Hitch := []
  /-- Whether waiting is called off as soon as the answer is there. -/
  thenCancel : Bool := false

/-- How a wait ended, `answered` or not. -/
inductive Waited (α : Type) where
  | answered (answer : α)
  /-- The worker ended without an answer. -/
  | lost
  | timedOut
  | interrupted

/-- The `outcome` of a wait, the `call` after it, and whether waiting is cancelled from now on. -/
structure Waited.Result (α : Type) where
  outcome : Waited α
  call : Call α
  cancelled : Bool

namespace Call

variable {α : Type}

/-- How the wait for an answer ends that is there: `answered` by it, or `lost` without any. -/
def answered : Option α → Waited α
  | some answer => .answered answer
  | none => .lost

/-! ### Calls that nobody waits for -/

/-- Whether waiting is called off by the worker of the `call` alone: before anything holds it, or
    with an answer that nothing holds. -/
def callsOff (call : Call α) : Bool :=
  call.hitches.head? = some .cancel || (call.hitches.isEmpty && call.thenCancel)

/-- The `call` when its worker has got as far as it can. -/
def carryOn (call : Call α) : Call α :=
  let hitches := call.hitches.dropWhile (· = .cancel)
  { call with hitches, thenCancel := call.thenCancel && !hitches.isEmpty }

/-! ### Waiting -/

/-- The `outcome` of a wait that gives up. The worker goes on without it. -/
def giveUp (call : Call α) (outcome : Waited α) (cancelled : Bool) : Waited.Result α :=
  ⟨outcome, call.carryOn, cancelled || call.callsOff⟩

/-- Waits through the hitches of the `call`, with or without a `deadline` that has not passed yet.
    Cancellation that is `coming` is there before a slow answer and before the deadline. -/
def waitThrough (deadline coming : Bool) (call : Call α) : List Hitch → Waited.Result α
  | [] => ⟨answered call.answer, ⟨none, [], false⟩, coming || call.thenCancel⟩
  | .cancel :: rest => giveUp { call with hitches := rest } .interrupted true
  | .slow :: rest =>
      let running := { call with hitches := .slow :: rest }
      if coming then running.giveUp .interrupted true
      else if deadline then running.giveUp .timedOut false
      else waitThrough deadline coming call rest

/-- Waits for the answer of the `call`: cancellation comes first, then a deadline of no time at all.
    What another worker is about to cancel is `cancelled` when the wait ends, and sooner if the
    answer is slow. -/
def wait (call : Call α) (cancelled coming : Bool) (timeout : Option Nat) : Waited.Result α :=
  if cancelled then call.giveUp .interrupted true
  else if timeout = some 0 then call.giveUp .timedOut coming
  else waitThrough timeout.isSome coming call call.hitches

end Call

end Flak
