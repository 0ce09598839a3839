import Flak.Remote.Letter

namespace Flak

/-!
# How scripted players behave

A rehearsal puts scripted players in the place of people. Each has a gate, closed at first.

* `Behaviour` — what becomes of one letter. It may be held until the gate opens, and it may call off
  all waiting.
* `Behaviour.call` — the call that a behaviour makes behind a closed gate; `Call.opened` is the same
  call behind an open one.
-/

/-- What a scripted player does with a letter: an answer, or one that is held. -/
inductive Behaviour where
  | agree
  | refuse (error : RemoteError)
  /-- The worker dies without an answer. -/
  | die
  | choose (losses : Losses)
  /-- Is held until the gate opens. -/
  | hold (next : Behaviour)
  /-- Calls off all waiting, and is then held until the gate opens. -/
  | cancelHold (next : Behaviour)
  deriving DecidableEq

namespace Behaviour

/-- Whether waiting is called off from beginning to end of a `Behaviour`. -/
def callsOff : Behaviour → Bool
  | cancelHold _ => true
  | hold next => next.callsOff
  | _ => false

/-- Whether waiting is called off after the `Behaviour` was held. -/
def callsOffLater : Behaviour → Bool
  | hold next | cancelHold next => next.callsOff
  | _ => false

variable {α : Type}

/-- The call of a `Behaviour` behind a closed gate, given the answers of a player who agrees and of
    one who chooses losses. -/
def call (agreed : α) (chosen : Losses → α) : Behaviour → Call (Except RemoteError α)
  | agree => .agreeing agreed
  | refuse error => { answer := some (.error error) }
  | die => { answer := none }
  | choose losses => .agreeing (chosen losses)
  | hold next =>
      { next.call agreed chosen with hitches := [.slow], thenCancel := next.callsOff }
  | cancelHold next =>
      { next.call agreed chosen with hitches := [.cancel, .slow], thenCancel := next.callsOff }

end Behaviour

namespace Call

variable {α : Type}

/-- A `call` that has not been made yet, behind an open gate: nothing holds it, and waiting is
    called off when it answers. -/
def opened (call : Call α) : Call α :=
  { call with hitches := [], thenCancel := call.thenCancel || call.hitches.contains .cancel }

/-- A running `call` that nothing holds any more. -/
def released (call : Call α) : Call α := { call with hitches := [], thenCancel := false }

end Call

end Flak
