namespace Flak

/-!
# Timing of remote calls

`Timing` says how long remote players get, in milliseconds. A poll interval of nothing is refused.
-/

/-- How long remote players get: the `pollInterval` and the `choiceTimeout`, in milliseconds. -/
structure Timing where
  /-- How often a wait looks for cancellation. -/
  pollInterval : Nat := 50
  /-- How long a player may take to choose casualties. -/
  choiceTimeout : Nat := 60000
  deriving DecidableEq

/-- Why a `timing` is refused, if it is. -/
def Timing.objection? (timing : Timing) : Option String :=
  if timing.pollInterval = 0 then some "ack_poll_interval_ms must be positive" else none

end Flak
