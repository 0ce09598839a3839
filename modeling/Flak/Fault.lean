import Flak.Identity
import Flak.Phase

namespace Flak

/-!
# What can go wrong

* `RemoteError` — why a remote player could not be asked or did not answer.
* `Fault` — why a step of an action failed. `Fault.message` is its wording.
-/

/-- A failure to reach or to hear a remote `player`. -/
inductive RemoteError where
  | noRemote (player : PlayerId)
  | disconnected (player : PlayerId)
  | timeout (player : PlayerId)
  | failed (reason : String)
  deriving DecidableEq

/-- The text that reports a `RemoteError`. -/
def RemoteError.message : RemoteError → String
  | .noRemote player => s!"no remote registered for player '{player.name}'"
  | .disconnected player => s!"player '{player.name}' disconnected"
  | .timeout player => s!"timed out waiting for player '{player.name}'"
  | .failed reason => s!"remote call failed: {reason}"

/-- The error of a call whose worker ended without an answer, a `failed` one. -/
def RemoteError.workerLost : RemoteError := .failed "remote worker exited without answering"

/-- The cause of a failed step; those of a remote player are `remote`. -/
inductive Fault where
  | emptyStack
  | unknownGroup (group : GroupId)
  | phaseMismatch (group : GroupId) (expected found : Phase)
  | casualtyOverflow (casualties targets : Nat)
  | casualtyNotTargeted (unit : UnitId)
  | unknownUnit (unit : UnitId)
  | unknownUnitType (name : String)
  | unknownTerritory (name : String)
  | remote (error : RemoteError)
  | interrupted
  deriving DecidableEq

/-- The text that reports a `Fault`. -/
def Fault.message : Fault → String
  | .emptyStack => "execution stack popped while empty"
  | .unknownGroup group => s!"unknown firing group {group.wording}"
  | .phaseMismatch group expected found =>
      s!"firing group {group.wording} is in phase {found.wording}, expected {expected.wording}"
  | .casualtyOverflow casualties targets =>
      s!"{casualties} casualties selected from {targets} valid targets"
  | .casualtyNotTargeted unit => s!"casualty {unit.wording} is not among the valid targets"
  | .unknownUnit unit => s!"unknown unit {unit.wording}"
  | .unknownUnitType name => s!"unknown unit type '{name}'"
  | .unknownTerritory name => s!"unknown territory '{name}'"
  | .remote error => s!"remote acknowledgement failed: {error.message}"
  | .interrupted => "wait for remote acknowledgement was interrupted"

end Flak
