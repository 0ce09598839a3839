import Flak.Fire.Step

namespace Flak

/-!
# Fire at a move

An `Overflight` is the anti-air fire at one move. It can stop between any two steps, be saved, and go
on later.

* `Overflight.prepare` — queues one plan for each territory that fires.
* `Overflight.run` — runs what is queued.
* `Overflight.fireAlong` — both, and marks the move as final once anti-air has fired.
-/

/-- Whether the move that is being made can still be undone, and `cantUndo` if not. -/
structure MoveHandle where
  cantUndo : Option String := none
  deriving DecidableEq

/-- Whether nothing on the `handle` stands against taking the move back. -/
def MoveHandle.canUndo (handle : MoveHandle) : Bool := handle.cantUndo.isNone

/-- The anti-air fire at one move: the `agenda` of its steps, and the `ledger` of what they did. -/
structure Overflight where
  timing : Timing := {}
  agenda : Agenda Step := {}
  ledger : Ledger := {}

namespace Overflight

variable {ρ : Type}

/-- The `units` in the order in which they are hit; equal ones keep their places. -/
def inOrder (ordering : BoardUnit → BoardUnit → Ordering) (units : List BoardUnit) :
    List BoardUnit :=
  units.mergeSort fun a b => ordering a b ≠ .gt

/-- The ledger of a move at these `targets` that has just been prepared. -/
def freshLedger (host : Host ρ) (targets : List UnitId) : Ledger :=
  { player := host.player, headless := host.headless, targets }

/-- Queues a plan for each territory on the `route` that fires at the `units`. Nothing happens while
    steps of an earlier call are still to be done. -/
def prepare (fire : Overflight) (host : Host ρ) (route : Route) (units : List UnitId)
    (ordering : BoardUnit → BoardUnit → Ordering) : Except Fault Overflight :=
  if fire.agenda.isEmpty then do
    let territories ← host.board.firingTerritories host.player route units
    let moving ← host.board.findUnits units
    let targets := (inOrder ordering moving).map BoardUnit.id
    return { fire with
      ledger := freshLedger host targets
      agenda := fire.agenda.pushAll
        (territories.map fun territory => .plan (.overflight territory targets)) }
  else .ok fire

variable [RandomSource ρ]

/-- Runs at most `limit` steps of the `fire`, or all there are, and counts them. -/
def run (fire : Overflight) (limit : Option Nat) (host : Host ρ) :
    Except Fault Nat × Overflight × Host ρ :=
  let (result, agenda, scene) := fire.agenda.run fire.timing limit ⟨host, fire.ledger⟩
  (result, { fire with agenda, ledger := scene.ledger }, scene.host)

/-- Marks a move as final if its `fire` says so. -/
def settle (fire : Overflight) (handle : MoveHandle) : MoveHandle :=
  match fire.ledger.cantUndo with
  | some reason => ⟨some reason⟩
  | none => handle

/-- Fires along the `route` at `units` and gives the units killed. If an earlier call was
    interrupted, its steps run instead. The move is marked as final even if a step fails. -/
def fireAlong (fire : Overflight) (host : Host ρ) (route : Route) (units : List UnitId)
    (ordering : BoardUnit → BoardUnit → Ordering) (handle : MoveHandle) :
    Except Fault (List UnitId) × Overflight × MoveHandle × Host ρ :=
  match fire.prepare host route units ordering with
  | .error fault => (.error fault, fire, handle, host)
  | .ok fire =>
      let (result, fire, host) := fire.run none host
      (result.map fun _ => fire.ledger.casualties, fire, fire.settle handle, host)

end Overflight

end Flak
