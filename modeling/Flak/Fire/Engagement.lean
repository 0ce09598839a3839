import Flak.Fire.Step

namespace Flak

/-!
# Fire that opens a battle

An `Engagement` is one firing in a battle. The firings of a battle share a ledger; each remembers how
many casualties there were when it started.
-/

/-- One firing in a battle: the `agenda` of its steps, and where its casualties begin. -/
structure Engagement where
  agenda : Agenda Step := {}
  /-- The number of casualties in the ledger when this firing started. -/
  firstCasualty : Option Nat := none
  deriving DecidableEq

namespace Engagement

variable {ρ : Type} [RandomSource ρ]

/-- The units in the `ledger` that were killed since this firing started. -/
def killed (engagement : Engagement) (ledger : Ledger) : List UnitId :=
  match engagement.firstCasualty with
  | some first => ledger.casualties.drop first
  | none => []

/-- Whether the `engagement` has started and nothing is left to do. -/
def isFinished (engagement : Engagement) : Bool :=
  engagement.firstCasualty.isSome && engagement.agenda.isEmpty

/-- Runs all that the `engagement` has left to do and gives the units `killed`. -/
def resume (engagement : Engagement) (timing : Timing) (scene : Scene ρ) :
    Except Fault (List UnitId) × Engagement × Scene ρ :=
  let (result, agenda, scene) := engagement.agenda.run timing none scene
  let engagement := { engagement with agenda }
  (result.map fun _ => engagement.killed scene.ledger, engagement, scene)

/-- The `engagement` with a plan to `fire` queued, if it has not started yet. -/
def started (engagement : Engagement) (fire : BattleFire) (ledger : Ledger) : Engagement :=
  match engagement.firstCasualty with
  | some _ => engagement
  | none => ⟨engagement.agenda.push (.plan (.battle fire)), some ledger.casualties.length⟩

/-- Fires, or goes on where an earlier call of the `engagement` stopped. The `parameters` matter to
    the first call only. -/
def fire (engagement : Engagement) (timing : Timing) (parameters : BattleFire) (scene : Scene ρ) :
    Except Fault (List UnitId) × Engagement × Scene ρ :=
  (engagement.started parameters scene.ledger).resume timing scene

end Engagement

end Flak
