import Flak.Host
import Flak.Ledger

namespace Flak

/-!
# Where steps run

* `Scene` — the host and the ledger, which is all that a step sees and changes.
* `Engine` — a computation on a scene that may fail. What it changed before it failed stays
  changed.
-/

/-- What the steps of an action work on: the `host` and the `ledger`. -/
structure Scene (ρ : Type) where
  host : Host ρ
  ledger : Ledger

/-- A computation on a `Scene` that may fail and keeps its changes when it does. -/
abbrev Engine (ρ α : Type) := ExceptT Fault (StateM (Scene ρ)) α

namespace Engine

variable {ρ α : Type}

/-- The result of the computation `engine` and the `scene` after it. -/
def onScene (engine : Engine ρ α) (scene : Scene ρ) : Except Fault α × Scene ρ :=
  engine.run scene

/-- The value of a `result`, or its fault. -/
def of (result : Except Fault α) : Engine ρ α := ExceptT.mk (pure result)

/-- Makes a `change` to the board of the host; it may fail. -/
def changeBoard (change : Board → Except Fault α × Board) : Engine ρ α :=
  ExceptT.mk fun scene =>
    let (result, board) := change scene.host.board
    (result, { scene with host := { scene.host with board } })

/-- Makes a `change` to the host. -/
def changeHost (change : Host ρ → Host ρ) : Engine ρ Unit :=
  modify fun scene => { scene with host := change scene.host }

/-- Makes a `change` to the ledger. -/
def changeLedger (change : Ledger → Ledger) : Engine ρ Unit :=
  modify fun scene => { scene with ledger := change scene.ledger }

/-- Something that the dice of the host decide, as `roll` says. -/
def withDice (roll : ρ → α × ρ) : Engine ρ α :=
  ExceptT.mk fun scene =>
    let (value, dice) := roll scene.host.dice
    (.ok value, { scene with host := { scene.host with dice } })

/-- The record of the group with this `id` in the ledger. -/
def record (id : GroupId) : Engine ρ GroupRecord := do
  of ((← get).ledger.record id)

end Engine

end Flak
