import Flak.Engine.Scene

namespace Flak.Engine

/-!
# Running a computation on a scene

What `onScene` gives for each of the operations that computations are made of:

* `onScene_bind` — a computation after another runs where the first one left off, unless that
  failed;
* `onScene_get`, `onScene_of`, `onScene_changeHost`, … — one equation for each operation.
-/

variable {ρ α β : Type}

/-! ### Sequences -/

/-- A value `a` alone does nothing to the scene. -/
@[simp] theorem onScene_pure (a : α) (scene : Scene ρ) :
    (pure a : Engine ρ α).onScene scene = (.ok a, scene) := rfl

/-- A `fault` ends a computation and does nothing to the scene. -/
@[simp] theorem onScene_throw (fault : Fault) (scene : Scene ρ) :
    (throw fault : Engine ρ α).onScene scene = (.error fault, scene) := rfl

/-- A computation `x` and what follows it run one after the other; a fault ends both. -/
theorem onScene_bind (x : Engine ρ α) (f : α → Engine ρ β) (scene : Scene ρ) :
    (x >>= f).onScene scene =
      match x.onScene scene with
      | (.ok a, after) => (f a).onScene after
      | (.error fault, after) => (.error fault, after) := by
  show (match x scene with
    | (result, after) => ExceptT.bindCont f result after) = _
  rcases h : x scene with ⟨result, after⟩
  have hx : x.onScene scene = (result, after) := h
  rw [hx]
  cases result <;> rfl

/-- What follows a computation that succeeds runs where that one left off: on the scene `after`
    it. -/
theorem onScene_bind_ok {x : Engine ρ α} {f : α → Engine ρ β} {scene after : Scene ρ} {a : α}
    (h : x.onScene scene = (.ok a, after)) :
    (x >>= f).onScene scene = (f a).onScene after := by
  rw [onScene_bind, h]

/-- Nothing follows a computation that fails with a `fault`. -/
theorem onScene_bind_error {x : Engine ρ α} {f : α → Engine ρ β} {scene after : Scene ρ}
    {fault : Fault} (h : x.onScene scene = (.error fault, after)) :
    (x >>= f).onScene scene = (.error fault, after) := by
  rw [onScene_bind, h]

/-! ### Operations -/

/-- What `get` gives is the scene. -/
@[simp] theorem onScene_get (scene : Scene ρ) :
    (get : Engine ρ (Scene ρ)).onScene scene = (.ok scene, scene) := rfl

/-- What `of` gives is the result, and the scene stays. -/
@[simp] theorem onScene_of (result : Except Fault α) (scene : Scene ρ) :
    (of result : Engine ρ α).onScene scene = (result, scene) := rfl

/-- What `modifyGet` does to the scene is what its function says. -/
@[simp] theorem onScene_modifyGet (f : Scene ρ → α × Scene ρ) (scene : Scene ρ) :
    (modifyGet f : Engine ρ α).onScene scene = (.ok (f scene).1, (f scene).2) := rfl

/-- By `changeHost` only the host changes. -/
@[simp] theorem onScene_changeHost (change : Host ρ → Host ρ) (scene : Scene ρ) :
    (changeHost change).onScene scene = (.ok (), { scene with host := change scene.host }) := rfl

/-- By `changeLedger` only the ledger changes. -/
@[simp] theorem onScene_changeLedger (change : Ledger → Ledger) (scene : Scene ρ) :
    (changeLedger change : Engine ρ Unit).onScene scene =
      (.ok (), { scene with ledger := change scene.ledger }) := rfl

/-- By `changeBoard` only the board changes, and it may fail. -/
@[simp] theorem onScene_changeBoard (change : Board → Except Fault α × Board) (scene : Scene ρ) :
    (changeBoard change : Engine ρ α).onScene scene =
      ((change scene.host.board).1,
        { scene with host := { scene.host with board := (change scene.host.board).2 } }) := rfl

/-- By `withDice` only the dice of the host change. -/
@[simp] theorem onScene_withDice (roll : ρ → α × ρ) (scene : Scene ρ) :
    (withDice roll : Engine ρ α).onScene scene =
      (.ok (roll scene.host.dice).1,
        { scene with host := { scene.host with dice := (roll scene.host.dice).2 } }) := rfl

/-- What `record` gives is the record in the ledger, or the fault that there is none. -/
@[simp] theorem onScene_record (id : GroupId) (scene : Scene ρ) :
    (record id : Engine ρ GroupRecord).onScene scene = (scene.ledger.record id, scene) := by
  simp [record, onScene_bind]

end Flak.Engine
