import Flak.Fault

namespace Flak.Fault

/-!
# Results of what may fail

A computation that comes to a value has come to one in each of its parts:

* `exists_of_bind` — a part that is followed by another;
* `exists_of_map` — a value that is made into another.

A result is `Orderly` if it is no complaint about the phase of a group; so is what is put together
from such results.
-/

variable {α β : Type} {first : Except Fault α} {b : β}

/-- A computation that goes on to `next` succeeds if both of its parts do. -/
theorem exists_of_bind {next : α → Except Fault β} (h : first >>= next = .ok b) :
    ∃ a, first = .ok a ∧ next a = .ok b := by
  cases first with
  | error fault => simp [bind, Except.bind] at h
  | ok a => exact ⟨a, rfl, h⟩

/-- A result that was made by `make` was made from a result. -/
theorem exists_of_map {make : α → β} (h : first.map make = .ok b) :
    ∃ a, first = .ok a ∧ make a = b := by
  cases first with
  | error fault => simp [Except.map] at h
  | ok a => exact ⟨a, rfl, Except.ok.inj h⟩

/-- Whether a `Fault` is a complaint about the phase of a group. -/
def isMismatch : Fault → Bool
  | .phaseMismatch _ _ _ => true
  | _ => false

/-- Whether a `Fault` comes of asking remote players. -/
def isRemote : Fault → Bool
  | .remote _ => true
  | .interrupted => true
  | _ => false

/-- What comes of asking remote players `isRemote`, and no complaint about a phase. -/
theorem isMismatch_of_isRemote {fault : Fault} (h : fault.isRemote = true) :
    fault.isMismatch = false := by
  cases fault <;> simp_all [isRemote, isMismatch]

end Flak.Fault

namespace Flak

/-- A `result` that is no complaint about the phase of a group. -/
def Orderly {α : Type} (result : Except Fault α) : Prop :=
  ∀ fault, result = .error fault → fault.isMismatch = false

namespace Orderly

variable {α β : Type}

/-- A value is an `Orderly` result. -/
theorem ok (a : α) : Orderly (.ok a) := by
  intro fault h
  simp at h

/-- A fault is an `Orderly` result unless it is a mismatch of phases. -/
theorem error {fault : Fault} (h : fault.isMismatch = false) :
    Orderly (.error fault : Except Fault α) := by
  rintro _ ⟨⟩
  exact h

/-- What goes on to `next` is `Orderly` if both parts are. -/
theorem bind {first : Except Fault α} {next : α → Except Fault β} (hfirst : Orderly first)
    (hnext : ∀ a, Orderly (next a)) : Orderly (first >>= next) := by
  cases first with
  | error fault => exact .error (hfirst fault rfl)
  | ok a => exact hnext a

/-- What was made of an `Orderly` result is orderly. -/
theorem map {first : Except Fault α} (h : Orderly first) (make : α → β) :
    Orderly (first.map make) := by
  cases first with
  | error fault => exact .error (h fault rfl)
  | ok a => exact .ok (make a)

end Orderly

end Flak
