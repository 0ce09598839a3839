import Flak.Proofs.Json.Schema
import Flak.Save.Fire

namespace Flak

/-!
# What is left after saving and loading

* `Schema.parse?_ledger` — a ledger comes back without its parked requests.
* `Schema.parse?_overflight` — so does the fire at a move.
* `Schema.parse?_engagement` — a firing in a battle comes back as it was.

Nothing comes back from what is out of bounds.
-/

namespace Schema

/-- The schema `agenda` of steps leaves nothing out. -/
theorem agenda_faithful : (agenda step).faithful = true := by decide

/-- The schema `timing` leaves nothing out. -/
theorem timing_faithful : timing.faithful = true := by decide

/-- The schema `engagement` leaves nothing out. -/
theorem engagement_faithful : engagement.faithful = true := by decide

/-- What `ledger` reads of what it has written has lost its parked requests. -/
theorem read?_ledger (l : Ledger) :
    ledger.read? (ledger.write l) = if ledger.inBounds l then some l.unparked else none :=
  read?_write_snapshot (by decide) l

/-- What `overflight` reads of what it has written has lost its parked requests. -/
theorem read?_overflight (fire : Overflight) :
    overflight.read? (overflight.write fire) =
      if overflight.inBounds fire then some { fire with ledger := fire.ledger.unparked }
      else none := by
  have htiming := timing.read?_write timing_faithful fire.timing
  have hagenda := (agenda step).read?_write agenda_faithful fire.agenda
  have hledger := read?_ledger fire.ledger
  -- The fields are read one after the other, each of them by its own schema.
  simp only [overflight, write, Fields.write, read?, Fields.fromObject?, Json.occurrences,
    decide_true, List.countP_cons_of_pos, String.reduceEq, decide_false, Bool.false_eq_true,
    not_false_eq_true, List.countP_cons_of_neg, List.countP_nil, Nat.zero_add, Std.le_refl,
    ↓reduceIte, Json.member?, htiming, hagenda, hledger, Option.pure_def, Option.bind_eq_bind,
    Option.bind_some, inBounds, Fields.inBounds, Bool.and_true, Bool.and_eq_true]
  cases timing.inBounds fire.timing <;> cases (agenda step).inBounds fire.agenda <;>
    cases ledger.inBounds fire.ledger <;> rfl

/-! ### Through the text -/

/-- A `ledger` that is saved and loaded has lost its parked requests. -/
theorem parse?_ledger (l : Ledger) :
    ledger.parse? (Json.compact (ledger.write l)) =
      if ledger.inBounds l then some l.unparked else none := by
  rw [parse?_write, read?_ledger]

/-- The fire at a move, an `overflight`, that is saved and loaded has lost its parked requests. -/
theorem parse?_overflight (fire : Overflight) :
    overflight.parse? (Json.compact (overflight.write fire)) =
      if overflight.inBounds fire then some { fire with ledger := fire.ledger.unparked }
      else none := by
  rw [parse?_write, read?_overflight]

/-- A firing in a battle, an `engagement`, that is saved and loaded has lost nothing. -/
theorem parse?_engagement (firing : Engagement) :
    engagement.parse? (Json.compact (engagement.write firing)) =
      if engagement.inBounds firing then some firing else none := by
  rw [parse?_write, read?_write engagement engagement_faithful]

end Schema

end Flak
