import Flak.Proofs.Fire.Course
import Flak.Proofs.Json.Abridged
import Flak.Save.Scenario

namespace Flak

/-!
# All that is saved comes back

* `Schema.Persisted` — the schemas of what is saved and of its parts, each with what comes back of a
  value: the value, less the requests parked in a ledger.
* `Schema.Persisted.comes_back` — saving a value and loading it gives what comes back of it, which is
  saved as the same text; so does loading a document that leaves out fields which hold what their
  absence means.
-/

namespace Schema

/-- The schemas of what is saved and of its parts, with what comes back of a value: all of it but
    for those that contain a `ledger`. -/
inductive Persisted : {α : Type} → Schema α → (α → α) → Prop
  -- The board.
  | board : Persisted Schema.board id
  | rules : Persisted Schema.rules id
  | movePhase : Persisted Schema.movePhase id
  | player : Persisted Schema.player id
  | playerId : Persisted Schema.playerId id
  | unitType : Persisted Schema.unitType id
  | antiAir : Persisted Schema.antiAir id
  | boardUnit : Persisted Schema.boardUnit id
  | unitId : Persisted Schema.unitId id
  | territory : Persisted Schema.territory id
  -- An action.
  | ledger : Persisted Schema.ledger Ledger.unparked
  | groupRecord : Persisted Schema.groupRecord id
  | firingGroup : Persisted Schema.firingGroup id
  | groupId : Persisted Schema.groupId id
  | battleId : Persisted Schema.battleId id
  | phase : Persisted Schema.phase id
  | removal : Persisted Schema.removal id
  | roll : Persisted Schema.roll id
  | die : Persisted Schema.die id
  | losses : Persisted Schema.losses id
  -- What is left of it to do.
  | overflight :
      Persisted Schema.overflight fun fire => { fire with ledger := fire.ledger.unparked }
  | engagement : Persisted Schema.engagement id
  | agenda : Persisted (Schema.agenda Schema.step) id
  | step : Persisted Schema.step id
  | overflightPlan : Persisted Schema.overflightPlan id
  | battleFire : Persisted Schema.battleFire id
  | timing : Persisted Schema.timing id
  -- Scenarios and what they come to.
  | scenario : Persisted Schema.scenario id
  | route : Persisted Schema.route id
  | report : Persisted Schema.report id
  | groupSummary : Persisted Schema.groupSummary id
  | historyEntry : Persisted Schema.historyEntry id

/-! ### Parked requests are all that is lost -/

/-- What comes back of a `ledger` has nothing parked. -/
theorem ledger_recovers : ledger.Recovers Ledger.unparked :=
  .snapshot (recovers_of_faithful _ (by decide))

/-- What comes back of an `overflight` has nothing parked in its ledger. -/
theorem overflight_recovers :
    overflight.Recovers fun fire => { fire with ledger := fire.ledger.unparked } := by
  have htiming : timing.Recovers id := recovers_of_faithful _ timing_faithful
  have hagenda : (agenda step).Recovers id := recovers_of_faithful _ agenda_faithful
  have hnil : Fields.nil.Recovers id := Fields.recovers_of_faithful _ rfl
  have haction : (Fields.field "action" ledger .refused .nil).Recovers
      (Prod.map Ledger.unparked id) :=
    .field ledger_recovers hnil (by simp [Fields.names]) (by simp [Absence.inObject])
  have hstack : (Fields.field "stack" (agenda step) .refused
      (.field "action" ledger .refused .nil)).Recovers
        (Prod.map id (Prod.map Ledger.unparked id)) :=
    .field hagenda haction (by simp [Fields.names]) (by simp [Absence.inObject])
  -- What stands for a missing timing comes back as it is, and the other fields have to be there.
  have hconfig : (Fields.field "config" timing (.default {}) (.field "stack" (agenda step) .refused
      (.field "action" ledger .refused .nil))).Recovers
        (Prod.map id (Prod.map id (Prod.map Ledger.unparked id))) :=
    .field htiming hstack (by simp [Fields.names]) fun _ _ => rfl
  exact .via (.record hconfig) fun _ => rfl

namespace Persisted

variable {α : Type} {schema : Schema α} {back : α → α}

/-- What is `Persisted` can be recovered. -/
theorem recovers (h : schema.Persisted back) : schema.Recovers back := by
  cases h with
  | ledger => exact ledger_recovers
  | overflight => exact overflight_recovers
  | _ => exact recovers_of_faithful _ (by decide)

/-- What does not come `back` was not written. -/
theorem write_back (h : schema.Persisted back) (value : α) :
    schema.write (back value) = schema.write value := by
  cases h with
  | _ => rfl

/-- A `value` that is saved and loaded comes `back`, less the requests parked in a ledger, and is
    saved as the same text again. It comes back, too, from a document that `Abridges` it and so
    leaves out fields which hold what their absence means, at any depth. -/
theorem comes_back (h : schema.Persisted back) (value : α) (hbounds : schema.inBounds value = true) :
    schema.parse? (Json.compact (schema.write value)) = some (back value) ∧
      Json.compact (schema.write (back value)) = Json.compact (schema.write value) ∧
      ∀ document, schema.Abridges value document →
        schema.parse? (Json.compact document) = some (back value) := by
  have hall (document : Json) (habridges : schema.Abridges value document) :
      schema.parse? (Json.compact document) = some (back value) :=
    h.recovers.parse? hbounds habridges
  refine ⟨hall _ (schema.abridges_write value), ?_, hall⟩
  rw [h.write_back value]

end Persisted

/-- The fire of the `Sortie` once the gun has rolled, with and without its timing. -/
theorem comes_back_sortie :
    overflight.inBounds (Sortie.fired true) = true ∧
      overflight.parse? (Json.compact (overflight.write (Sortie.fired true))) =
        some (Sortie.fired true) ∧
      overflight.parse? (Json.compact (.obj [
        ("stack", (agenda step).write (Sortie.fired true).agenda),
        ("action", ledger.write (Sortie.fired true).ledger)])) = some (Sortie.fired true) := by
  have hbounds : overflight.inBounds (Sortie.fired true) = true := by decide
  obtain ⟨hwhole, -, habridged⟩ := Persisted.comes_back .overflight (Sortie.fired true) hbounds
  refine ⟨hbounds, hwhole, habridged _ ⟨_, rfl, .inl ⟨rfl, .inr ⟨_, _, rfl, ?_, .inr ?_⟩⟩⟩⟩
  · exact abridges_write _ _
  · exact ⟨_, _, rfl, abridges_write _ _, rfl⟩

end Schema

end Flak
