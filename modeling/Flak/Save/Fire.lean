import Flak.Fire.Engagement
import Flak.Fire.Overflight
import Flak.Save.Action

namespace Flak.Schema

/-!
# How fire that was interrupted is saved

Schemas for steps, agendas, overflights and engagements. An agenda is saved with the step that runs
next at the end of its list.
-/

/-- A `BattleFire` is saved as a record; fire is attacking unless it says otherwise. -/
def battleFire : Schema BattleFire :=
  .via (fun f => (f.territory, f.firingPlayer, f.hitPlayer, f.firingUnits, f.targets, f.defending,
      ()))
    (fun (territory, firingPlayer, hitPlayer, firingUnits, targets, defending, ()) =>
      some ⟨territory, firingPlayer, hitPlayer, firingUnits, targets, defending⟩)
    (fun _ => rfl)
    (.record
      (.field "territory" .text .refused
      (.field "firing_player" playerId .refused
      (.field "hit_player" playerId .refused
      (.field "firing_units" units .refused
      (.field "targets" units .refused
      (.field "defending" .bool (.default false)
      .nil)))))))

/-- An `overflight` plan for a territory on a route, as the pair of its territory and targets. -/
def overflightPlan : Schema (String × List UnitId) :=
  .via (fun (territory, targets) => (territory, targets, ()))
    (fun (territory, targets, ()) => some (territory, targets))
    (fun _ => rfl)
    (.record
      (.field "territory" .text .refused
      (.field "targets" units .refused
      .nil)))

/-- A `Step` is saved as an object that carries its plan, or the group of its stage, under the name
    of what it does. -/
def step : Schema Step :=
  .via
    (fun
      | .plan (.overflight territory targets) => .inl (territory, targets)
      | .plan (.battle fire) => .inr (.inl fire)
      | .stage .roll group => .inr (.inr (.inl group))
      | .stage .select group => .inr (.inr (.inr (.inl group)))
      | .stage .notify group => .inr (.inr (.inr (.inr (.inl group)))))
    (fun
      | .inl (territory, targets) => some (.plan (.overflight territory targets))
      | .inr (.inl fire) => some (.plan (.battle fire))
      | .inr (.inr (.inl group)) => some (.stage .roll group)
      | .inr (.inr (.inr (.inl group))) => some (.stage .select group)
      | .inr (.inr (.inr (.inr (.inl group)))) => some (.stage .notify group))
    (fun step => by
      match step with
      | .plan (.overflight _ _) | .plan (.battle _) | .stage .roll _ | .stage .select _
      | .stage .notify _ => rfl)
    (.choice
      (.carrying "fire_in_territory" overflightPlan
      (.carrying "fire_battle_aa" battleFire
      (.carrying "roll_dice" groupId
      (.carrying "select_casualties" groupId
      (.carrying "notify_casualties" groupId
      .nil))))))

/-- An `Agenda`, the `step` that runs next at the end of its list. -/
def agenda {σ : Type} (step : Schema σ) : Schema (Agenda σ) :=
  .via (fun a => (a.queued.reverse, a.current, ()))
    (fun (steps, current, ()) => some ⟨steps.reverse, current⟩)
    (fun a => by simp)
    (.record
      (.field "steps" (.list step) .refused
      (.field "current" (.nullable step) (.named none)
      .nil)))

/-- A `Timing` is saved as a record of two times in milliseconds. -/
def timing : Schema Timing :=
  .via (fun t => (t.pollInterval, t.choiceTimeout, ()))
    (fun (pollInterval, choiceTimeout, ()) => some ⟨pollInterval, choiceTimeout⟩)
    (fun _ => rfl)
    (.record
      (.field "ack_poll_interval_ms" word64 (.default 50)
      (.field "casualty_selection_timeout_ms" word64 (.default 60000)
      .nil)))

/-- An `Overflight` is saved as a record of its settings, its agenda and its ledger. -/
def overflight : Schema Overflight :=
  .via (fun o => (o.timing, o.agenda, o.ledger, ()))
    (fun (timing, agenda, ledger, ()) => some ⟨timing, agenda, ledger⟩)
    (fun _ => rfl)
    (.record
      (.field "config" timing (.default {})
      (.field "stack" (agenda step) .refused
      (.field "action" ledger .refused
      .nil))))

/-- An `Engagement` is saved as a record of its agenda and the place of its first casualty. -/
def engagement : Schema Engagement :=
  .via (fun e => (e.agenda, e.firstCasualty, ()))
    (fun (agenda, firstCasualty, ()) => some ⟨agenda, firstCasualty⟩)
    (fun _ => rfl)
    (.record
      (.field "stack" (agenda step) .refused
      (.field "first_casualty" (.nullable word64) (.named none)
      .nil)))

end Flak.Schema
