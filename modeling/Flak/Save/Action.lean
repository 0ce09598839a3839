import Flak.Ledger
import Flak.Save.Board

namespace Flak.Schema

/-!
# How an action is saved

Schemas for rolls, losses, firing groups and the ledger. Requests that are parked in a ledger are not
saved; a ledger that is read has none.
-/

/-- A `GroupId` is saved as its index, one of `word64`. -/
def groupId : Schema GroupId :=
  .via GroupId.index (fun index => some ⟨index⟩) (fun _ => rfl) word64

/-- A `BattleId` is saved as its number, one of `word64`. -/
def battleId : Schema BattleId :=
  .via BattleId.number (fun number => some ⟨number⟩) (fun _ => rfl) word64

/-! ### Rolls and losses -/

/-- The damage of `Losses` is saved as pairs of a unit and the hits it takes. -/
def damage : Schema (List (UnitId × Nat)) := .list (.pair unitId word32)

/-- A `Losses` is saved as a record; without damage it may leave the damage out. -/
def losses : Schema Losses :=
  .via (fun l => (l.killed, l.damaged, ())) (fun (killed, damaged, ()) => some ⟨killed, damaged⟩)
    (fun _ => rfl)
    (.record
      (.field "killed" units .refused
      (.field "damaged" damage (.default [])
      .nil)))

/-- A `Die` is saved as a record without defaults. -/
def die : Schema Die :=
  .via (fun d => (d.value, d.threshold, d.hit, ()))
    (fun (value, threshold, hit, ()) => some ⟨value, threshold, hit⟩)
    (fun _ => rfl)
    (.record
      (.field "value" word32 .refused
      (.field "threshold" word32 .refused
      (.field "hit" .bool .refused
      .nil))))

/-- A `Roll` is saved as a record; only the pooled hits may be left out. -/
def roll : Schema Roll :=
  .via (fun r => (r.hits, r.sides, r.dice, r.pooledHits, ()))
    (fun (hits, sides, dice, pooledHits, ()) => some ⟨hits, sides, dice, pooledHits⟩)
    (fun _ => rfl)
    (.record
      (.field "hits" word64 .refused
      (.field "sides" word32 .refused
      (.field "dice" (.list die) .refused
      (.field "pooled_hits" word64 (.default 0)
      .nil)))))

/-! ### Firing groups -/

/-- A `Removal` is saved as its name. -/
def removal : Schema Removal :=
  .via (fun | .returnToHost => .inl () | .removeFromBoard => .inr (.inl ()))
    (fun
      | .inl () => some .returnToHost
      | .inr (.inl ()) => some .removeFromBoard)
    (fun removal => by cases removal <;> rfl)
    (.choice (.bare "return_to_host" (.bare "remove_from_board" .nil)))

/-- A `FiringGroup` is saved as a record without defaults. -/
def firingGroup : Schema FiringGroup :=
  .via (fun g => (g.territory, g.kind, g.firingPlayer, g.hitPlayer, g.firingUnits, g.targets,
      g.suicideOnHit, g.removal, ()))
    (fun (territory, kind, firingPlayer, hitPlayer, firingUnits, targets, suicideOnHit, removal,
        ()) =>
      some ⟨territory, kind, firingPlayer, hitPlayer, firingUnits, targets, suicideOnHit, removal⟩)
    (fun _ => rfl)
    (.record
      (.field "territory" .text .refused
      (.field "aa_type" .text .refused
      (.field "firing_player" playerId .refused
      (.field "hit_player" playerId .refused
      (.field "firing_units" units .refused
      (.field "targets" units .refused
      (.field "suicide_on_hit" .bool .refused
      (.field "removal" removal .refused
      .nil)))))))))

/-- A `Phase` is saved as its name. -/
def phase : Schema Phase :=
  .via
    (fun
      | .pendingRoll => .inl ()
      | .rolled => .inr (.inl ())
      | .casualtiesSelected => .inr (.inr (.inl ()))
      | .confirmed => .inr (.inr (.inr (.inl ())))
      | .done => .inr (.inr (.inr (.inr (.inl ())))))
    (fun
      | .inl () => some .pendingRoll
      | .inr (.inl ()) => some .rolled
      | .inr (.inr (.inl ())) => some .casualtiesSelected
      | .inr (.inr (.inr (.inl ()))) => some .confirmed
      | .inr (.inr (.inr (.inr (.inl ())))) => some .done)
    (fun phase => by cases phase <;> rfl)
    (.choice
      (.bare "pending_roll"
      (.bare "rolled"
      (.bare "casualties_selected"
      (.bare "confirmed"
      (.bare "done"
      .nil))))))

/-- A `GroupRecord` is saved as a record; what the group has not come to yet may be left out. -/
def groupRecord : Schema GroupRecord :=
  .via (fun r => (r.id, r.group, r.phase, r.activeFiring, r.validTargets, r.dice, r.losses,
      r.enemyNotified, ()))
    (fun (id, group, phase, activeFiring, validTargets, dice, losses, enemyNotified, ()) =>
      some ⟨id, group, phase, activeFiring, validTargets, dice, losses, enemyNotified⟩)
    (fun _ => rfl)
    (.record
      (.field "id" groupId .refused
      (.field "group" firingGroup .refused
      (.field "phase" phase .refused
      (.field "active_firing" units (.default [])
      (.field "valid_targets" units (.default [])
      (.field "dice" (.nullable roll) (.default none)
      (.field "casualties" (.nullable losses) (.default none)
      (.field "enemy_notified" .bool (.default false)
      .nil)))))))))

/-! ### The ledger -/

/-- A `Ledger` is saved as a `snapshot`, without the requests that are parked in it. -/
def ledger : Schema Ledger :=
  .snapshot (fun l => (l.battle, l.player, l.headless, l.groups, l.targets, l.casualties,
      l.cantUndo, ()))
    (fun (battle, player, headless, groups, targets, casualties, cantUndo, ()) =>
      { battle, player, headless, groups, targets, casualties, cantUndo })
    (.record
      (.field "battle_id" battleId .refused
      (.field "player" playerId .refused
      (.field "headless" .bool .refused
      (.field "groups" (.list groupRecord) .refused
      (.field "targets" units (.default [])
      (.field "casualties" units .refused
      (.field "cant_undo" (.nullable .text) (.named none)
      .nil))))))))

end Flak.Schema
