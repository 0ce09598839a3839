import Flak.Save.Fire
import Flak.Scenario.Basic

namespace Flak.Schema

/-!
# How scenarios, reports and letters are saved
-/

/-! ### Letters -/

/-- A `CasualtyNotice` is saved as a record without defaults. -/
def casualtyNotice : Schema CasualtyNotice :=
  .via (fun n => (n.battle, n.message, n.dice, n.losses, ()))
    (fun (battle, message, dice, losses, ()) => some ⟨battle, message, dice, losses⟩)
    (fun _ => rfl)
    (.record
      (.field "battle_id" battleId .refused
      (.field "message" .text .refused
      (.field "dice" roll .refused
      (.field "casualties" losses .refused
      .nil)))))

/-- A `CasualtyRequest` is saved as a record without defaults. -/
def casualtyRequest : Schema CasualtyRequest :=
  .via (fun r => (r.battle, r.territory, r.kind, r.dice, r.targets, r.defaultSelection, ()))
    (fun (battle, territory, kind, dice, targets, defaultSelection, ()) =>
      some ⟨battle, territory, kind, dice, targets, defaultSelection⟩)
    (fun _ => rfl)
    (.record
      (.field "battle_id" battleId .refused
      (.field "territory" .text .refused
      (.field "aa_type" .text .refused
      (.field "dice" roll .refused
      (.field "targets" units .refused
      (.field "default_selection" losses .refused
      .nil)))))))

/-! ### Scenarios -/

/-- A `Scenario` is saved as a record; only its board and its player have to be there. -/
def scenario : Schema Scenario :=
  .via (fun s => (s.board, s.player, s.route, s.units, s.battles, s.seed, s.dice, s.interactive, ()))
    (fun (board, player, route, units, battles, seed, dice, interactive, ()) =>
      some ⟨board, player, route, units, battles, seed, dice, interactive⟩)
    (fun _ => rfl)
    (.record
      (.field "data" board .refused
      (.field "player" playerId .refused
      (.field "route" (.nullable route) (.default none)
      (.field "units" units (.default [])
      (.field "battles" (.list battleFire) (.default [])
      (.field "seed" (.nullable word64) (.default none)
      (.field "dice" (.nullable (.list word32)) (.default none)
      (.field "interactive" .bool (.default false)
      .nil)))))))))

/-! ### Reports -/

/-- A `HistoryEntry` is saved as a record without defaults. -/
def historyEntry : Schema HistoryEntry :=
  .via (fun e => (e.text, e.units, ())) (fun (line, units, ()) => some ⟨line, units⟩)
    (fun _ => rfl)
    (.record
      (.field "text" .text .refused
      (.field "units" units .refused
      .nil)))

/-- A `GroupSummary` is saved as a record without defaults. -/
def groupSummary : Schema GroupSummary :=
  .via (fun g => (g.territory, g.kind, g.firingPlayer, g.hitPlayer, g.dice, g.hits, g.killed,
      g.damaged, ()))
    (fun (territory, kind, firingPlayer, hitPlayer, dice, hits, killed, damaged, ()) =>
      some ⟨territory, kind, firingPlayer, hitPlayer, dice, hits, killed, damaged⟩)
    (fun _ => rfl)
    (.record
      (.field "territory" .text .refused
      (.field "aa_type" .text .refused
      (.field "firing_player" playerId .refused
      (.field "hit_player" playerId .refused
      (.field "dice" (.list word32) .refused
      (.field "hits" word64 .refused
      (.field "killed" units .refused
      (.field "damaged" damage .refused
      .nil)))))))))

/-- A `Report` is saved as a record with all its fields. -/
def report : Schema Report :=
  .via (fun r => (r.firedIn, r.casualties, r.cantUndo, r.battleCasualties, r.groups, r.history,
      r.messages, ()))
    (fun (firedIn, casualties, cantUndo, battleCasualties, groups, history, messages, ()) =>
      some ⟨firedIn, casualties, cantUndo, battleCasualties, groups, history, messages⟩)
    (fun _ => rfl)
    (.record
      (.field "fired_in" (.list .text) .refused
      (.field "casualties" units .refused
      (.field "cant_undo" (.nullable .text) (.named none)
      (.field "battle_casualties" units .refused
      (.field "groups" (.list groupSummary) .refused
      (.field "history" (.list historyEntry) .refused
      (.field "messages" (sortedMap PlayerId.name PlayerId.mk PlayerId.mk_name (.list .text)) .refused
      .nil))))))))

end Flak.Schema
