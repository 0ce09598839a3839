import Flak.Board.Basic
import Flak.Save.Sorted

namespace Flak.Schema

/-!
# How a board is saved

One schema for each type of the board, its fields in the order in which an array of them is read.
A field of `Absence.default` may be left out.
-/

/-! ### Numbers and names -/

/-- A number of 32 bits, below `UInt32.size`. -/
def word32 : Schema Nat := .nat UInt32.size

/-- A number of 64 bits, below `UInt64.size`. -/
def word64 : Schema Nat := .nat UInt64.size

/-- A signed number of 32 bits, as an `int` between the least and the greatest one. -/
def signed32 : Schema Int := .int (-2147483648) 2147483647

/-- A `PlayerId` is saved as its name. -/
def playerId : Schema PlayerId :=
  .via PlayerId.name (fun name => some ⟨name⟩) (fun _ => rfl) .text

/-- A `UnitId` is saved as its number, one of `word32`. -/
def unitId : Schema UnitId :=
  .via UnitId.number (fun number => some ⟨number⟩) (fun _ => rfl) word32

/-- Units are saved as the array of their ids, each a `unitId`. -/
def units : Schema (List UnitId) := .list unitId

/-! ### Rules -/

/-- A `MovePhase` is saved as its name. -/
def movePhase : Schema MovePhase :=
  .via (fun | .combat => .inl () | .nonCombat => .inr (.inl ()))
    (fun
      | .inl () => some .combat
      | .inr (.inl ()) => some .nonCombat)
    (fun phase => by cases phase <;> rfl)
    (.choice (.bare "combat" (.bare "non_combat" .nil)))

/-- A `CasualtyMode` is saved as its name. -/
def casualtyMode : Schema CasualtyMode :=
  .via (fun | .automatic => .inl () | .random => .inr (.inl ()) | .interactive => .inr (.inr (.inl ())))
    (fun
      | .inl () => some .automatic
      | .inr (.inl ()) => some .random
      | .inr (.inr (.inl ())) => some .interactive)
    (fun mode => by cases mode <;> rfl)
    (.choice (.bare "automatic" (.bare "random" (.bare "interactive" .nil))))

/-- The `Rules` are saved as a record in which every switch may be left out. -/
def rules : Schema Rules :=
  .via (fun r => (r.alwaysOn, r.territoryRestricted, r.forceLastStep, r.lowLuck,
      r.chooseCasualties, r.randomCasualties, r.diceSides, ()))
    (fun (alwaysOn, territoryRestricted, forceLastStep, lowLuck, chooseCasualties,
        randomCasualties, diceSides, ()) =>
      some ⟨alwaysOn, territoryRestricted, forceLastStep, lowLuck, chooseCasualties,
        randomCasualties, diceSides⟩)
    (fun _ => rfl)
    (.record
      (.field "always_on_aa" .bool (.default false)
      (.field "aa_territory_restricted" .bool (.default false)
      (.field "force_aa_attacks_for_last_step_of_fly_over" .bool (.default false)
      (.field "low_luck_aa" .bool (.default false)
      (.field "choose_aa_casualties" .bool (.default false)
      (.field "random_aa_casualties" .bool (.default false)
      (.field "dice_sides" word32 (.default 6)
      .nil))))))))

/-! ### Players and units -/

/-- A `Player` is saved as a record; one without an alliance may leave it out. -/
def player : Schema Player :=
  .via (fun p => (p.id, p.alliance, ())) (fun (id, alliance, ()) => some ⟨id, alliance⟩)
    (fun _ => rfl)
    (.record
      (.field "id" playerId .refused
      (.field "alliance" (.nullable .text) (.default none)
      .nil)))

/-- An `AntiAir` is saved as a record; -1 attacks, its default, are as many as there are targets. -/
def antiAir : Schema AntiAir :=
  .via (fun a => (a.kind, a.strength, a.diceSides, a.maxAttacks, a.targets, a.firesOnFlyOver,
      a.suicideOnHit, ()))
    (fun (kind, strength, diceSides, maxAttacks, targets, firesOnFlyOver, suicideOnHit, ()) =>
      some ⟨kind, strength, diceSides, maxAttacks, targets, firesOnFlyOver, suicideOnHit⟩)
    (fun _ => rfl)
    (.record
      (.field "aa_type" .text .refused
      (.field "strength" word32 .refused
      (.field "dice_sides" (.nullable word32) (.default none)
      (.field "max_attacks" signed32 (.default (-1))
      (.field "targets" (.list .text) .refused
      (.field "fires_on_fly_over" .bool (.default true)
      (.field "suicide_on_hit" .bool (.default false)
      .nil))))))))

/-- A `UnitType` is saved as a record; its ability may be left out. -/
def unitType : Schema UnitType :=
  .via (fun t => (t.name, t.hitPoints, t.isInfrastructure, t.aa, ()))
    (fun (name, hitPoints, isInfrastructure, aa, ()) =>
      some ⟨name, hitPoints, isInfrastructure, aa⟩)
    (fun _ => rfl)
    (.record
      (.field "name" .text .refused
      (.field "hit_points" word32 (.default 1)
      (.field "is_infrastructure" .bool (.default false)
      (.field "aa" (.nullable antiAir) (.default none)
      .nil)))))

/-- A `BoardUnit` is saved as a record; the hits it has taken may be left out. -/
def boardUnit : Schema BoardUnit :=
  .via (fun u => (u.id, u.typeName, u.owner, u.hits, u.movementLeft, u.airborne, u.transportedBy, ()))
    (fun (id, typeName, owner, hits, movementLeft, airborne, transportedBy, ()) =>
      some ⟨id, typeName, owner, hits, movementLeft, airborne, transportedBy⟩)
    (fun _ => rfl)
    (.record
      (.field "id" unitId .refused
      (.field "unit_type" .text .refused
      (.field "owner" playerId .refused
      (.field "hits" word32 (.default 0)
      (.field "movement_left" word32 (.default 0)
      (.field "airborne" .bool (.default false)
      (.field "transported_by" (.nullable unitId) (.default none)
      .nil))))))))

/-! ### Territories -/

/-- A `Territory` is saved as a record; without an owner it is nobody's. -/
def territory : Schema Territory :=
  .via (fun t => (t.name, t.owner, t.units, ()))
    (fun (name, owner, units, ()) => some ⟨name, owner, units⟩)
    (fun _ => rfl)
    (.record
      (.field "name" .text .refused
      (.field "owner" playerId (.default .nobody)
      (.field "units" units (.default [])
      .nil))))

/-- A `Route` is saved as its steps; there has to be one. -/
def route : Schema Route :=
  .via Route.steps Route.ofList? Route.ofList?_steps (.list .text)

/-! ### The board -/

/-- A `Board` is saved as a record, its collections empty where they are left out. -/
def board : Schema Board :=
  .via (fun b => (b.rules, b.phase, b.players, b.unitTypes, b.units, b.territories,
      b.airborneTargets, b.battlesFought, ()))
    (fun (rules, phase, players, unitTypes, units, territories, airborneTargets, battlesFought,
        ()) =>
      some ⟨rules, phase, players, unitTypes, units, territories, airborneTargets, battlesFought⟩)
    (fun _ => rfl)
    (.record
      (.field "rules" rules (.default {})
      (.field "phase" movePhase (.default .combat)
      (.field "players" (.list player) (.default [])
      (.field "unit_types" (.list unitType) (.default [])
      (.field "units" (.list boardUnit) (.default [])
      (.field "territories" (.list territory) (.default [])
      (.field "airborne_targets"
        (sortedMap PlayerId.name PlayerId.mk PlayerId.mk_name
          (sortedMap id id (fun _ => rfl) (.list .text)))
        (.default ∅)
      (.field "battles_fought" (sortedSet .text) (.default ∅)
      .nil)))))))))

end Flak.Schema
