import Flak.Identity

namespace Flak

/-!
# Players, unit types and units

* `AntiAir` — what a unit type shoots at, and how hard.
* `UnitType` — the toughness of a kind of unit and its anti-air ability, if it has one.
* `BoardUnit` — a unit on the board; it names its type and counts the hits it has taken.
-/

/-- A player and the `alliance` it fights with. -/
structure Player where
  id : PlayerId
  alliance : Option String
  deriving DecidableEq

/-- The defensive fire of a unit type. Units of one `kind` fire together. -/
structure AntiAir where
  kind : String
  /-- A die below this value is a hit. -/
  strength : Nat
  /-- The size of its die, if it is not the game's. -/
  diceSides : Option Nat
  /-- The most dice a unit rolls in one firing; a negative number is no limit. -/
  maxAttacks : Int
  /-- The names of the unit types it can shoot at. -/
  targets : List String
  /-- Whether it fires at units that fly over, and not in battle only. -/
  firesOnFlyOver : Bool
  /-- Whether a firing unit is spent for each hit. -/
  suicideOnHit : Bool
  deriving DecidableEq

/-- Whether `aa` can target units of the type with this name. -/
def AntiAir.canTarget (aa : AntiAir) (typeName : String) : Bool :=
  typeName ∈ aa.targets

/-- A declared type of unit, known by its `name`. -/
structure UnitType where
  name : String
  hitPoints : Nat
  /-- Factories, bases and the like are never casualties. -/
  isInfrastructure : Bool
  aa : Option AntiAir
  deriving DecidableEq

/-- A unit on the board with its `owner` and the `hits` it has taken. -/
structure BoardUnit where
  id : UnitId
  typeName : String
  owner : PlayerId
  /-- Hits taken so far. -/
  hits : Nat
  movementLeft : Nat
  /-- Launched from the air, and so open to anti-air fire that its own technology exposes it to. -/
  airborne : Bool
  /-- The unit that carries it. Carried anti-air does not fire. -/
  transportedBy : Option UnitId
  deriving DecidableEq

/-- The hit points the `unit` of this `type` has left, none if it took more hits than it has
    points. -/
def BoardUnit.hitPointsLeft (unit : BoardUnit) (type : UnitType) : Nat :=
  type.hitPoints - unit.hits

/-- The order in which moving units `a` and `b` are hit by default: the least `movementLeft` first,
    then by number. -/
def BoardUnit.leastMovementFirst (a b : BoardUnit) : Ordering :=
  (compare a.movementLeft b.movementLeft).then (compare a.id.number b.id.number)

end Flak
