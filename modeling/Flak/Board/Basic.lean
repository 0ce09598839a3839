import Std.Data.ExtTreeMap
import Std.Data.ExtTreeSet
import Flak.Fault
import Flak.Board.Rules
import Flak.Board.Territory
import Flak.Board.Unit

namespace Flak

/-!
# The board

`Board` is the state of the game that anti-air fire reads and changes. Names and numbers need not be
distinct: a look-up finds the first entry. `Board.placeUnit`, `Board.removeUnits` and
`Board.markDamaged` are all that changes a board while anti-air fires.
-/

/-- The state of the game. The `unitTypes` are in the order of their declaration. -/
structure Board where
  rules : Rules := {}
  phase : MovePhase := .combat
  players : List Player := []
  unitTypes : List UnitType := []
  units : List BoardUnit := []
  territories : List Territory := []
  /-- For a player and a kind of anti-air, the unit types it may hit while they are airborne. -/
  airborneTargets : Std.ExtTreeMap PlayerId (Std.ExtTreeMap String (List String)) := ∅
  /-- The territories where a battle was already fought this turn. -/
  battlesFought : Std.ExtTreeSet String := ∅

namespace Board

/-! ### Look-ups -/

/-- The first unit of the `board` with this `id`. -/
def unit? (board : Board) (id : UnitId) : Option BoardUnit :=
  board.units.find? fun unit => unit.id = id

/-- The first declared type of the `board` with this `name`. -/
def unitType? (board : Board) (name : String) : Option UnitType :=
  board.unitTypes.find? fun type => type.name = name

/-- The first territory of the `board` with this `name`. -/
def territory? (board : Board) (name : String) : Option Territory :=
  board.territories.find? fun territory => territory.name = name

/-- The unit with this `id`, or the `Fault` that there is none. -/
def unit (board : Board) (id : UnitId) : Except Fault BoardUnit :=
  match board.unit? id with
  | some unit => .ok unit
  | none => .error (.unknownUnit id)

/-- The territory with this `name`, or the `Fault` that there is none. -/
def territory (board : Board) (name : String) : Except Fault Territory :=
  match board.territory? name with
  | some territory => .ok territory
  | none => .error (.unknownTerritory name)

/-- The unit with this `id` together with its declared `UnitType`. -/
def unitWithType (board : Board) (id : UnitId) : Except Fault (BoardUnit × UnitType) :=
  match board.unit? id with
  | none => .error (.unknownUnit id)
  | some unit =>
      match board.unitType? unit.typeName with
      | none => .error (.unknownUnitType unit.typeName)
      | some type => .ok (unit, type)

/-- The anti-air ability of a unit, if the unit and its type are known to the `board` and it has
    one. -/
def ability? (board : Board) (id : UnitId) : Option AntiAir :=
  match board.unitWithType id with
  | .ok (_, type) => type.aa
  | .error _ => none

/-- Whether the unit with this `id` is on the `board` at all. -/
def hasUnit (board : Board) (id : UnitId) : Bool := (board.unit? id).isSome

/-- Whether the unit with this `id` is on the `board` and stands in the `territory`. -/
def standsIn (board : Board) (id : UnitId) (territory : String) : Bool :=
  board.hasUnit id &&
    match board.territory? territory with
    | some territory => id ∈ territory.units
    | none => false

/-! ### Players at war -/

/-- The alliance of the first player of the `board` with the name of `player`. -/
def alliance? (board : Board) (player : PlayerId) : Option String :=
  (board.players.find? fun p => p.id = player).bind Player.alliance

/-- Two different players `a` and `b` are at war unless they share an alliance. Nobody is at war
    with `nobody`. -/
def atWar (board : Board) (a b : PlayerId) : Bool :=
  if a = b ∨ a = .nobody ∨ b = .nobody then false
  else match board.alliance? a, board.alliance? b with
    | some x, some y => x ≠ y
    | _, _ => true

/-! ### Anti-air -/

/-- The unit types of the `player` that anti-air of this `kind` may hit while they are airborne. -/
def exposedTypes (board : Board) (player : PlayerId) (kind : String) : List String :=
  match board.airborneTargets[player]? with
  | some byKind => (byKind[kind]?).getD []
  | none => []

/-- The position of the first unit type that declares anti-air of this `kind`. -/
def declarationIndex? (board : Board) (kind : String) : Option Nat :=
  board.unitTypes.findIdx? fun type => type.aa.any fun aa => aa.kind = kind

/-- The rank of the `kind` of anti-air by its `declarationIndex?`; kinds that no type declares come
    last. -/
def declarationRank (board : Board) (kind : String) : Nat :=
  (board.declarationIndex? kind).getD board.unitTypes.length

/-- Whether the `board` records a battle in this `territory`. -/
def wasBattleFoughtIn (board : Board) (territory : String) : Bool :=
  territory ∈ board.battlesFought

/-! ### Changes -/

/-- The list of territories with a `change` made to the first one of this `name`. -/
def updateTerritory (name : String) (change : Territory → Territory) :
    List Territory → List Territory
  | [] => []
  | territory :: rest =>
      if territory.name = name then change territory :: rest
      else territory :: updateTerritory name change rest

/-- The list of units with a `change` made to the first one with this `id`. -/
def updateUnit (id : UnitId) (change : BoardUnit → BoardUnit) : List BoardUnit → List BoardUnit
  | [] => []
  | unit :: rest =>
      if unit.id = id then change unit :: rest else unit :: updateUnit id change rest

/-- Gives the territory of this `name` to another `owner`. -/
def setOwner (name : String) (owner : PlayerId) (board : Board) : Except Fault Unit × Board :=
  match board.territory? name with
  | none => (.error (.unknownTerritory name), board)
  | some _ =>
      (.ok (), { board with
        territories := updateTerritory name (fun t => { t with owner }) board.territories })

/-- Puts the `unit` into the `territory`. -/
def placeUnit (territory : String) (unit : BoardUnit) (board : Board) :
    Except Fault UnitId × Board :=
  match board.territory? territory with
  | none => (.error (.unknownTerritory territory), board)
  | some _ =>
      (.ok unit.id, { board with
        units := board.units ++ [unit]
        territories :=
          updateTerritory territory (fun t => { t with units := t.units ++ [unit.id] })
            board.territories })

/-- Takes the units `ids` out of the `territory` and off the `board`. -/
def removeUnits (territory : String) (ids : List UnitId) (board : Board) :
    Except Fault Unit × Board :=
  match board.territory? territory with
  | none => (.error (.unknownTerritory territory), board)
  | some _ =>
      (.ok (), { board with
        units := board.units.filter fun unit => unit.id ∉ ids
        territories :=
          updateTerritory territory (fun t => { t with units := t.units.filter (· ∉ ids) })
            board.territories })

/-- Adds hits to units one after another. It ends with a `Fault` at the first unknown unit, and the
    hits before it stay. -/
def markDamaged : List (UnitId × Nat) → Board → Except Fault Unit × Board
  | [], board => (.ok (), board)
  | (id, hits) :: rest, board =>
      match board.unit? id with
      | none => (.error (.unknownUnit id), board)
      | some _ =>
          markDamaged rest { board with
            units := updateUnit id (fun unit => { unit with hits := unit.hits + hits }) board.units }

end Board

end Flak
