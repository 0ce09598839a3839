import Flak.Board.Basic

namespace Flak

/-!
# Where anti-air fires along a route

* `movingPlayer` — the player that moving units fight for.
* `Board.canFireAt` — whether a unit fires at units that fly over.
* `Board.firingTerritories` — the territories on a route that fire: those in the middle, then either
  the end, if the rules force fire there, or the start, unless a battle was fought there.
-/

/-- The player that `units` fight for: the `acting` player if one of the units is theirs, otherwise
    the owner of the first unit that has one. -/
def movingPlayer (acting : PlayerId) (units : List BoardUnit) : PlayerId :=
  if units.any fun unit => unit.owner = acting then acting
  else ((units.map BoardUnit.owner).find? fun owner => owner ≠ .nobody).getD .nobody

namespace Board

/-- Whether the unit `id` has anti-air that can shoot at one of the `moving` units flying over. -/
def canFireAt (board : Board) (moving : List BoardUnit) (player : PlayerId) (id : UnitId) : Bool :=
  match board.unitWithType id with
  | .error _ => false
  | .ok (unit, type) =>
      match type.aa with
      | none => false
      | some aa =>
          aa.firesOnFlyOver && aa.maxAttacks ≠ 0 && unit.transportedBy.isNone &&
            board.atWar unit.owner player &&
            moving.any fun m =>
              aa.canTarget m.typeName ||
                (m.airborne && (board.exposedTypes player aa.kind).contains m.typeName)

/-- Whether anything in the `territory` can fire at the `moving` units flying over. -/
def firesAt (board : Board) (moving : List BoardUnit) (player : PlayerId) (territory : String) :
    Except Fault Bool := do
  let territory ← board.territory territory
  return territory.units.any (board.canFireAt moving player)

/-- The units with these `ids`, in order, all of which have to be known to the `board`. -/
def findUnits (board : Board) (ids : List UnitId) : Except Fault (List BoardUnit) :=
  ids.mapM board.unit

/-- The territories of a list that fire at the `moving` units, in order; an unknown one is a
    fault. -/
def firingAmong (board : Board) (moving : List BoardUnit) (player : PlayerId) :
    List String → Except Fault (List String)
  | [] => .ok []
  | territory :: rest => do
      let fires ← board.firesAt moving player territory
      let others ← firingAmong board moving player rest
      return if fires then territory :: others else others

/-- Whether the rules and the phase of move on the `board` let anti-air fire at all. -/
def flyOverFires (board : Board) : Bool :=
  board.rules.alwaysOn || (!board.rules.territoryRestricted && board.phase = .combat)

/-- The territories along the `route` where anti-air fires at the `units`. -/
def firingTerritories (board : Board) (acting : PlayerId) (route : Route) (units : List UnitId) :
    Except Fault (List String) :=
  if board.flyOverFires then do
    let moving ← board.findUnits units
    let player := movingPlayer acting moving
    let middle ← board.firingAmong moving player route.middle
    if board.rules.forceLastStep then
      return middle ++ (← board.firingAmong moving player [route.finish])
    else
      -- The start fires too, so that nobody hops between anti-air sites a step at a time.
      let start ← board.firingAmong moving player [route.start]
      return middle ++ start.filter fun territory => !board.wasBattleFoughtIn territory
  else return []

end Board

end Flak
