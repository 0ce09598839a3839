import Flak.Board.Basic
import Flak.Firing.Group

namespace Flak

/-!
# Mustering the groups that fire

* `Board.kindsInFiringOrder` — the kinds of anti-air among units, the last declared first.
* `Board.suicideParts` — units of one kind, those that are spent on a hit apart by type.
* `Board.eligible` — the candidates that an ability can hit.
* `Board.defender` — the player to whom a firing in a territory is put down.
* `Board.muster` — the groups of a `Muster`, in firing order.
-/

namespace Board

/-- The kinds of anti-air among the `units`, the most recently declared first. -/
def kindsInFiringOrder (board : Board) (units : List UnitId) : List String :=
  let kinds := (units.filterMap fun unit => (board.ability? unit).map AntiAir.kind).eraseDups
  (kinds.mergeSort fun a b => board.declarationRank a ≤ board.declarationRank b).reverse

/-- Those of the `units` whose type has this `name`. -/
def ofType (board : Board) (name : String) (units : List UnitId) : List UnitId :=
  units.filter fun unit => (board.unit? unit).any fun u => u.typeName = name

/-- Whether the `unit` has anti-air that is spent on a hit. -/
def isSuicidal (board : Board) (unit : UnitId) : Bool :=
  (board.ability? unit).any AntiAir.suicideOnHit

/-- The `units` in parts that are not empty: one for each type whose anti-air is spent on a hit, in
    the order of declaration, then one for the rest. -/
def suicideParts (board : Board) (units : List UnitId) : List (List UnitId) :=
  let suicidal := board.unitTypes.filter fun type => type.aa.any AntiAir.suicideOnHit
  let rest := units.filter fun unit => !board.isSuicidal unit
  (suicidal.map (fun type => board.ofType type.name units) ++ [rest]).filter fun part =>
    !part.isEmpty

/-- Whether the ability `aa` can hit the unit `id`: it is not infrastructure, and its type is a
    target, or it is airborne and its type `exposed`. -/
def canHit (board : Board) (aa : AntiAir) (exposed : List String) (id : UnitId) : Bool :=
  match board.unitWithType id with
  | .error _ => false
  | .ok (unit, type) =>
      !type.isInfrastructure &&
        (aa.canTarget unit.typeName || (unit.airborne && exposed.contains unit.typeName))

/-- The `candidates` that the ability `aa` can hit, in their order. -/
def eligible (board : Board) (aa : AntiAir) (exposed : List String) (candidates : List UnitId) :
    List UnitId :=
  candidates.filter (board.canHit aa exposed)

/-- The owner of the firing `units`: that of the `territory` if it owns one of them, otherwise that
    of the first unit that is known. -/
def defender (board : Board) (territory : String) (units : List UnitId) : PlayerId :=
  let owners := units.filterMap fun unit => (board.unit? unit).map BoardUnit.owner
  let first := owners.head?.getD .nobody
  match board.territory? territory with
  | some territory =>
      if territory.owner ≠ .nobody ∧ territory.owner ∈ owners then territory.owner else first
  | none => first

end Board

/-- All that is needed to form the groups that fire in a `territory`. -/
structure Muster where
  territory : String
  aaUnits : List UnitId
  candidates : List UnitId
  hitPlayer : PlayerId
  /-- The player who fires, if it is not to be found out for each group. -/
  firingPlayer : Option PlayerId
  /-- Whether units can be hit because they are airborne. -/
  airborneAllowed : Bool
  removal : Removal

namespace Board

/-- The group of the `members`, units of the `kind`, if the first of them has an ability. -/
def groupOf? (board : Board) (muster : Muster) (kind : String) (members : List UnitId) :
    Option FiringGroup := do
  let first ← members.head?
  let aa ← board.ability? first
  let exposed :=
    if muster.airborneAllowed then board.exposedTypes muster.hitPlayer kind else []
  return {
    territory := muster.territory
    kind
    firingPlayer := muster.firingPlayer.getD (board.defender muster.territory members)
    hitPlayer := muster.hitPlayer
    firingUnits := members
    targets := board.eligible aa exposed muster.candidates
    suicideOnHit := aa.suicideOnHit
    removal := muster.removal }

/-- The `units` whose anti-air is of this `kind`. -/
def ofKind (board : Board) (kind : String) (units : List UnitId) : List UnitId :=
  units.filter fun unit => (board.ability? unit).any fun aa => aa.kind = kind

/-- The groups of a `Muster`, in firing order. A group that can hit no candidate is formed too. -/
def muster (board : Board) (muster : Muster) : List FiringGroup :=
  (board.kindsInFiringOrder muster.aaUnits).flatMap fun kind =>
    (board.suicideParts (board.ofKind kind muster.aaUnits)).filterMap
      (board.groupOf? muster kind)

end Board

end Flak
