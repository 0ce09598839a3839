import Flak.Identity

namespace Flak

/-!
# Firing groups

A `FiringGroup` is the units in a territory that fire together at one list of targets.
-/

/-- What becomes of the units that a group kills: the host removes them later, or they go at
    once. -/
inductive Removal where
  /-- They stay on the board until the host finishes the move. -/
  | returnToHost
  /-- They leave the board as soon as the group is confirmed. -/
  | removeFromBoard
  deriving DecidableEq

/-- Units with one `kind` of anti-air that fire together at some `targets`. -/
structure FiringGroup where
  territory : String
  kind : String
  firingPlayer : PlayerId
  hitPlayer : PlayerId
  firingUnits : List UnitId
  /-- What the group can hit, in casualty order. -/
  targets : List UnitId
  suicideOnHit : Bool
  removal : Removal
  deriving DecidableEq

end Flak
