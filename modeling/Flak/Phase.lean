namespace Flak

/-!
# Phases of a firing group

A group rolls, then its casualties are selected, then confirmed by the player who lost them, then
the group is done. `Phase.rank` puts the phases in that order.
-/

/-- How far a firing group has come, from `pendingRoll` to `done`. -/
inductive Phase where
  | pendingRoll
  | rolled
  | casualtiesSelected
  | confirmed
  | done
  deriving DecidableEq

namespace Phase

/-- The position of a `Phase` on the way from the roll to the end. -/
def rank : Phase → Nat
  | pendingRoll => 0
  | rolled => 1
  | casualtiesSelected => 2
  | confirmed => 3
  | done => 4

/-- A `Phase` as messages name it. -/
def wording : Phase → String
  | pendingRoll => "PendingRoll"
  | rolled => "Rolled"
  | casualtiesSelected => "CasualtiesSelected"
  | confirmed => "Confirmed"
  | done => "Done"

end Phase

end Flak
