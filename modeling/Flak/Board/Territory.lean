import Flak.Identity

namespace Flak

/-!
# Territories and routes

* `Territory` — a place on the board and the units in it.
* `Route` — a path of territory names that is never empty; `Route.middle` is what lies strictly
  between its start and its end.
-/

/-- A territory, its `owner` and the `units` in it. -/
structure Territory where
  name : String
  owner : PlayerId
  units : List UnitId
  deriving DecidableEq

/-- A path of territories, the start first: its `steps`, of which there is at least one. -/
structure Route where
  steps : List String
  steps_ne_nil : steps ≠ []
  deriving DecidableEq

namespace Route

/-- The route along these `steps`, if there are any. -/
def ofList? (steps : List String) : Option Route :=
  if h : steps ≠ [] then some ⟨steps, h⟩ else none

/-- The territory where the `route` starts. -/
def start (route : Route) : String := route.steps.head route.steps_ne_nil

/-- The territory where the `route` ends, its start if it goes nowhere. -/
def finish (route : Route) : String := route.steps.getLast route.steps_ne_nil

/-- The territories of the `route` strictly between `start` and `finish`. -/
def middle (route : Route) : List String := route.steps.tail.dropLast

/-- A `route` is made again from its own steps. -/
theorem ofList?_steps (route : Route) : ofList? route.steps = some route := by
  simp [ofList?, route.steps_ne_nil]

end Route

end Flak
