import Flak.Board.Basic

namespace Flak

/-!
# A census of units

* `Board.census` — the names of units, each with the number of units that bear it, in the order in
  which the names first come up.
* `Board.censusText` — the census in words: `2 fighter, 1 bomber`.
-/

namespace Board

/-- The name that the unit `id` counts under: its type, or its number if it is not on the
    `board`. -/
def censusName (board : Board) (id : UnitId) : String :=
  match board.unit? id with
  | some unit => unit.typeName
  | none => s!"unit #{id.number}"

/-- One more unit of the `name`. -/
def countOne (name : String) : List (String × Nat) → List (String × Nat)
  | [] => [(name, 1)]
  | (other, count) :: rest =>
      if other = name then (other, count + 1) :: rest else (other, count) :: countOne name rest

/-- Each `censusName` among the `units` and how many bear it. -/
def census (board : Board) (units : List UnitId) : List (String × Nat) :=
  units.foldl (fun counts id => countOne (board.censusName id) counts) []

/-- The `census` of the `units` in words. -/
def censusText (board : Board) (units : List UnitId) : String :=
  ", ".intercalate ((board.census units).map fun (name, count) => s!"{count} {name}")

end Board

end Flak
