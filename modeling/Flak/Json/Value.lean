namespace Flak

/-!
# JSON values

* `Json` — a document as its reader sees it: members of an object keep their order and repeats.
* `Json.garbled` — a well-formed string or object with an escape that names half a character;
  nothing can be read from it, but a reader that skips it does not mind.
-/

/-- A JSON document. A well-formed text or object with half a character in it is `garbled`. -/
inductive Json where
  | null
  | bool (value : Bool)
  | int (value : Int)
  /-- A number written with a fraction or an exponent, or minus zero, kept as its literal. -/
  | decimal (literal : String)
  | str (value : String)
  /-- A string with an unpaired surrogate escape, or an object with such a key. -/
  | garbled
  | arr (items : List Json)
  | obj (members : List (String × Json))
  deriving Inhabited

namespace Json

/-- The natural number `n` as a document. -/
def nat (n : Nat) : Json := .int n

/-- The value of the first member called `key`. -/
def member? (key : String) : List (String × Json) → Option Json
  | [] => none
  | (name, value) :: rest => if name = key then some value else member? key rest

/-- How many `members` are called `key`. -/
def occurrences (key : String) (members : List (String × Json)) : Nat :=
  members.countP fun member => member.1 = key

end Json

end Flak
