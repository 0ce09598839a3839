import Flak.Json.Quoted

namespace Flak.Json

/-!
# Writing JSON text

* `Json.compact` — on one line, without blanks.
* `Json.pretty` — one item or member a line, two blanks deeper at each level; an empty array or
  object stays on its line.
-/

/-- Joins texts with the `separator` between neighbours. -/
def joinWith (separator : List Char) : List (List Char) → List Char
  | [] => []
  | [text] => text
  | text :: rest => text ++ separator ++ joinWith separator rest

/-- The text of a `Json` document without items or members. -/
def renderLeaf : Json → List Char
  | .null => ['n', 'u', 'l', 'l']
  | .bool true => ['t', 'r', 'u', 'e']
  | .bool false => ['f', 'a', 'l', 's', 'e']
  | .int n => (toString n).toList
  | .decimal literal => literal.toList
  | .str s => quote s
  | _ => []

mutual

/-- The text of a `Json` document without blanks. -/
def render : Json → List Char
  | .arr items => '[' :: joinWith [','] (renderItems items) ++ [']']
  | .obj members => '\x7b' :: joinWith [','] (renderMembers members) ++ ['\x7d']
  | leaf => renderLeaf leaf

/-- The texts of the items of an array, each by `render`. -/
def renderItems : List Json → List (List Char)
  | [] => []
  | item :: rest => render item :: renderItems rest

/-- The texts of the members of an object, each by `renderMember`. -/
def renderMembers : List (String × Json) → List (List Char)
  | [] => []
  | member :: rest => renderMember member :: renderMembers rest

/-- A member as it stands in an object: its key as a `quote`, a colon, and its value. -/
def renderMember : String × Json → List Char
  | (key, value) => quote key ++ ':' :: render value

end

/-- The `document` on one line, without blanks. -/
def compact (document : Json) : String := String.ofList (render document)

/-- A line break and the blanks that open a line at this `depth`. -/
def newLine (depth : Nat) : List Char := '\n' :: List.replicate (2 * depth) ' '

/-- Brackets around indented `texts`. -/
def block (opening closing : Char) (depth : Nat) (texts : List (List Char)) : List Char :=
  if texts.isEmpty then [opening, closing]
  else opening :: newLine (depth + 1) ++ joinWith (',' :: newLine (depth + 1)) texts
    ++ newLine depth ++ [closing]

mutual

/-- The text of a `Json` document with one item or member a line. -/
def layout (depth : Nat) : Json → List Char
  | .arr items => block '[' ']' depth (layoutItems (depth + 1) items)
  | .obj members => block '\x7b' '\x7d' depth (layoutMembers (depth + 1) members)
  | leaf => renderLeaf leaf

/-- The texts of the items of an array, each by `layout` at this `depth`. -/
def layoutItems (depth : Nat) : List Json → List (List Char)
  | [] => []
  | item :: rest => layout depth item :: layoutItems depth rest

/-- The texts of the members of an object, each by `layoutMember` at this `depth`. -/
def layoutMembers (depth : Nat) : List (String × Json) → List (List Char)
  | [] => []
  | member :: rest => layoutMember depth member :: layoutMembers depth rest

/-- A member as it stands on its own line at this `depth`: a blank comes after the colon. -/
def layoutMember (depth : Nat) : String × Json → List Char
  | (key, value) => quote key ++ ':' :: ' ' :: layout depth value

end

/-- The `document` with one item or member a line. -/
def pretty (document : Json) : String := String.ofList (layout 0 document)

end Flak.Json
