import Flak.Json.Quoted

namespace Flak.Json

/-!
# Reading JSON text

* `Json.parse?` — the document that a text denotes. The grammar is the strict one: blanks are
  space, tab, line feed and carriage return, nothing else may surround the document, numbers have
  no leading zeros, and strings hold no raw control characters.
-/

/-- Whether `c` is one of the four blanks of the grammar. -/
def isBlank (c : Char) : Bool :=
  c = ' ' || c = '\t' || c = '\n' || c = '\r'

/-- The text `cs` from its first character on that is not a blank. -/
def skipBlanks (cs : List Char) : List Char := cs.dropWhile isBlank

/-! ### Numbers -/

/-- Whether `c` is an ASCII digit. -/
def isDigit (c : Char) : Bool := '0' ≤ c && c ≤ '9'

/-- The number that a row of `digits` denotes. -/
def ofDigits (digits : List Char) : Nat :=
  digits.foldl (fun n c => n * 10 + (c.toNat - 48)) 0

/-- The digits in front of `cs`, at least one, and what follows them. -/
def digits? (cs : List Char) : Option (List Char × List Char) :=
  match cs.takeWhile isDigit with
  | [] => none
  | digits => some (digits, cs.dropWhile isDigit)

/-- The digits before a fraction: a lone zero, or `digits?` that do not start with zero. -/
def wholePart? : List Char → Option (List Char × List Char)
  | '0' :: rest => some (['0'], rest)
  | cs => digits? cs

/-- The fraction with its point and what follows it, empty if there is none; its digits are
    `digits?`. -/
def fraction? : List Char → Option (List Char × List Char)
  | '.' :: rest => do
      let (digits, rest) ← digits? rest
      return ('.' :: digits, rest)
  | cs => some ([], cs)

/-- The exponent with its sign and what follows it, empty if there is none; its digits are
    `digits?`. -/
def exponent? : List Char → Option (List Char × List Char)
  | e :: rest =>
      if e = 'e' ∨ e = 'E' then
        match rest with
        | sign :: tail =>
            if sign = '+' ∨ sign = '-' then do
              let (digits, after) ← digits? tail
              return (e :: sign :: digits, after)
            else do
              let (digits, after) ← digits? rest
              return (e :: digits, after)
        | [] => none
      else some ([], e :: rest)
  | [] => some ([], [])

/-- A number without its sign: an `int` if it has neither fraction nor exponent. -/
def unsigned? (negative : Bool) (cs : List Char) : Option (Json × List Char) := do
  let (whole, rest) ← wholePart? cs
  let (fraction, rest) ← fraction? rest
  let (exponent, rest) ← exponent? rest
  let sign := if negative then ['-'] else []
  if fraction.isEmpty && exponent.isEmpty && !(negative && ofDigits whole == 0) then
    return (.int (if negative then -(ofDigits whole : Int) else ofDigits whole), rest)
  else
    return (.decimal (String.ofList (sign ++ whole ++ fraction ++ exponent)), rest)

/-- A number with its sign in front, if it has one, and `unsigned?` after it. -/
def number? : List Char → Option (Json × List Char)
  | '-' :: rest => unsigned? true rest
  | cs => unsigned? false cs

/-! ### Documents -/

/-- The text of a quoted key in front of `cs`, `none` inside if it is garbled. -/
def key? (cs : List Char) : Option (Option String × List Char) :=
  match cs with
  | '"' :: rest => do
      let (pieces, rest) ← pieces? rest
      return ((assemble? pieces).map String.ofList, rest)
  | _ => none

/-- An object with the `key` and its `value` in front; a garbled key spoils the object. -/
def consMember (key : Option String) (value : Json) : Json → Json
  | .obj members =>
      match key with
      | some key => .obj ((key, value) :: members)
      | none => .garbled
  | _ => .garbled

mutual

/-- The document at the front of the text and what follows it, by a `Nat` of fuel. -/
def document? : Nat → List Char → Option (Json × List Char)
  | 0, _ => none
  | fuel + 1, cs =>
      match skipBlanks cs with
      | 'n' :: 'u' :: 'l' :: 'l' :: rest => some (.null, rest)
      | 't' :: 'r' :: 'u' :: 'e' :: rest => some (.bool true, rest)
      | 'f' :: 'a' :: 'l' :: 's' :: 'e' :: rest => some (.bool false, rest)
      | '"' :: rest => do
          let (text, rest) ← key? ('"' :: rest)
          match text with
          | some text => return (.str text, rest)
          | none => return (.garbled, rest)
      | '[' :: rest =>
          match skipBlanks rest with
          | ']' :: rest => some (.arr [], rest)
          | rest => do
              let (items, rest) ← items? fuel rest
              return (.arr items, rest)
      | '\x7b' :: rest =>
          match skipBlanks rest with
          | '\x7d' :: rest => some (.obj [], rest)
          | rest => members? fuel rest
      | rest => number? rest

/-- The items of an array that has some, each a `document?`, up to its closing bracket. -/
def items? : Nat → List Char → Option (List Json × List Char)
  | 0, _ => none
  | fuel + 1, cs => do
      let (item, rest) ← document? fuel cs
      match skipBlanks rest with
      | ',' :: rest =>
          let (items, rest) ← items? fuel rest
          return (item :: items, rest)
      | ']' :: rest => return ([item], rest)
      | _ => none

/-- The members of an object that has some, each a `key?` and a `document?`, up to its closing
    brace. -/
def members? : Nat → List Char → Option (Json × List Char)
  | 0, _ => none
  | fuel + 1, cs => do
      let (key, rest) ← key? (skipBlanks cs)
      match skipBlanks rest with
      | ':' :: rest =>
          let (value, rest) ← document? fuel rest
          match skipBlanks rest with
          | ',' :: rest =>
              let (members, rest) ← members? fuel rest
              return (consMember key value members, rest)
          | '\x7d' :: rest => return (consMember key value (.obj []), rest)
          | _ => none
      | _ => none

end

/-- The document that the whole `text` denotes. Every nested call has read a character since the
    call two levels above it, so twice the length is fuel enough. -/
def parse? (text : String) : Option Json :=
  match document? (2 * text.toList.length + 2) text.toList with
  | some (document, rest) => if (skipBlanks rest).isEmpty then some document else none
  | none => none

end Flak.Json
