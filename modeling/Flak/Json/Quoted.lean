import Flak.Json.Value

namespace Flak.Json

/-!
# Quoted text

* `quote` — the written form of a text: quotes, backslashes and control characters are escaped.
* `pieces?` — reads the inside of a quoted text up to its closing quote.
* `assemble?` — joins the surrogate halves among the pieces; fails on a half without its partner.
-/

/-! ### Hexadecimal digits -/

/-- The digit for a value `n` below sixteen, in lower case. -/
def hexDigit (n : Nat) : Char :=
  if n < 10 then Char.ofNat (48 + n) else Char.ofNat (87 + n)

/-- The value of the hexadecimal digit `c`, of either case. -/
def hexValue? (c : Char) : Option Nat :=
  if '0' ≤ c ∧ c ≤ '9' then some (c.toNat - 48)
  else if 'a' ≤ c ∧ c ≤ 'f' then some (c.toNat - 87)
  else if 'A' ≤ c ∧ c ≤ 'F' then some (c.toNat - 55)
  else none

/-- The value of the four hexadecimal digits `a`, `b`, `c` and `d`. -/
def hexWord? (a b c d : Char) : Option Nat := do
  let a ← hexValue? a
  let b ← hexValue? b
  let c ← hexValue? c
  let d ← hexValue? d
  return ((a * 16 + b) * 16 + c) * 16 + d

/-! ### Writing -/

/-- The character `c` as it stands between quotes. -/
def escape (c : Char) : List Char :=
  if c = '"' then ['\\', '"']
  else if c = '\\' then ['\\', '\\']
  else if c = '\x08' then ['\\', 'b']
  else if c = '\x0c' then ['\\', 'f']
  else if c = '\n' then ['\\', 'n']
  else if c = '\r' then ['\\', 'r']
  else if c = '\t' then ['\\', 't']
  else if c.toNat < 32 then ['\\', 'u', '0', '0', hexDigit (c.toNat / 16), hexDigit (c.toNat % 16)]
  else [c]

/-- The text `s` between quotes, with every character `escape`d. -/
def quote (s : String) : List Char :=
  '"' :: s.toList.flatMap escape ++ ['"']

/-! ### Reading -/

/-- What one element of a quoted text stands for: a `char`, or `half` of a surrogate pair. -/
inductive Piece where
  | char (c : Char)
  /-- One half of a surrogate pair. -/
  | half (code : Nat)

/-- The `Piece` that a four-digit escape with this `code` stands for. -/
def Piece.ofCode (code : Nat) : Piece :=
  if 0xD800 ≤ code ∧ code ≤ 0xDFFF then .half code else .char (Char.ofNat code)

/-- The character that a one-letter escape stands for, `none` if no escape has this letter. -/
def unescape? : Char → Option Char
  | '"' => some '"'
  | '\\' => some '\\'
  | '/' => some '/'
  | 'b' => some '\x08'
  | 'f' => some '\x0c'
  | 'n' => some '\n'
  | 'r' => some '\r'
  | 't' => some '\t'
  | _ => none

/-- Every `Piece` up to the closing quote, and what follows it. Control characters must be
    escaped. -/
def pieces? : List Char → Option (List Piece × List Char)
  | [] => none
  | '"' :: rest => some ([], rest)
  | '\\' :: 'u' :: a :: b :: c :: d :: rest => do
      let code ← hexWord? a b c d
      let (pieces, rest) ← pieces? rest
      return (.ofCode code :: pieces, rest)
  | '\\' :: letter :: rest => do
      let c ← unescape? letter
      let (pieces, rest) ← pieces? rest
      return (.char c :: pieces, rest)
  | c :: rest =>
      if c = '\\' ∨ c.toNat < 32 then none else do
        let (pieces, rest) ← pieces? rest
        return (.char c :: pieces, rest)

/-- The text of the pieces, a high `half` and the low one after it making one character. -/
def assemble? : List Piece → Option (List Char)
  | [] => some []
  | .char c :: rest => (assemble? rest).map (c :: ·)
  | .half high :: .half low :: rest =>
      if high < 0xDC00 ∧ 0xDC00 ≤ low then
        (assemble? rest).map (Char.ofNat (0x10000 + (high - 0xD800) * 0x400 + (low - 0xDC00)) :: ·)
      else none
  | .half _ :: _ => none

end Flak.Json
