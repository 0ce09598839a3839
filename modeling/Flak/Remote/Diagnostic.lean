import Flak.Remote.Letter
import Flak.Text.Unprinted

namespace Flak

/-!
# Parked requests in words

`Parked.diagnostic` names the group and player of every parked request, in the order of the groups
and, within a group, of the players' names.
-/

/-- The number `n` in lower-case hexadecimal digits. -/
def hexText (n : Nat) : String := String.ofList (Nat.toDigits 16 n)

/-- The character `c` in a quoted name. One that would not be seen is written as its number. -/
def diagnosticChar (c : Char) : String :=
  match c with
  | '"' => "\\\""
  | '\\' => "\\\\"
  | '\n' => "\\n"
  | '\r' => "\\r"
  | '\t' => "\\t"
  | '\x00' => "\\0"
  | c =>
      if Text.isUnprinted c then "\\u\x7b" ++ hexText c.toNat ++ "\x7d" else String.singleton c

/-- The `name` between quotes. -/
def diagnosticName (name : String) : String :=
  "\"" ++ String.join (name.toList.map diagnosticChar) ++ "\""

/-- The `player` as diagnostics name it. -/
def PlayerId.diagnostic (player : PlayerId) : String :=
  "PlayerId(" ++ diagnosticName player.name ++ ")"

/-- The groups and players of all `parked` requests. -/
def Parked.diagnostic (parked : Parked) : String :=
  let keys := parked.keys.map fun key =>
    "(" ++ key.group.wording ++ ", " ++ key.player.diagnostic ++ ")"
  "\x7b" ++ ", ".intercalate keys ++ "\x7d"

end Flak
