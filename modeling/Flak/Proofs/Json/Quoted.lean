import Flak.Json.Quoted

namespace Flak.Json

/-!
# Quoted text is read back

* `pieces?_escape` — the written form of a character stands for that character.
* `pieces?_quoted` — the inside of a quoted text gives its characters, one by one.
* `assemble?_chars` — characters without halves are put together as they are.
-/

/-! ### Hexadecimal digits -/

/-- The value of a digit that `hexDigit` has written is what it was written for. -/
theorem hexValue?_hexDigit : ∀ n, n < 16 → hexValue? (hexDigit n) = some n := by decide

/-- The four digits of a control character are read by `hexWord?`. -/
theorem hexWord?_control {n : Nat} (h : n < 32) :
    hexWord? '0' '0' (hexDigit (n / 16)) (hexDigit (n % 16)) = some n := by
  have hzero : hexValue? '0' = some 0 := by decide
  have hhigh : hexValue? (hexDigit (n / 16)) = some (n / 16) := hexValue?_hexDigit _ (by omega)
  have hlow : hexValue? (hexDigit (n % 16)) = some (n % 16) := hexValue?_hexDigit _ (by omega)
  simp only [hexWord?, hzero, hhigh, hlow, Option.pure_def, Option.bind_eq_bind, Option.bind_some]
  exact congrArg some (by omega)

/-- Codes of control characters are no halves of a pair: `ofCode` makes them characters. -/
theorem ofCode_control {c : Char} (h : c.toNat < 32) : Piece.ofCode c.toNat = .char c := by
  have hno : ¬ (0xD800 ≤ c.toNat ∧ c.toNat ≤ 0xDFFF) := by omega
  rw [Piece.ofCode, if_neg hno, Char.ofNat_toNat]

/-! ### Pieces -/

/-- An escape of one `letter` stands for its character. -/
theorem pieces?_letter {letter c : Char} (hletter : letter ≠ 'u') (h : unescape? letter = some c)
    (rest : List Char) :
    pieces? ('\\' :: letter :: rest) =
      (pieces? rest).map fun (pieces, rest) => (.char c :: pieces, rest) := by
  cases hrest : pieces? rest <;> simp [pieces?, hletter, h, hrest]

/-- What `escape` writes for a character, in front of more, stands for that character. -/
theorem pieces?_escape (c : Char) (rest : List Char) :
    pieces? (escape c ++ rest) =
      (pieces? rest).map fun (pieces, rest) => (.char c :: pieces, rest) := by
  -- Seven characters have a letter of their own; other control characters have their code.
  by_cases hquote : c = '"'
  · subst hquote
    exact pieces?_letter (by decide) rfl rest
  by_cases hslash : c = '\\'
  · subst hslash
    exact pieces?_letter (by decide) rfl rest
  by_cases hback : c = '\x08'
  · subst hback
    exact pieces?_letter (by decide) rfl rest
  by_cases hfeed : c = '\x0c'
  · subst hfeed
    exact pieces?_letter (by decide) rfl rest
  by_cases hline : c = '\n'
  · subst hline
    exact pieces?_letter (by decide) rfl rest
  by_cases hreturn : c = '\r'
  · subst hreturn
    exact pieces?_letter (by decide) rfl rest
  by_cases htab : c = '\t'
  · subst htab
    exact pieces?_letter (by decide) rfl rest
  by_cases hcontrol : c.toNat < 32
  · have hescape : escape c =
        ['\\', 'u', '0', '0', hexDigit (c.toNat / 16), hexDigit (c.toNat % 16)] := by
      simp only [escape, hquote, hslash, hback, hfeed, hline, hreturn, htab, hcontrol, if_true,
        if_false]
    have hword := hexWord?_control hcontrol
    rw [hescape]
    cases hrest : pieces? rest <;> simp [pieces?, hword, ofCode_control hcontrol, hrest]
  · have hescape : escape c = [c] := by
      simp only [escape, hquote, hslash, hback, hfeed, hline, hreturn, htab, hcontrol, if_false]
    rw [hescape]
    cases hrest : pieces? rest <;> simp [pieces?, hslash, hcontrol, hrest]

/-- Characters that were written by `escape`, up to a quotation mark, are read back. -/
theorem pieces?_quoted (cs rest : List Char) :
    pieces? (cs.flatMap escape ++ '"' :: rest) = some (cs.map .char, rest) := by
  induction cs with
  | nil => simp [pieces?]
  | cons c cs ih =>
    rw [List.flatMap_cons, List.append_assoc, pieces?_escape, ih]
    rfl

/-- Pieces that are all characters are put together by `assemble?` as they are. -/
theorem assemble?_chars (cs : List Char) : assemble? (cs.map .char) = some cs := by
  induction cs with
  | nil => rfl
  | cons c cs ih => rw [List.map_cons, assemble?, ih, Option.map_some]

end Flak.Json
