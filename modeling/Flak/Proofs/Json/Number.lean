import Flak.Json.Reader

namespace Flak.Json

/-!
# Numbers are read back

* `Ends` — what may follow a document that stands in another one.
* `number?_toString` — a written integer that something of this kind follows is read back.
-/

/-- Whether nothing follows, or a comma or closing bracket: where `rest` is no more of a number. -/
def Ends (rest : List Char) : Prop := ∀ c, rest.head? = some c → c = ',' ∨ c = ']' ∨ c = '\x7d'

/-! ### Digits -/

/-- What `Nat.toDigits` writes are digits. -/
theorem isDigit_of_mem_toDigits {n : Nat} {c : Char} (h : c ∈ Nat.toDigits 10 n) :
    isDigit c = true := by
  have hdigit : c.isDigit = true := Nat.isDigit_of_mem_toDigits (by decide) (by decide) h
  simpa [isDigit, Char.isDigit, Char.le_def] using hdigit

/-- The digits of a number stand for that number: `ofDigits` undoes `Nat.toDigits`. -/
theorem ofDigits_toDigits (n : Nat) : ofDigits (Nat.toDigits 10 n) = n := by
  have hfold : ofDigits (Nat.toDigits 10 n) = Nat.ofDigitChars 10 (Nat.toDigits 10 n) 0 := by
    simp only [ofDigits, Nat.ofDigitChars_eq_foldl, Nat.mul_comm 10]
    rfl
  rw [hfold, Nat.ofDigitChars_ten_toDigits]

/-- Only zero starts with a zero in `Nat.toDigits`. -/
theorem head?_toDigits {n : Nat} (h : n ≠ 0) : (Nat.toDigits 10 n).head? ≠ some '0' := by
  induction n using Nat.strongRecOn with
  | ind n ih =>
    by_cases hsmall : n < 10
    · have hdigit : ∀ d, d < 10 → d ≠ 0 → d.digitChar ≠ '0' := by decide
      rw [Nat.toDigits_of_lt_base hsmall]
      simpa using hdigit n hsmall h
    · -- The first digit of a longer number is that of the number without its last digit.
      have hrest := ih (n / 10) (by omega) (by omega)
      rw [Nat.toDigits_of_base_le (by decide) (by omega)]
      cases hdigits : Nat.toDigits 10 (n / 10) with
      | nil => exact absurd hdigits Nat.toDigits_ne_nil
      | cons c digits => simpa [hdigits] using hrest

/-- All `digits` are taken, up to where no more follow. -/
theorem digits?_append {digits rest : List Char} (hdigits : ∀ c ∈ digits, isDigit c = true)
    (hne : digits ≠ []) (hrest : ∀ c, rest.head? = some c → isDigit c = false) :
    digits? (digits ++ rest) = some (digits, rest) := by
  have htake : rest.takeWhile isDigit = [] := by
    cases rest with
    | nil => rfl
    | cons c tail => exact List.takeWhile_cons_of_neg (by simp [hrest c rfl])
  have hdrop : rest.dropWhile isDigit = rest := by
    cases rest with
    | nil => rfl
    | cons c tail => exact List.dropWhile_cons_of_neg (by simp [hrest c rfl])
  rw [digits?, List.takeWhile_append_of_pos hdigits, List.dropWhile_append_of_pos hdigits, htake,
    hdrop, List.append_nil]
  cases digits with
  | nil => exact absurd rfl hne
  | cons c digits => rfl

/-! ### Integers -/

namespace Ends

variable {rest : List Char}

/-- Where a number `Ends` no digit follows. -/
theorem not_digit (h : Ends rest) : ∀ c, rest.head? = some c → isDigit c = false := by
  intro c hc
  rcases h c hc with rfl | rfl | rfl <;> decide

/-- Where a number `Ends` there is no fraction. -/
theorem fraction? (h : Ends rest) : Json.fraction? rest = some ([], rest) := by
  cases rest with
  | nil => rfl
  | cons c tail => rcases h c rfl with rfl | rfl | rfl <;> rfl

/-- Where a number `Ends` there is no exponent. -/
theorem exponent? (h : Ends rest) : Json.exponent? rest = some ([], rest) := by
  cases rest with
  | nil => rfl
  | cons c tail => rcases h c rfl with rfl | rfl | rfl <;> rfl

end Ends

/-- The whole part of a number is what `Nat.toDigits` has written. -/
theorem wholePart?_toDigits (n : Nat) {rest : List Char} (h : Ends rest) :
    wholePart? (Nat.toDigits 10 n ++ rest) = some (Nat.toDigits 10 n, rest) := by
  by_cases hzero : n = 0
  · subst hzero
    rw [Nat.toDigits_zero]
    rfl
  · have hhead := head?_toDigits hzero
    have hdigits : digits? (Nat.toDigits 10 n ++ rest) = some (Nat.toDigits 10 n, rest) :=
      digits?_append (fun c hc => isDigit_of_mem_toDigits hc) Nat.toDigits_ne_nil h.not_digit
    -- A part that starts with a zero is read as that zero alone.
    unfold wholePart?
    split
    · rename_i tail heq
      cases hn : Nat.toDigits 10 n with
      | nil => exact absurd hn Nat.toDigits_ne_nil
      | cons c digits =>
        rw [hn] at heq hhead
        obtain rfl : c = '0' := (List.cons.inj heq).1
        exact absurd rfl hhead
    · exact hdigits

/-- Digits of a number, with or without a sign that is not lost on zero, are read by `unsigned?`. -/
theorem unsigned?_toDigits (negative : Bool) (n : Nat) (hsign : negative = true → n ≠ 0)
    {rest : List Char} (h : Ends rest) :
    unsigned? negative (Nat.toDigits 10 n ++ rest) =
      some (.int (if negative then -(n : Int) else n), rest) := by
  simpa [unsigned?, wholePart?_toDigits n h, h.fraction?, h.exponent?, ofDigits_toDigits]
    using hsign

/-- A number without a sign starts with a digit, and is read by `unsigned?`. -/
theorem number?_toDigits (n : Nat) (rest : List Char) :
    number? (Nat.toDigits 10 n ++ rest) = unsigned? false (Nat.toDigits 10 n ++ rest) := by
  unfold number?
  split
  · rename_i tail heq
    cases hn : Nat.toDigits 10 n with
    | nil => exact absurd hn Nat.toDigits_ne_nil
    | cons c digits =>
      rw [hn] at heq
      have hdigit : isDigit c = true := isDigit_of_mem_toDigits (n := n) (by simp [hn])
      obtain rfl : c = '-' := (List.cons.inj heq).1
      exact absurd hdigit (by decide)
  · rfl

/-- An integer that `toString` has written is read back. -/
theorem number?_toString (n : Int) {rest : List Char} (h : Ends rest) :
    number? ((toString n).toList ++ rest) = some (.int n, rest) := by
  rw [Int.toString_eq_repr, Int.repr_eq_if]
  by_cases hn : 0 ≤ n
  · rw [if_pos hn, Nat.toList_repr]
    rw [number?_toDigits, unsigned?_toDigits false n.toNat (by simp) h]
    simp
    omega
  · rw [if_neg hn, String.toList_append, Nat.toList_repr]
    have hread := unsigned?_toDigits true (-n).toNat (by omega) h
    show unsigned? true (Nat.toDigits 10 (-n).toNat ++ rest) = _
    rw [hread]
    simp
    omega

end Flak.Json
