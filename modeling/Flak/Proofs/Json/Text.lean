import Flak.Json.Printer
import Flak.Json.Reader
import Flak.Proofs.Json.Number
import Flak.Proofs.Json.Quoted

namespace Flak.Json

/-!
# Documents are read back

* `Printable` — documents without anything that is kept as it was written.
* `reads_render` — the text of such a document, in front of more, is read back.
* `parse?_compact` — so is a text that holds nothing else.
-/

/-- A document without literals and garbled parts, such as `render` writes so that it can be
    read. -/
inductive Printable : Json → Prop where
  | null : Printable .null
  | bool (b : Bool) : Printable (.bool b)
  | int (n : Int) : Printable (.int n)
  | str (s : String) : Printable (.str s)
  | arr {items : List Json} (h : ∀ item ∈ items, Printable item) : Printable (.arr items)
  | obj {members : List (String × Json)} (h : ∀ member ∈ members, Printable member.2) :
      Printable (.obj members)

/-! ### How a document starts -/

/-- A character with which a document can start. -/
def opens (c : Char) : Bool := !isBlank c && c != ']' && c != '\x7d'

/-- Before a character that `opens` a document there are no blanks to skip. -/
theorem skipBlanks_of_opens {c : Char} {rest : List Char} (h : opens c = true) :
    skipBlanks (c :: rest) = c :: rest := by
  have hblank : isBlank c = false := by
    simp only [opens, Bool.and_eq_true, Bool.not_eq_true'] at h
    exact h.1.1
  exact List.dropWhile_cons_of_neg (by simp [hblank])

/-- An integer that `toString` has written starts with a sign or a digit. -/
theorem toString_eq_cons (n : Int) :
    ∃ c cs, (toString n).toList = c :: cs ∧ (c = '-' ∨ isDigit c = true) := by
  rw [Int.toString_eq_repr, Int.repr_eq_if]
  by_cases hn : 0 ≤ n
  · rw [if_pos hn, Nat.toList_repr]
    cases hdigits : Nat.toDigits 10 n.toNat with
    | nil => exact absurd hdigits Nat.toDigits_ne_nil
    | cons c cs =>
      exact ⟨c, cs, rfl, .inr (isDigit_of_mem_toDigits (n := n.toNat) (by simp [hdigits]))⟩
  · rw [if_neg hn, String.toList_append, Nat.toList_repr]
    exact ⟨'-', _, rfl, .inl rfl⟩

/-- A digit `opens` a document. -/
theorem opens_of_isDigit {c : Char} (h : isDigit c = true) : opens c = true := by
  cases hopens : opens c with
  | true => rfl
  | false =>
    have hother : (((c = ' ' ∨ c = '\t') ∨ c = '\n') ∨ c = '\r') ∨ c = ']' ∨ c = '\x7d' := by
      simp only [opens, isBlank] at hopens
      grind
    rcases hother with (((rfl | rfl) | rfl) | rfl) | rfl | rfl <;> exact absurd h (by decide)

/-- What `render` writes starts with a character that `opens` a document. -/
theorem render_eq_cons {document : Json} (h : Printable document) :
    ∃ c cs, render document = c :: cs ∧ opens c = true := by
  cases h with
  | null => exact ⟨'n', _, rfl, by decide⟩
  | bool b =>
    cases b with
    | false => exact ⟨'f', _, rfl, by decide⟩
    | true => exact ⟨'t', _, rfl, by decide⟩
  | int n =>
    obtain ⟨c, cs, hcons, hc⟩ := toString_eq_cons n
    refine ⟨c, cs, hcons, ?_⟩
    rcases hc with rfl | hdigit
    · decide
    · exact opens_of_isDigit hdigit
  | str s => exact ⟨'"', _, rfl, by decide⟩
  | arr h => exact ⟨'[', _, rfl, by decide⟩
  | obj h => exact ⟨'\x7b', _, rfl, by decide⟩

/-! ### Leaves -/

/-- A character with which a number starts, by `isDigit` or as its sign, starts nothing else. -/
theorem number_ne {c : Char} (h : c = '-' ∨ isDigit c = true) :
    c ≠ 'n' ∧ c ≠ 't' ∧ c ≠ 'f' ∧ c ≠ '"' ∧ c ≠ '[' ∧ c ≠ '\x7b' := by
  refine ⟨?_, ?_, ?_, ?_, ?_, ?_⟩ <;> (rintro rfl; revert h; decide)

/-- A document that is an integer is read back, where it `Ends`. -/
theorem document?_int (n : Int) (fuel : Nat) {rest : List Char} (h : Ends rest) :
    document? (fuel + 1) ((toString n).toList ++ rest) = some (.int n, rest) := by
  have hread := number?_toString n h
  obtain ⟨c, cs, hcons, hc⟩ := toString_eq_cons n
  obtain ⟨hn, ht, hf, hquote, harr, hobj⟩ := number_ne hc
  have hopens : opens c = true := by
    rcases hc with rfl | hdigit
    · decide
    · exact opens_of_isDigit hdigit
  rw [hcons, List.cons_append] at hread ⊢
  rw [document?, skipBlanks_of_opens hopens]
  -- The reader looks for every other kind of document first.
  split
  · rename_i heq
    exact absurd (List.cons.inj heq).1 hn
  · rename_i heq
    exact absurd (List.cons.inj heq).1 ht
  · rename_i heq
    exact absurd (List.cons.inj heq).1 hf
  · rename_i heq
    exact absurd (List.cons.inj heq).1 hquote
  · rename_i heq
    exact absurd (List.cons.inj heq).1 harr
  · rename_i heq
    exact absurd (List.cons.inj heq).1 hobj
  · exact hread

/-- A key that `quote` has written is read back. -/
theorem key?_quote (s : String) (rest : List Char) :
    key? (quote s ++ rest) = some (some s, rest) := by
  have hinside := pieces?_quoted s.toList rest
  have hshape : quote s ++ rest = '"' :: (s.toList.flatMap escape ++ '"' :: rest) := by
    simp [quote]
  rw [hshape, key?, hinside]
  simp [assemble?_chars]

/-- A document that is a string is read back from what `quote` has written. -/
theorem document?_str (s : String) (fuel : Nat) (rest : List Char) :
    document? (fuel + 1) (quote s ++ rest) = some (.str s, rest) := by
  have hkey := key?_quote s rest
  have hshape : quote s ++ rest = '"' :: (s.toList.flatMap escape ++ '"' :: rest) := by
    simp [quote]
  rw [hshape] at hkey ⊢
  rw [document?, skipBlanks_of_opens (by decide)]
  simp [hkey]

/-! ### Documents -/

/-- The text of `items`, or of members, as it stands between brackets. -/
def itemsText (items : List Json) : List Char := joinWith [','] (renderItems items)

/-- The text of `members`, as it stands between brackets. -/
def membersText (members : List (String × Json)) : List Char :=
  joinWith [','] (renderMembers members)

/-- The `itemsText` of more than one item has a comma after the first. -/
theorem itemsText_cons_cons (item next : Json) (items : List Json) :
    itemsText (item :: next :: items) = render item ++ ',' :: itemsText (next :: items) := by
  simp [itemsText, renderItems, joinWith]

/-- The `membersText` of more than one member has a comma after the first. -/
theorem membersText_cons_cons (member next : String × Json) (members : List (String × Json)) :
    membersText (member :: next :: members) =
      renderMember member ++ ',' :: membersText (next :: members) := by
  simp [membersText, renderMembers, joinWith]

/-- The `itemsText` starts with a character that `opens` a document. -/
theorem itemsText_eq_cons {item : Json} (h : Printable item) (items : List Json) :
    ∃ c cs, itemsText (item :: items) = c :: cs ∧ opens c = true := by
  obtain ⟨c, cs, hcons, hc⟩ := render_eq_cons h
  cases items with
  | nil => exact ⟨c, cs, hcons, hc⟩
  | cons next items => exact ⟨c, _, by rw [itemsText_cons_cons, hcons]; rfl, hc⟩

/-- The `membersText` starts with a quotation mark. -/
theorem membersText_eq_cons (member : String × Json) (members : List (String × Json)) :
    ∃ cs, membersText (member :: members) = '"' :: cs := by
  obtain ⟨key, value⟩ := member
  cases members with
  | nil => exact ⟨_, rfl⟩
  | cons next members => exact ⟨_, rfl⟩

/-- Before a comma a number `Ends`. -/
theorem Ends.comma (rest : List Char) : Ends (',' :: rest) := by simp [Ends]

/-- Before a bracket a number `Ends`. -/
theorem Ends.bracket (rest : List Char) : Ends (']' :: rest) := by simp [Ends]

/-- Before a brace a number `Ends`. -/
theorem Ends.brace (rest : List Char) : Ends ('\x7d' :: rest) := by simp [Ends]

/-- Whether this `fuel` is enough to read back what is no longer than half of it. -/
def ReadsDocuments (fuel : Nat) : Prop :=
  ∀ document rest, Printable document → Ends rest → 2 * (render document).length ≤ fuel →
    document? fuel (render document ++ rest) = some (document, rest)

/-- Whether this `fuel` is enough to read back items, up to their bracket. -/
def ReadsItems (fuel : Nat) : Prop :=
  ∀ item items rest, (∀ i ∈ item :: items, Printable i) →
    2 * (itemsText (item :: items)).length + 1 ≤ fuel →
      items? fuel (itemsText (item :: items) ++ ']' :: rest) = some (item :: items, rest)

/-- Whether this `fuel` is enough to read back members, up to their brace. -/
def ReadsMembers (fuel : Nat) : Prop :=
  ∀ member members rest, (∀ m ∈ member :: members, Printable m.2) →
    2 * (membersText (member :: members)).length + 1 ≤ fuel →
      members? fuel (membersText (member :: members) ++ '\x7d' :: rest) =
        some (.obj (member :: members), rest)

/-- More fuel reads more items: `ReadsItems` goes one further where documents are read. -/
theorem readsItems_succ {fuel : Nat} (hdocuments : ReadsDocuments fuel) (hitems : ReadsItems fuel) :
    ReadsItems (fuel + 1) := by
  intro item items rest hprintable hfuel
  have hitem : Printable item := hprintable item (by simp)
  -- After an item comes the bracket that ends them, or a comma and more items.
  cases items with
  | nil =>
    have hread := hdocuments item (']' :: rest) hitem (.bracket rest)
      (by simp only [itemsText, renderItems, joinWith] at hfuel; omega)
    show items? (fuel + 1) (render item ++ ']' :: rest) = _
    rw [items?, hread]
    rfl
  | cons next items =>
    rw [itemsText_cons_cons] at hfuel ⊢
    simp only [List.length_append, List.length_cons] at hfuel
    have hread := hdocuments item (',' :: (itemsText (next :: items) ++ ']' :: rest)) hitem
      (.comma _) (by omega)
    have hrest := hitems next items rest (fun i hi => hprintable i (by simp [hi])) (by omega)
    rw [List.append_assoc, List.cons_append, items?, hread]
    simp [skipBlanks_of_opens, opens, isBlank, hrest]

/-- What `renderMember` has written is read as its key, a colon and its value. -/
theorem members?_renderMember (key : String) (value : Json) (fuel : Nat) (rest : List Char)
    (hread : document? fuel (render value ++ rest) = some (value, rest)) :
    members? (fuel + 1) (renderMember (key, value) ++ rest) =
      match skipBlanks rest with
      | ',' :: rest =>
          (members? fuel rest).map fun (members, rest) => (consMember key value members, rest)
      | '\x7d' :: rest => some (.obj [(key, value)], rest)
      | _ => none := by
  have hshape : renderMember (key, value) ++ rest = quote key ++ ':' :: (render value ++ rest) := by
    simp [renderMember]
  have hblanks : skipBlanks (quote key ++ ':' :: (render value ++ rest)) =
      quote key ++ ':' :: (render value ++ rest) := rfl
  have hcolon : skipBlanks (':' :: (render value ++ rest)) = ':' :: (render value ++ rest) := rfl
  rw [hshape, members?, hblanks, key?_quote]
  simp only [Option.bind_eq_bind, Option.bind_some, hcolon, hread, consMember]
  generalize skipBlanks rest = after
  split
  · rename_i tail
    show _ = (members? fuel tail).map _
    cases members? fuel tail <;> rfl
  · rfl
  · simp

/-- More fuel reads more members: `ReadsMembers` goes one further where documents are read. -/
theorem readsMembers_succ {fuel : Nat} (hdocuments : ReadsDocuments fuel)
    (hmembers : ReadsMembers fuel) : ReadsMembers (fuel + 1) := by
  intro member members rest hprintable hfuel
  obtain ⟨key, value⟩ := member
  have hvalue : Printable value := hprintable (key, value) (by simp)
  have hlength : (render value).length ≤ (renderMember (key, value)).length := by
    simp only [renderMember, List.length_append, List.length_cons]
    omega
  -- After a member comes the brace that ends them, or a comma and more members.
  cases members with
  | nil =>
    have htext : membersText [(key, value)] = renderMember (key, value) := rfl
    rw [htext] at hfuel ⊢
    rw [members?_renderMember]
    · rfl
    · exact hdocuments value _ hvalue (.brace rest) (by omega)
  | cons next members =>
    rw [membersText_cons_cons] at hfuel ⊢
    simp only [List.length_append, List.length_cons] at hfuel
    have hrest := hmembers next members rest (fun m hm => hprintable m (by simp [hm])) (by omega)
    rw [List.append_assoc, List.cons_append, members?_renderMember]
    · show (members? fuel (membersText (next :: members) ++ '\x7d' :: rest)).map _ = _
      rw [hrest]
      rfl
    · exact hdocuments value _ hvalue (.comma _) (by omega)

/-- More fuel reads deeper documents: `ReadsDocuments` goes one further where items and members are
    read. -/
theorem readsDocuments_succ {fuel : Nat} (hitems : ReadsItems fuel) (hmembers : ReadsMembers fuel) :
    ReadsDocuments (fuel + 1) := by
  intro document rest hprintable hrest hfuel
  cases hprintable with
  | null => rfl
  | bool b => cases b <;> rfl
  | int n => exact document?_int n fuel hrest
  | str s => exact document?_str s fuel rest
  | @arr items h =>
    cases items with
    | nil => rfl
    | cons item items =>
      obtain ⟨c, cs, hcons, hc⟩ := itemsText_eq_cons (h item (by simp)) items
      have hshape : render (.arr (item :: items)) =
          '[' :: (itemsText (item :: items) ++ [']']) := rfl
      have hread := hitems item items rest h (by
        rw [hshape] at hfuel
        simp only [List.length_cons, List.length_append, List.length_nil] at hfuel
        omega)
      -- A list that has items does not start with its closing bracket.
      have hbracket : c ≠ ']' := by
        rintro rfl
        exact absurd hc (by decide)
      rw [hcons] at hread
      rw [hshape, hcons, List.cons_append, List.append_assoc, List.cons_append, List.cons_append,
        List.nil_append, document?, skipBlanks_of_opens (by decide)]
      rw [List.cons_append] at hread
      simp only [skipBlanks_of_opens hc]
      split
      · rename_i heq
        exact absurd (List.cons.inj heq).1 hbracket
      · rw [hread]
        rfl
  | @obj members h =>
    cases members with
    | nil => rfl
    | cons member members =>
      obtain ⟨cs, hcons⟩ := membersText_eq_cons member members
      have hshape : render (.obj (member :: members)) =
          '\x7b' :: (membersText (member :: members) ++ ['\x7d']) := rfl
      have hread := hmembers member members rest h (by
        rw [hshape] at hfuel
        simp only [List.length_cons, List.length_append, List.length_nil] at hfuel
        omega)
      rw [hcons] at hread
      rw [hshape, hcons, List.cons_append, List.append_assoc, List.cons_append, List.cons_append,
        List.nil_append, document?, skipBlanks_of_opens (by decide)]
      exact hread

/-- With enough `fuel` everything printable is read back. -/
theorem reads_render (fuel : Nat) : ReadsDocuments fuel ∧ ReadsItems fuel ∧ ReadsMembers fuel := by
  -- All three at once, since documents hold items and members, and these hold documents.
  induction fuel with
  | zero =>
    refine ⟨fun document rest hprintable _ hfuel => ?_, fun _ _ _ _ hfuel => ?_,
      fun _ _ _ _ hfuel => ?_⟩
    · obtain ⟨c, cs, hcons, -⟩ := render_eq_cons hprintable
      rw [hcons, List.length_cons] at hfuel
      omega
    · omega
    · omega
  | succ fuel ih =>
    obtain ⟨hdocuments, hitems, hmembers⟩ := ih
    exact ⟨readsDocuments_succ hitems hmembers, readsItems_succ hdocuments hitems,
      readsMembers_succ hdocuments hmembers⟩

/-- A `Printable` document can be written by `compact` and read. -/
theorem parse?_compact {document : Json} (h : Printable document) :
    parse? (compact document) = some document := by
  have htext : (compact document).toList = render document := String.toList_ofList
  have hends : Ends [] := by simp [Ends]
  have hread := (reads_render (2 * (render document).length + 2)).1 document [] h hends (by omega)
  rw [List.append_nil] at hread
  rw [parse?, htext, hread]
  rfl

end Flak.Json
