import Flak.Json.Value

namespace Flak

/-!
# Schemas: how values are kept as JSON

A `Schema α` is a description, as data, of how an `α` is written and read. Both directions are
functions of the one description, so that what is saved can be read again.

* `Schema.write` — the document of a value, with every field written out.
* `Schema.read?` — the value of a document. Unknown fields are skipped, a known field may stand
  only once, a record may also be an array of its fields in order, and a bare case of a choice may
  also be an object that maps its name to null.
* `Absence` — what a missing field means.
-/

/-- What a record without some field stands for: nothing, or a `value` of its own. -/
inductive Absence (α : Type) where
  /-- The field has to be there. -/
  | refused
  /-- The field has this value when an object leaves it out; an array may not end before it. -/
  | named (value : α)
  /-- The field has this value when an object leaves it out or an array ends before it. -/
  | default (value : α)

namespace Absence

variable {α : Type}

/-- The value of a field that an object leaves out, by its `Absence`. -/
def inObject : Absence α → Option α
  | .refused => none
  | .named value => some value
  | .default value => some value

/-- The value of a field that an array ends before, by its `Absence`. -/
def inArray : Absence α → Option α
  | .default value => some value
  | _ => none

end Absence

mutual

/-- How values of a type are kept as `Json`. -/
inductive Schema : Type → Type 1 where
  | bool : Schema Bool
  /-- A natural number below a bound. -/
  | nat (bound : Nat) : Schema Nat
  /-- An integer between two bounds, both included. -/
  | int (low high : Int) : Schema Int
  | text : Schema String
  | list {α : Type} (item : Schema α) : Schema (List α)
  /-- `null` or a value that is not written as `null`. -/
  | nullable {α : Type} (value : Schema α) : Schema (Option α)
  /-- An array of exactly two values. -/
  | pair {α β : Type} (first : Schema α) (second : Schema β) : Schema (α × β)
  /-- An object with any keys. -/
  | dictionary {α : Type} (value : Schema α) : Schema (List (String × α))
  /-- An object with these fields, or an array of their values. -/
  | record {ρ : Type} (fields : Fields ρ) : Schema ρ
  /-- One of these cases by name. -/
  | choice {γ : Type} (cases : Cases γ) : Schema γ
  /-- A value kept as another one from which it can be made again. -/
  | via {α β : Type} (encode : α → β) (decode : β → Option α)
      (decode_encode : ∀ a, decode (encode a) = some a) (inner : Schema β) : Schema α
  /-- A value of which only a part is kept; the rest is made anew. -/
  | snapshot {α β : Type} (encode : α → β) (decode : β → α) (inner : Schema β) : Schema α

/-- The fields of a record, as nested pairs that end in `Unit`. -/
inductive Fields : Type → Type 1 where
  | nil : Fields Unit
  | field {α ρ : Type} (name : String) (schema : Schema α) (absence : Absence α)
      (rest : Fields ρ) : Fields (α × ρ)

/-- The cases of a choice, as nested sums that end in `Empty`. -/
inductive Cases : Type → Type 1 where
  | nil : Cases Empty
  /-- A case without a value, written as its name. -/
  | bare {γ : Type} (name : String) (rest : Cases γ) : Cases (Unit ⊕ γ)
  /-- A case with a value, written as an object that maps its name to the value. -/
  | carrying {α γ : Type} (name : String) (schema : Schema α) (rest : Cases γ) : Cases (α ⊕ γ)

end

mutual

/-- The document of a value in the form of a `Schema`. -/
def Schema.write : {α : Type} → Schema α → α → Json
  | _, .bool, b => .bool b
  | _, .nat _, n => .int n
  | _, .int _ _, n => .int n
  | _, .text, s => .str s
  | _, .list item, values => .arr (values.map item.write)
  | _, .nullable value, v => match v with
    | none => .null
    | some v => value.write v
  | _, .pair first second, (a, b) => .arr [first.write a, second.write b]
  | _, .dictionary value, entries => .obj (entries.map fun entry => (entry.1, value.write entry.2))
  | _, .record fields, r => .obj (fields.write r)
  | _, .choice cases, c => cases.write c
  | _, .via encode _ _ inner, a => inner.write (encode a)
  | _, .snapshot encode _ inner, a => inner.write (encode a)

/-- The members that the `Fields` of a record are written as. -/
def Fields.write : {ρ : Type} → Fields ρ → ρ → List (String × Json)
  | _, .nil, _ => []
  | _, .field name schema _ rest, (value, values) =>
      (name, schema.write value) :: rest.write values

/-- The document of a choice: the name of a `bare` case, or an object with one member. -/
def Cases.write : {γ : Type} → Cases γ → γ → Json
  | _, .bare name _, .inl _ => .str name
  | _, .bare _ rest, .inr c => rest.write c
  | _, .carrying name schema _, .inl value => .obj [(name, schema.write value)]
  | _, .carrying _ _ rest, .inr c => rest.write c

end

mutual

/-- The value of a document in the form of a `Schema`, if it has that form. -/
def Schema.read? : {α : Type} → Schema α → Json → Option α
  | _, .bool, document => match document with
    | .bool b => some b
    | _ => none
  | _, .nat bound, document => match document with
    | .int n => if 0 ≤ n ∧ n < bound then some n.toNat else none
    | _ => none
  | _, .int low high, document => match document with
    | .int n => if low ≤ n ∧ n ≤ high then some n else none
    | _ => none
  | _, .text, document => match document with
    | .str s => some s
    | _ => none
  | _, .list item, document => match document with
    | .arr items => items.mapM item.read?
    | _ => none
  | _, .nullable value, document => match document with
    | .null => some none
    | document => (value.read? document).map some
  | _, .pair first second, document => match document with
    | .arr [a, b] => do
        let a ← first.read? a
        let b ← second.read? b
        return (a, b)
    | _ => none
  | _, .dictionary value, document => match document with
    | .obj members => members.mapM fun member => (value.read? member.2).map (member.1, ·)
    | _ => none
  | _, .record fields, document => match document with
    | .obj members => fields.fromObject? members
    | .arr items => fields.fromArray? items
    | _ => none
  | _, .choice cases, document => match document with
    | .str name => cases.fromName? name
    | .obj [(name, document)] => cases.fromMember? name document
    | _ => none
  | _, .via _ decode _ inner, document => (inner.read? document).bind decode
  | _, .snapshot _ decode inner, document => (inner.read? document).map decode

/-- The record whose `Fields` are the members of an object. -/
def Fields.fromObject? : {ρ : Type} → Fields ρ → List (String × Json) → Option ρ
  | _, .nil, _ => some ()
  | _, .field name schema absence rest, members => do
      let value ←
        if Json.occurrences name members ≤ 1 then
          match Json.member? name members with
          | some document => schema.read? document
          | none => absence.inObject
        else none
      let values ← rest.fromObject? members
      return (value, values)

/-- The record whose `Fields` are the items of an array, in order. -/
def Fields.fromArray? : {ρ : Type} → Fields ρ → List Json → Option ρ
  | _, .nil, items => if items.isEmpty then some () else none
  | _, .field _ schema absence rest, items => do
      let value ← match items with
        | document :: _ => schema.read? document
        | [] => absence.inArray
      let values ← rest.fromArray? items.tail
      return (value, values)

/-- The `bare` case of a name. -/
def Cases.fromName? : {γ : Type} → Cases γ → String → Option γ
  | _, .nil, _ => none
  | _, .bare name rest, given =>
      if given = name then some (.inl ()) else (rest.fromName? given).map .inr
  | _, .carrying name _ rest, given =>
      if given = name then none else (rest.fromName? given).map .inr

/-- The case that an object with one member stands for, `carrying` the member's value. -/
def Cases.fromMember? : {γ : Type} → Cases γ → String → Json → Option γ
  | _, .nil, _, _ => none
  | _, .bare name rest, given, document =>
      if given = name then
        match document with
        | .null => some (.inl ())
        | _ => none
      else (rest.fromMember? given document).map .inr
  | _, .carrying name schema rest, given, document =>
      if given = name then (schema.read? document).map .inl
      else (rest.fromMember? given document).map .inr

end

end Flak
