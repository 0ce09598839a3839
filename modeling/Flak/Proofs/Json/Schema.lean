import Flak.Json.Schema
import Flak.Proofs.Json.Text
import Flak.Runner.Load

namespace Flak

/-!
# What a schema writes it can read

* `Schema.inBounds` — whether every number in a value is within its bounds.
* `Schema.faithful` — schemas whose names differ, which write `null` for nothing only and leave
  nothing out.
* `Schema.read?_write` — such a schema reads what it has written if and only if it is in bounds, and
  then it is the same value.
* `Schema.parse?_write` — the text in between loses nothing.
-/

/-! ### Bounds -/

mutual

/-- Whether every number in a value is within its bounds, as the `Schema` has them. -/
def Schema.inBounds : {α : Type} → Schema α → α → Bool
  | _, .bool, _ => true
  | _, .nat bound, n => n < bound
  | _, .int low high, n => low ≤ n && n ≤ high
  | _, .text, _ => true
  | _, .list item, values => values.all item.inBounds
  | _, .nullable value, v => v.all value.inBounds
  | _, .pair first second, v => first.inBounds v.1 && second.inBounds v.2
  | _, .dictionary value, entries => entries.all fun entry => value.inBounds entry.2
  | _, .record fields, r => fields.inBounds r
  | _, .choice cases, c => cases.inBounds c
  | _, .via encode _ _ inner, a => inner.inBounds (encode a)
  | _, .snapshot encode _ inner, a => inner.inBounds (encode a)

/-- Whether every number in the values of all fields is within its bounds, by `Schema.inBounds`. -/
def Fields.inBounds : {ρ : Type} → Fields ρ → ρ → Bool
  | _, .nil, _ => true
  | _, .field _ schema _ rest, r => schema.inBounds r.1 && rest.inBounds r.2

/-- Whether every number in what a case carries is within its bounds, by `Schema.inBounds`. -/
def Cases.inBounds : {γ : Type} → Cases γ → γ → Bool
  | _, .bare _ _, .inl _ => true
  | _, .bare _ rest, .inr c => rest.inBounds c
  | _, .carrying _ schema _, .inl value => schema.inBounds value
  | _, .carrying _ _ rest, .inr c => rest.inBounds c

end

/-! ### Faithful schemas -/

/-- Whether a schema never writes `null`. -/
def Schema.neverNull : {α : Type} → Schema α → Bool
  | _, .nullable _ => false
  | _, .via _ _ _ inner => inner.neverNull
  | _, .snapshot _ _ inner => inner.neverNull
  | _, _ => true

/-- The names of all `Fields`, in their order. -/
def Fields.names : {ρ : Type} → Fields ρ → List String
  | _, .nil => []
  | _, .field name _ _ rest => name :: rest.names

/-- The names of all `Cases`, in their order. -/
def Cases.names : {γ : Type} → Cases γ → List String
  | _, .nil => []
  | _, .bare name rest => name :: rest.names
  | _, .carrying name _ rest => name :: rest.names

mutual

/-- Whether a schema has different names for different things, writes `null` for nothing only, and
    leaves nothing out. -/
def Schema.faithful : {α : Type} → Schema α → Bool
  | _, .bool => true
  | _, .nat _ => true
  | _, .int _ _ => true
  | _, .text => true
  | _, .list item => item.faithful
  | _, .nullable value => value.faithful && value.neverNull
  | _, .pair first second => first.faithful && second.faithful
  | _, .dictionary value => value.faithful
  | _, .record fields => fields.faithful
  | _, .choice cases => cases.faithful
  | _, .via _ _ _ inner => inner.faithful
  | _, .snapshot _ _ _ => false

/-- Whether fields have different names and each is `Schema.faithful`. -/
def Fields.faithful : {ρ : Type} → Fields ρ → Bool
  | _, .nil => true
  | _, .field name schema _ rest => schema.faithful && rest.faithful && !rest.names.contains name

/-- Whether cases have different names and what each carries is `Schema.faithful`. -/
def Cases.faithful : {γ : Type} → Cases γ → Bool
  | _, .nil => true
  | _, .bare name rest => rest.faithful && !rest.names.contains name
  | _, .carrying name schema rest =>
      schema.faithful && rest.faithful && !rest.names.contains name

end

/-! ### Reading what was written, one construction at a time -/

/-- The `schema` reads what it has written if it is in bounds. -/
def Schema.Reads {α : Type} (schema : Schema α) : Prop :=
  ∀ value, schema.read? (schema.write value) = if schema.inBounds value then some value else none

/-- Some `fields` are read from an object in which their names mean what was written for them. -/
def Fields.Reads {ρ : Type} (fields : Fields ρ) : Prop :=
  ∀ r members,
    (∀ name ∈ fields.names, Json.member? name members = Json.member? name (fields.write r) ∧
      Json.occurrences name members = Json.occurrences name (fields.write r)) →
    fields.fromObject? members = if fields.inBounds r then some r else none

/-- The one of the `cases` that a document stands for. -/
def Cases.read? {γ : Type} (cases : Cases γ) : Json → Option γ
  | .str name => cases.fromName? name
  | .obj [(name, document)] => cases.fromMember? name document
  | _ => none

/-- The `cases` read what they have written if it is in bounds. -/
def Cases.Reads {γ : Type} (cases : Cases γ) : Prop :=
  ∀ c, cases.read? (cases.write c) = if cases.inBounds c then some c else none

namespace Schema.Reads

variable {α β : Type}

/-- A `Schema.bool` reads what it has written. -/
theorem bool : Schema.bool.Reads := fun _ => rfl

/-- A `Schema.text` reads what it has written. -/
theorem text : Schema.text.Reads := fun _ => rfl

/-- A `Schema.nat` reads what it has written within its `bound`. -/
theorem nat (bound : Nat) : (Schema.nat bound).Reads := by
  intro n
  by_cases h : n < bound
  · have hbound : 0 ≤ (n : Int) ∧ (n : Int) < bound := by omega
    simp [Schema.write, Schema.read?, Schema.inBounds, h]
  · simp [Schema.write, Schema.read?, Schema.inBounds, h]

/-- A `Schema.int` reads what it has written within its bounds, `low` and `high`. -/
theorem int (low high : Int) : (Schema.int low high).Reads := by
  intro n
  by_cases h : low ≤ n ∧ n ≤ high
  · simp [Schema.write, Schema.read?, Schema.inBounds, h]
  · simp [Schema.write, Schema.read?, Schema.inBounds, h]

/-- A `Schema.list` reads if its `item` does. -/
theorem list {item : Schema α} (h : item.Reads) : (Schema.list item).Reads := by
  intro values
  show (values.map item.write).mapM item.read? = if values.all item.inBounds then _ else _
  induction values with
  | nil => rfl
  | cons value values ih =>
    rw [List.map_cons, List.mapM_cons, h value, ih, List.all_cons]
    cases item.inBounds value <;> cases values.all item.inBounds <;> rfl

/-- A `Schema.nullable` reads if that of its `value` does, which never is written as `null`. -/
theorem nullable {value : Schema α} (h : value.Reads)
    (hnull : ∀ v, value.write v ≠ .null) : (Schema.nullable value).Reads := by
  intro v
  cases v with
  | none => rfl
  | some v =>
    -- What is written is not taken for nothing.
    have hread : (Schema.nullable value).read? (value.write v) =
        (value.read? (value.write v)).map some := by
      cases hdocument : value.write v with
      | null => exact absurd hdocument (hnull v)
      | _ => rfl
    show (Schema.nullable value).read? (value.write v) = if value.inBounds v then _ else _
    rw [hread, h v]
    cases value.inBounds v <;> rfl

/-- A `Schema.pair` reads if both parts do. -/
theorem pair {first : Schema α} {second : Schema β} (h : first.Reads) (h' : second.Reads) :
    (Schema.pair first second).Reads := by
  intro v
  show (first.read? (first.write v.1)).bind _ =
    if first.inBounds v.1 && second.inBounds v.2 then _ else _
  rw [h v.1]
  cases first.inBounds v.1 with
  | false => rfl
  | true =>
    show (second.read? (second.write v.2)).bind _ = _
    rw [h' v.2]
    cases second.inBounds v.2 <;> rfl

/-- A `Schema.dictionary` reads if that of its values does. -/
theorem dictionary {value : Schema α} (h : value.Reads) : (Schema.dictionary value).Reads := by
  intro entries
  show (entries.map fun entry => (entry.1, value.write entry.2)).mapM
    (fun member => (value.read? member.2).map (member.1, ·)) =
      if entries.all fun entry => value.inBounds entry.2 then _ else _
  induction entries with
  | nil => rfl
  | cons entry entries ih =>
    rw [List.map_cons, List.mapM_cons, h entry.2, ih, List.all_cons]
    cases value.inBounds entry.2 <;> cases entries.all fun entry => value.inBounds entry.2 <;> rfl

/-- A `Schema.record` reads if its `fields` do. -/
theorem record {fields : Fields α} (h : fields.Reads) : (Schema.record fields).Reads :=
  fun r => h r (fields.write r) fun _ _ => ⟨rfl, rfl⟩

/-- A `Schema.choice` reads if its `cases` do. -/
theorem choice {cases : Cases α} (h : cases.Reads) : (Schema.choice cases).Reads := by
  intro c
  have hread (document : Json) : (Schema.choice cases).read? document = cases.read? document := by
    cases document with
    | obj members => rcases members with _ | ⟨⟨name, document⟩, _ | ⟨_, _⟩⟩ <;> rfl
    | _ => rfl
  show (Schema.choice cases).read? (cases.write c) = _
  rw [hread]
  exact h c

/-- What goes `via` another schema is read if that schema reads. -/
theorem via {encode : α → β} {decode : β → Option α} {decode_encode}
    {inner : Schema β} (h : inner.Reads) :
    (Schema.via encode decode decode_encode inner).Reads := by
  intro a
  show (inner.read? (inner.write (encode a))).bind decode =
    if inner.inBounds (encode a) then _ else _
  rw [h (encode a)]
  cases inner.inBounds (encode a) with
  | false => rfl
  | true => exact decode_encode a

end Schema.Reads

/-! ### Fields -/

/-- The names that come up in what `fields` write are theirs. -/
theorem Fields.write_names : {ρ : Type} → (fields : Fields ρ) → (r : ρ) →
    (fields.write r).map Prod.fst = fields.names
  | _, .nil, _ => rfl
  | _, .field _ _ _ rest, (_, values) => by
    rw [Fields.write, Fields.names, List.map_cons, rest.write_names values]

/-- A `field` that stands before others is read first, and does not get in their way. -/
theorem Fields.Reads.field {α ρ : Type} {name : String} {schema : Schema α} {absence : Absence α}
    {rest : Fields ρ} (hschema : schema.Reads) (hrest : rest.Reads)
    (hname : name ∉ rest.names) : (Fields.field name schema absence rest).Reads := by
  intro r members hmembers
  obtain ⟨value, values⟩ := r
  -- The name comes up once, for this field, and the fields after it are read past it.
  have hnone : Json.occurrences name (rest.write values) = 0 := by
    refine List.countP_eq_zero.2 fun member hmember => ?_
    have hmem : member.1 ∈ rest.names := rest.write_names values ▸ List.mem_map_of_mem hmember
    simpa using fun h : member.1 = name => hname (h ▸ hmem)
  obtain ⟨hmember, honce⟩ := hmembers name (by simp [names])
  have hmember' : Json.member? name members = some (schema.write value) := by
    rw [hmember]
    simp [write, Json.member?]
  have honce' : Json.occurrences name members = 1 := by
    rw [honce]
    simpa [write, Json.occurrences] using hnone
  have hothers := hrest values members fun other hother => by
    have hne : name ≠ other := fun h => hname (h ▸ hother)
    obtain ⟨hmember, honce⟩ := hmembers other (by simp [names, hother])
    simpa [write, Json.member?, Json.occurrences, hne] using And.intro hmember honce
  rw [fromObject?, hmember', honce', hothers]
  show (schema.read? (schema.write value)).bind _ = _
  rw [hschema value, inBounds]
  cases schema.inBounds value <;> cases rest.inBounds values <;> rfl

/-! ### Cases -/

/-- What `Cases.write` writes is a name or an object with a name. -/
theorem Cases.write_eq : {γ : Type} → (cases : Cases γ) → (c : γ) →
    ∃ name ∈ cases.names, cases.write c = .str name ∨
      ∃ document, cases.write c = .obj [(name, document)]
  | _, .bare name _, .inl _ => ⟨name, by simp [names], .inl rfl⟩
  | _, .bare _ rest, .inr c => by
    obtain ⟨name, hname, hwrite⟩ := rest.write_eq c
    exact ⟨name, by simp [names, hname], hwrite⟩
  | _, .carrying name _ _, .inl _ => ⟨name, by simp [names], .inr ⟨_, rfl⟩⟩
  | _, .carrying _ _ rest, .inr c => by
    obtain ⟨name, hname, hwrite⟩ := rest.write_eq c
    exact ⟨name, by simp [names, hname], hwrite⟩

/-- Cases read with a `bare` one in front of them, if its name is a new one. -/
theorem Cases.Reads.bare {γ : Type} {name : String} {rest : Cases γ} (hrest : rest.Reads)
    (hname : name ∉ rest.names) : (Cases.bare name rest).Reads := by
  intro c
  rcases c with _ | c
  · simp [write, read?, fromName?, inBounds]
  · obtain ⟨other, hother, hwrite⟩ := rest.write_eq c
    -- A later case has another name, so that its document is passed on.
    have hne : other ≠ name := fun h => hname (h ▸ hother)
    have hlater : (Cases.bare name rest).read? (rest.write c) =
        (rest.read? (rest.write c)).map .inr := by
      rcases hwrite with hwrite | ⟨document, hwrite⟩
      · rw [hwrite, read?, fromName?, if_neg hne]
        rfl
      · rw [hwrite]
        show (if other = name then _ else (rest.fromMember? other document).map Sum.inr) = _
        rw [if_neg hne]
        rfl
    rw [write, hlater, hrest c, inBounds]
    cases rest.inBounds c <;> rfl

/-- Cases read with a `carrying` one in front of them, if its name is a new one. -/
theorem Cases.Reads.carrying {α γ : Type} {name : String} {schema : Schema α} {rest : Cases γ}
    (hschema : schema.Reads) (hrest : rest.Reads) (hname : name ∉ rest.names) :
    (Cases.carrying name schema rest).Reads := by
  intro c
  rcases c with value | c
  · rw [write, read?, fromMember?, if_pos rfl, hschema value, inBounds]
    cases schema.inBounds value <;> rfl
  · obtain ⟨other, hother, hwrite⟩ := rest.write_eq c
    have hne : other ≠ name := fun h => hname (h ▸ hother)
    have hlater : (Cases.carrying name schema rest).read? (rest.write c) =
        (rest.read? (rest.write c)).map .inr := by
      rcases hwrite with hwrite | ⟨document, hwrite⟩
      · rw [hwrite, read?, fromName?, if_neg hne]
        rfl
      · rw [hwrite, read?, fromMember?, if_neg hne]
        rfl
    rw [write, hlater, hrest c, inBounds]
    cases rest.inBounds c <;> rfl

/-! ### Faithful schemas read what they have written -/

/-- What is `neverNull` is not written as `null`. -/
theorem Schema.write_ne_null : {α : Type} → (schema : Schema α) → schema.neverNull = true →
    ∀ value, schema.write value ≠ .null
  | _, .bool, _, _ => nofun
  | _, .nat _, _, _ => nofun
  | _, .int _ _, _, _ => nofun
  | _, .text, _, _ => nofun
  | _, .list _, _, _ => nofun
  | _, .pair _ _, _, (_, _) => nofun
  | _, .dictionary _, _, _ => nofun
  | _, .record _, _, _ => nofun
  | _, .choice cases, _, c => by
    obtain ⟨name, -, hwrite | ⟨document, hwrite⟩⟩ := cases.write_eq c
    · rw [Schema.write, hwrite]
      nofun
    · rw [Schema.write, hwrite]
      nofun
  | _, .via encode _ _ inner, h, a => inner.write_ne_null h (encode a)
  | _, .snapshot encode _ inner, h, a => inner.write_ne_null h (encode a)

mutual

/-- Every schema that is `faithful` reads what it has written. -/
theorem Schema.reads_of_faithful : {α : Type} → (schema : Schema α) → schema.faithful = true →
    schema.Reads
  | _, .bool, _ => .bool
  | _, .nat bound, _ => .nat bound
  | _, .int low high, _ => .int low high
  | _, .text, _ => .text
  | _, .list item, h => .list (item.reads_of_faithful h)
  | _, .nullable value, h => by
    simp only [Schema.faithful, Bool.and_eq_true] at h
    exact .nullable (value.reads_of_faithful h.1) (value.write_ne_null h.2)
  | _, .pair first second, h => by
    simp only [Schema.faithful, Bool.and_eq_true] at h
    exact .pair (first.reads_of_faithful h.1) (second.reads_of_faithful h.2)
  | _, .dictionary value, h => .dictionary (value.reads_of_faithful h)
  | _, .record fields, h => .record (fields.reads_of_faithful h)
  | _, .choice cases, h => .choice (cases.reads_of_faithful h)
  | _, .via _ _ _ inner, h => .via (inner.reads_of_faithful h)

/-- All fields that are `faithful` read what they have written. -/
theorem Fields.reads_of_faithful : {ρ : Type} → (fields : Fields ρ) → fields.faithful = true →
    fields.Reads
  | _, .nil, _ => fun _ _ _ => rfl
  | _, .field name schema absence rest, h => by
    simp only [Fields.faithful, Bool.and_eq_true, Bool.not_eq_true', List.contains_eq_mem,
      decide_eq_false_iff_not] at h
    exact .field (schema.reads_of_faithful h.1.1) (rest.reads_of_faithful h.1.2) h.2

/-- All cases that are `faithful` read what they have written. -/
theorem Cases.reads_of_faithful : {γ : Type} → (cases : Cases γ) → cases.faithful = true →
    cases.Reads
  | _, .nil, _ => fun c => nomatch c
  | _, .bare name rest, h => by
    simp only [Cases.faithful, Bool.and_eq_true, Bool.not_eq_true', List.contains_eq_mem,
      decide_eq_false_iff_not] at h
    exact .bare (rest.reads_of_faithful h.1) h.2
  | _, .carrying name schema rest, h => by
    simp only [Cases.faithful, Bool.and_eq_true, Bool.not_eq_true', List.contains_eq_mem,
      decide_eq_false_iff_not] at h
    exact .carrying (schema.reads_of_faithful h.1.1) (rest.reads_of_faithful h.1.2) h.2

end

/-- A `faithful` schema reads what it has written, if it is in bounds, and nothing else from it. -/
theorem Schema.read?_write {α : Type} (schema : Schema α) (h : schema.faithful = true) (value : α) :
    schema.read? (schema.write value) = if schema.inBounds value then some value else none :=
  schema.reads_of_faithful h value

/-- What a `snapshot` keeps faithfully is read, and the rest made anew. -/
theorem Schema.read?_write_snapshot {α β : Type} {encode : α → β} {decode : β → α}
    {inner : Schema β} (h : inner.faithful = true) (value : α) :
    (Schema.snapshot encode decode inner).read?
        ((Schema.snapshot encode decode inner).write value) =
      if (Schema.snapshot encode decode inner).inBounds value then some (decode (encode value))
      else none := by
  show (inner.read? (inner.write (encode value))).map decode =
    if inner.inBounds (encode value) then _ else _
  rw [inner.read?_write h]
  cases inner.inBounds (encode value) <;> rfl

/-! ### Through the text -/

mutual

/-- What a schema writes is `Printable`. -/
theorem Schema.write_printable : {α : Type} → (schema : Schema α) → (value : α) →
    (schema.write value).Printable
  | _, .bool, b => .bool b
  | _, .nat _, n => .int n
  | _, .int _ _, n => .int n
  | _, .text, s => .str s
  | _, .list item, values => .arr fun document hdocument => by
    obtain ⟨value, -, rfl⟩ := List.mem_map.1 hdocument
    exact item.write_printable value
  | _, .nullable _, none => .null
  | _, .nullable value, some v => value.write_printable v
  | _, .pair first second, (a, b) => .arr fun document hdocument => by
    rcases List.mem_cons.1 hdocument with rfl | hdocument
    · exact first.write_printable a
    · obtain rfl := List.mem_singleton.1 hdocument
      exact second.write_printable b
  | _, .dictionary value, entries => .obj fun member hmember => by
    obtain ⟨entry, -, rfl⟩ := List.mem_map.1 hmember
    exact value.write_printable entry.2
  | _, .record fields, r => .obj (fields.write_printable r)
  | _, .choice cases, c => cases.write_printable c
  | _, .via encode _ _ inner, a => inner.write_printable (encode a)
  | _, .snapshot encode _ inner, a => inner.write_printable (encode a)

/-- What fields write is `Printable`. -/
theorem Fields.write_printable : {ρ : Type} → (fields : Fields ρ) → (r : ρ) →
    ∀ member ∈ fields.write r, member.2.Printable
  | _, .nil, _ => by simp [Fields.write]
  | _, .field name schema _ rest, (value, values) => by
    intro member hmember
    rcases List.mem_cons.1 hmember with rfl | hmember
    · exact schema.write_printable value
    · exact rest.write_printable values member hmember

/-- What cases write is `Printable`. -/
theorem Cases.write_printable : {γ : Type} → (cases : Cases γ) → (c : γ) →
    (cases.write c).Printable
  | _, .bare name _, .inl _ => .str name
  | _, .bare _ rest, .inr c => rest.write_printable c
  | _, .carrying name schema _, .inl value => .obj fun member hmember => by
    obtain rfl := List.mem_singleton.1 hmember
    exact schema.write_printable value
  | _, .carrying _ _ rest, .inr c => rest.write_printable c

end

/-- Writing the `value` as text and reading the text is writing and reading its document. -/
theorem Schema.parse?_write {α : Type} (schema : Schema α) (value : α) :
    schema.parse? (Json.compact (schema.write value)) = schema.read? (schema.write value) := by
  rw [Schema.parse?, Json.parse?_compact (schema.write_printable value)]
  rfl

end Flak
