import Flak.Proofs.Json.Schema
import Mathlib

namespace Flak

/-!
# Documents that leave fields out

A field that holds what its absence means need not be written.

* `Schema.Abridges` — the documents of a value: what is written for it, at any depth less fields
  that hold what their absence means.
* `Schema.Recovers` — all documents of a value in bounds are read as one and the same value.
* `Schema.recovers_of_faithful` — faithful schemas recover the value itself.
* `Schema.Recovers.parse?` — the text in between loses nothing.
-/

/-! ### Abridged documents -/

mutual

/-- What a `Schema` writes for a value, or the same less fields that hold what their absence
    means. -/
def Schema.Abridges : {α : Type} → Schema α → α → Json → Prop
  | _, .bool, b, document => document = .bool b
  | _, .nat _, n, document => document = .int n
  | _, .int _ _, n, document => document = .int n
  | _, .text, s, document => document = .str s
  | _, .list item, values, document =>
      ∃ items, document = .arr items ∧ List.Forall₂ item.Abridges values items
  | _, .nullable value, v, document => match v with
    | none => document = .null
    | some v => value.Abridges v document
  | _, .pair first second, v, document =>
      ∃ a b, document = .arr [a, b] ∧ first.Abridges v.1 a ∧ second.Abridges v.2 b
  | _, .dictionary value, entries, document =>
      ∃ members, document = .obj members ∧ List.Forall₂
        (fun entry member => member.1 = entry.1 ∧ value.Abridges entry.2 member.2) entries members
  | _, .record fields, r, document =>
      ∃ members, document = .obj members ∧ fields.Abridges r members
  | _, .choice cases, c, document => cases.Abridges c document
  | _, .via encode _ _ inner, a, document => inner.Abridges (encode a) document
  | _, .snapshot encode _ inner, a, document => inner.Abridges (encode a) document

/-- Members for all `Fields`, or for some of them if each of the others holds what its absence
    means. -/
def Fields.Abridges : {ρ : Type} → Fields ρ → ρ → List (String × Json) → Prop
  | _, .nil, _, members => members = []
  | _, .field name schema absence rest, r, members =>
      (absence.inObject = some r.1 ∧ rest.Abridges r.2 members) ∨
        ∃ document others, members = (name, document) :: others ∧
          schema.Abridges r.1 document ∧ rest.Abridges r.2 others

/-- What is written for one of some `Cases`, or the same with less in what it carries. -/
def Cases.Abridges : {γ : Type} → Cases γ → γ → Json → Prop
  | _, .bare name _, .inl _, document => document = .str name
  | _, .bare _ rest, .inr c, document => rest.Abridges c document
  | _, .carrying name schema _, .inl value, document =>
      ∃ inner, document = .obj [(name, inner)] ∧ schema.Abridges value inner
  | _, .carrying _ _ rest, .inr c, document => rest.Abridges c document

end

mutual

/-- Nothing has to be left out: what a `schema` writes stands for the value. -/
theorem Schema.abridges_write : {α : Type} → (schema : Schema α) → (value : α) →
    schema.Abridges value (schema.write value)
  | _, .bool, _ => rfl
  | _, .nat _, _ => rfl
  | _, .int _ _, _ => rfl
  | _, .text, _ => rfl
  | _, .list item, values => by
    refine ⟨_, rfl, ?_⟩
    rw [List.forall₂_map_right_iff, List.forall₂_same]
    exact fun value _ => item.abridges_write value
  | _, .nullable _, none => rfl
  | _, .nullable value, some v => value.abridges_write v
  | _, .pair first second, (a, b) =>
    ⟨_, _, rfl, first.abridges_write a, second.abridges_write b⟩
  | _, .dictionary value, entries => by
    refine ⟨_, rfl, ?_⟩
    rw [List.forall₂_map_right_iff, List.forall₂_same]
    exact fun entry _ => ⟨rfl, value.abridges_write entry.2⟩
  | _, .record fields, r => ⟨_, rfl, fields.abridges_write r⟩
  | _, .choice cases, c => cases.abridges_write c
  | _, .via encode _ _ inner, a => inner.abridges_write (encode a)
  | _, .snapshot encode _ inner, a => inner.abridges_write (encode a)

/-- Nothing has to be left out: what `fields` write stands for their values. -/
theorem Fields.abridges_write : {ρ : Type} → (fields : Fields ρ) → (r : ρ) →
    fields.Abridges r (fields.write r)
  | _, .nil, _ => rfl
  | _, .field _ schema _ rest, (value, values) =>
    .inr ⟨_, _, rfl, schema.abridges_write value, rest.abridges_write values⟩

/-- Nothing has to be left out: what `cases` write stands for the case. -/
theorem Cases.abridges_write : {γ : Type} → (cases : Cases γ) → (c : γ) →
    cases.Abridges c (cases.write c)
  | _, .bare _ _, .inl _ => rfl
  | _, .bare _ rest, .inr c => rest.abridges_write c
  | _, .carrying _ schema _, .inl value => ⟨_, rfl, schema.abridges_write value⟩
  | _, .carrying _ _ rest, .inr c => rest.abridges_write c

end

/-- No names are made up: those in `members` are names of the fields. -/
theorem Fields.Abridges.mem_names : {ρ : Type} → {fields : Fields ρ} → {r : ρ} →
    {members : List (String × Json)} → fields.Abridges r members →
    ∀ member ∈ members, member.1 ∈ fields.names
  | _, .nil, _, _, h => by
    obtain rfl := h
    simp
  | _, .field name schema absence rest, r, members, h => by
    intro member hmember
    rcases h with ⟨-, hrest⟩ | ⟨document, others, rfl, -, hrest⟩
    · exact List.mem_cons_of_mem _ (mem_names hrest member hmember)
    · rcases List.mem_cons.1 hmember with rfl | hmember
      · exact List.mem_cons_self
      · exact List.mem_cons_of_mem _ (mem_names hrest member hmember)

/-- A case keeps its form: its name, or an object with its name, stands for it in any `document`. -/
theorem Cases.exists_name_of_abridges : {γ : Type} → (cases : Cases γ) → (c : γ) →
    (document : Json) → cases.Abridges c document →
    ∃ name ∈ cases.names, document = .str name ∨ ∃ inner, document = .obj [(name, inner)]
  | _, .bare name _, .inl _, _, h => ⟨name, List.mem_cons_self, .inl h⟩
  | _, .bare _ rest, .inr c, document, h => by
    obtain ⟨name, hname, hform⟩ := rest.exists_name_of_abridges c document h
    exact ⟨name, List.mem_cons_of_mem _ hname, hform⟩
  | _, .carrying name _ _, .inl _, _, h => by
    obtain ⟨inner, hform, -⟩ := h
    exact ⟨name, List.mem_cons_self, .inr ⟨inner, hform⟩⟩
  | _, .carrying _ _ rest, .inr c, document, h => by
    obtain ⟨name, hname, hform⟩ := rest.exists_name_of_abridges c document h
    exact ⟨name, List.mem_cons_of_mem _ hname, hform⟩

/-- A `value` that is never written as nothing does not become nothing. -/
theorem Schema.ne_null_of_abridges : {α : Type} → (schema : Schema α) →
    schema.neverNull = true → (value : α) → (document : Json) → schema.Abridges value document →
    document ≠ .null
  | _, .bool, _, _, _, h => by rw [h]; nofun
  | _, .nat _, _, _, _, h => by rw [h]; nofun
  | _, .int _ _, _, _, _, h => by rw [h]; nofun
  | _, .text, _, _, _, h => by rw [h]; nofun
  | _, .list _, _, _, _, h => by
    obtain ⟨items, rfl, -⟩ := h
    nofun
  | _, .pair _ _, _, _, _, h => by
    obtain ⟨a, b, rfl, -⟩ := h
    nofun
  | _, .dictionary _, _, _, _, h => by
    obtain ⟨members, rfl, -⟩ := h
    nofun
  | _, .record _, _, _, _, h => by
    obtain ⟨members, rfl, -⟩ := h
    nofun
  | _, .choice cases, _, c, document, h => by
    obtain ⟨name, -, rfl | ⟨inner, rfl⟩⟩ := cases.exists_name_of_abridges c document h
    · nofun
    · nofun
  | _, .via encode _ _ inner, hnull, a, document, h =>
    inner.ne_null_of_abridges hnull (encode a) document h
  | _, .snapshot encode _ inner, hnull, a, document, h =>
    inner.ne_null_of_abridges hnull (encode a) document h

/-! ### What is recovered, one construction at a time -/

/-- Whichever document stands for a value in bounds, the `schema` reads it as `back` of the
    value. -/
def Schema.Recovers {α : Type} (schema : Schema α) (back : α → α) : Prop :=
  ∀ value document, schema.inBounds value = true → schema.Abridges value document →
    schema.read? document = some (back value)

/-- The `fields` are recovered from an object in which their names mean what they mean in their
    members. -/
def Fields.Recovers {ρ : Type} (fields : Fields ρ) (back : ρ → ρ) : Prop :=
  ∀ r members others, fields.inBounds r = true → fields.Abridges r members →
    (∀ name ∈ fields.names, Json.member? name others = Json.member? name members ∧
      Json.occurrences name others = Json.occurrences name members) →
    fields.fromObject? others = some (back r)

/-- The `cases` are recovered from what stands for them. -/
def Cases.Recovers {γ : Type} (cases : Cases γ) (back : γ → γ) : Prop :=
  ∀ c document, cases.inBounds c = true → cases.Abridges c document →
    cases.read? document = some (back c)

namespace Schema.Recovers

variable {α β : Type} {back : α → α}

/-- What `Reads` recovers all, where nothing can be left out. -/
theorem of_reads {schema : Schema α} (h : schema.Reads)
    (hwrite : ∀ value document, schema.Abridges value document → document = schema.write value) :
    schema.Recovers id := by
  intro value document hbounds habridges
  rw [hwrite value document habridges, h value, if_pos hbounds]
  rfl

/-- A `Schema.list` recovers what its `item` does. -/
theorem list {item : Schema α} (h : item.Recovers back) :
    (Schema.list item).Recovers (List.map back) := by
  rintro values _ hbounds ⟨items, rfl, habridges⟩
  show items.mapM item.read? = some (values.map back)
  have hbounds' : ∀ value ∈ values, item.inBounds value = true := List.all_eq_true.1 hbounds
  clear hbounds
  induction habridges with
  | nil => rfl
  | @cons value document values items habridged _ ih =>
    obtain ⟨hvalue, hvalues⟩ := List.forall_mem_cons.1 hbounds'
    rw [List.mapM_cons, h value document hvalue habridged, ih hvalues]
    rfl

/-- A `Schema.nullable` recovers what that of its `value` does, which never is written as `null`. -/
theorem nullable {value : Schema α} (h : value.Recovers back) (hnull : value.neverNull = true) :
    (Schema.nullable value).Recovers (Option.map back) := by
  intro v document hbounds habridges
  cases v with
  | none =>
    obtain rfl := habridges
    rfl
  | some v =>
    have hvalue : value.Abridges v document := habridges
    -- What stands for a value is not taken for nothing.
    have hread : (Schema.nullable value).read? document = (value.read? document).map some := by
      cases document with
      | null => exact absurd rfl (value.ne_null_of_abridges hnull v _ hvalue)
      | _ => rfl
    rw [hread, h v document hbounds hvalue]
    rfl

/-- A `Schema.pair` recovers what both parts do. -/
theorem pair {first : Schema α} {second : Schema β} {back' : β → β} (h : first.Recovers back)
    (h' : second.Recovers back') : (Schema.pair first second).Recovers (Prod.map back back') := by
  rintro v _ hbounds ⟨a, b, rfl, hfirst, hsecond⟩
  obtain ⟨hbounds, hbounds'⟩ := Bool.and_eq_true_iff.1 hbounds
  show (first.read? a).bind _ = _
  rw [h v.1 a hbounds hfirst]
  show (second.read? b).bind _ = _
  rw [h' v.2 b hbounds' hsecond]
  rfl

/-- A `Schema.dictionary` recovers what that of its values does. -/
theorem dictionary {value : Schema α} (h : value.Recovers back) :
    (Schema.dictionary value).Recovers (List.map (Prod.map id back)) := by
  rintro entries _ hbounds ⟨members, rfl, habridges⟩
  show members.mapM (fun member => (value.read? member.2).map (member.1, ·)) =
    some (entries.map (Prod.map id back))
  have hbounds' : ∀ entry ∈ entries, value.inBounds entry.2 = true := List.all_eq_true.1 hbounds
  clear hbounds
  induction habridges with
  | nil => rfl
  | @cons entry member entries members habridged _ ih =>
    obtain ⟨hkey, hvalue⟩ := habridged
    obtain ⟨hentry, hentries⟩ := List.forall_mem_cons.1 hbounds'
    rw [List.mapM_cons, h entry.2 member.2 hentry hvalue, ih hentries, hkey]
    rfl

/-- A `Schema.record` recovers what its `fields` do. -/
theorem record {fields : Fields α} (h : fields.Recovers back) :
    (Schema.record fields).Recovers back := by
  rintro r _ hbounds ⟨members, rfl, habridges⟩
  exact h r members members hbounds habridges fun _ _ => ⟨rfl, rfl⟩

/-- A `Schema.choice` recovers what its `cases` do. -/
theorem choice {cases : Cases α} (h : cases.Recovers back) :
    (Schema.choice cases).Recovers back := by
  intro c document hbounds habridges
  have hread : (Schema.choice cases).read? document = cases.read? document := by
    cases document with
    | obj members => rcases members with _ | ⟨⟨name, document⟩, _ | ⟨_, _⟩⟩ <;> rfl
    | _ => rfl
  rw [hread]
  exact h c document hbounds habridges

/-- What goes `via` another schema comes back as what that schema recovers is decoded. -/
theorem via {encode : α → β} {decode : β → Option α} {decode_encode} {inner : Schema β}
    {kept : β → β} (h : inner.Recovers kept)
    (hdecode : ∀ a, decode (kept (encode a)) = some (back a)) :
    (Schema.via encode decode decode_encode inner).Recovers back := by
  intro a document hbounds habridges
  show (inner.read? document).bind decode = _
  rw [h (encode a) document hbounds habridges]
  exact hdecode a

/-- From a `snapshot` comes back what is made anew of what it kept. -/
theorem snapshot {encode : α → β} {decode : β → α} {inner : Schema β} {kept : β → β}
    (h : inner.Recovers kept) :
    (Schema.snapshot encode decode inner).Recovers fun a => decode (kept (encode a)) := by
  intro a document hbounds habridges
  show (inner.read? document).map decode = _
  rw [h (encode a) document hbounds habridges]
  rfl

end Schema.Recovers

/-- A name that is not among the `members` of an object means nothing there. -/
theorem Json.member?_eq_none {name : String} {members : List (String × Json)}
    (h : ∀ member ∈ members, member.1 ≠ name) : Json.member? name members = none := by
  induction members with
  | nil => rfl
  | cons member rest ih =>
    obtain ⟨hfirst, hrest⟩ := List.forall_mem_cons.1 h
    obtain ⟨other, document⟩ := member
    rw [Json.member?, if_neg hfirst, ih hrest]

/-- A field may be left out if the value that its `absence` means comes `back` as it is. -/
theorem Fields.Recovers.field {α ρ : Type} {name : String} {schema : Schema α}
    {absence : Absence α} {rest : Fields ρ} {back : α → α} {back' : ρ → ρ}
    (hschema : schema.Recovers back) (hrest : rest.Recovers back') (hname : name ∉ rest.names)
    (habsent : ∀ value, absence.inObject = some value → back value = value) :
    (Fields.field name schema absence rest).Recovers (Prod.map back back') := by
  intro r members others hbounds habridges hothers
  obtain ⟨hvalue, hvalues⟩ := Bool.and_eq_true_iff.1 hbounds
  obtain ⟨hmember, honce⟩ := hothers name List.mem_cons_self
  have hnot {members : List (String × Json)} (h : rest.Abridges r.2 members) :
      ∀ member ∈ members, member.1 ≠ name := fun member hmember heq =>
    hname (heq ▸ h.mem_names member hmember)
  rcases habridges with ⟨habsence, hleft⟩ | ⟨document, left, rfl, hfield, hleft⟩
  · -- The name does not come up, and its absence means the value.
    have hnone : Json.member? name members = none := Json.member?_eq_none (hnot hleft)
    have hnever : Json.occurrences name members = 0 :=
      List.countP_eq_zero.2 fun member hmember => by simpa using hnot hleft member hmember
    have hread := hrest r.2 members others hvalues hleft fun other hother =>
      hothers other (List.mem_cons_of_mem _ hother)
    rw [fromObject?, hmember, honce, hnone, hnever, hread, if_pos (Nat.zero_le 1)]
    simp only [habsence]
    show some (r.1, back' r.2) = _
    rw [Prod.map, habsent r.1 habsence]
  · have honce' : Json.occurrences name others = 1 := by
      rw [honce]
      simpa [Json.occurrences] using hnot hleft
    have hread := hrest r.2 left others hvalues hleft fun other hother => by
      have hne : name ≠ other := fun h => hname (h ▸ hother)
      obtain ⟨hmember, honce⟩ := hothers other (List.mem_cons_of_mem _ hother)
      simpa [Json.member?, Json.occurrences, hne] using And.intro hmember honce
    have hmember' : Json.member? name others = some document := by
      rw [hmember]
      simp [Json.member?]
    rw [fromObject?, hmember', honce', hread, if_pos (Nat.le_refl 1)]
    show (schema.read? document).bind _ = _
    rw [hschema r.1 document hvalue hfield]
    rfl

/-! ### Cases -/

/-- Cases recover with a `bare` one in front of them, if its name is a new one. -/
theorem Cases.Recovers.bare {γ : Type} {name : String} {rest : Cases γ} {back : γ → γ}
    (hrest : rest.Recovers back) (hname : name ∉ rest.names) :
    (Cases.bare name rest).Recovers (Sum.map id back) := by
  intro c document hbounds habridges
  rcases c with _ | c
  · obtain rfl := habridges
    simp [read?, fromName?]
  · obtain ⟨other, hother, hform⟩ := rest.exists_name_of_abridges c document habridges
    have hne : other ≠ name := fun h => hname (h ▸ hother)
    have hlater : (Cases.bare name rest).read? document = (rest.read? document).map .inr := by
      rcases hform with rfl | ⟨inner, rfl⟩
      · rw [read?, fromName?, if_neg hne]
        rfl
      · show (if other = name then _ else (rest.fromMember? other inner).map Sum.inr) = _
        rw [if_neg hne]
        rfl
    rw [hlater, hrest c document hbounds habridges]
    rfl

/-- Cases recover with a `carrying` one in front of them, if its name is a new one. -/
theorem Cases.Recovers.carrying {α γ : Type} {name : String} {schema : Schema α} {rest : Cases γ}
    {back : α → α} {back' : γ → γ} (hschema : schema.Recovers back) (hrest : rest.Recovers back')
    (hname : name ∉ rest.names) :
    (Cases.carrying name schema rest).Recovers (Sum.map back back') := by
  intro c document hbounds habridges
  rcases c with value | c
  · obtain ⟨inner, rfl, hvalue⟩ := habridges
    rw [read?, fromMember?, if_pos rfl, hschema value inner hbounds hvalue]
    rfl
  · obtain ⟨other, hother, hform⟩ := rest.exists_name_of_abridges c document habridges
    -- A later case has another name, so that its document is passed on.
    have hne : other ≠ name := fun h => hname (h ▸ hother)
    have hlater : (Cases.carrying name schema rest).read? document =
        (rest.read? document).map .inr := by
      rcases hform with rfl | ⟨inner, rfl⟩
      · rw [read?, fromName?, if_neg hne]
        rfl
      · rw [read?, fromMember?, if_neg hne]
        rfl
    rw [hlater, hrest c document hbounds habridges]
    rfl

/-! ### Faithful schemas recover the value itself -/

mutual

/-- Every schema that is `faithful` recovers all. -/
theorem Schema.recovers_of_faithful : {α : Type} → (schema : Schema α) →
    schema.faithful = true → schema.Recovers id
  | _, .bool, _ => .of_reads .bool fun _ _ h => h
  | _, .nat bound, _ => .of_reads (.nat bound) fun _ _ h => h
  | _, .int low high, _ => .of_reads (.int low high) fun _ _ h => h
  | _, .text, _ => .of_reads .text fun _ _ h => h
  | _, .list item, h => by
    have hlist := Schema.Recovers.list (item.recovers_of_faithful h)
    rwa [List.map_id_fun] at hlist
  | _, .nullable value, h => by
    simp only [Schema.faithful, Bool.and_eq_true] at h
    have hnullable := Schema.Recovers.nullable (value.recovers_of_faithful h.1) h.2
    rwa [Option.map_id] at hnullable
  | _, .pair first second, h => by
    simp only [Schema.faithful, Bool.and_eq_true] at h
    exact .pair (first.recovers_of_faithful h.1) (second.recovers_of_faithful h.2)
  | _, .dictionary value, h => by
    have hdictionary := Schema.Recovers.dictionary (value.recovers_of_faithful h)
    rwa [Prod.map_id, List.map_id_fun] at hdictionary
  | _, .record fields, h => .record (fields.recovers_of_faithful h)
  | _, .choice cases, h => .choice (cases.recovers_of_faithful h)
  | _, .via _ _ decode_encode inner, h => .via (inner.recovers_of_faithful h) decode_encode

/-- All fields that are `faithful` recover all. -/
theorem Fields.recovers_of_faithful : {ρ : Type} → (fields : Fields ρ) →
    fields.faithful = true → fields.Recovers id
  | _, .nil, _ => fun _ _ _ _ _ _ => rfl
  | _, .field name schema absence rest, h => by
    simp only [Fields.faithful, Bool.and_eq_true, Bool.not_eq_true', List.contains_eq_mem,
      decide_eq_false_iff_not] at h
    exact .field (schema.recovers_of_faithful h.1.1) (rest.recovers_of_faithful h.1.2) h.2
      fun _ _ => rfl

/-- All cases that are `faithful` recover all. -/
theorem Cases.recovers_of_faithful : {γ : Type} → (cases : Cases γ) →
    cases.faithful = true → cases.Recovers id
  | _, .nil, _ => fun c => nomatch c
  | _, .bare name rest, h => by
    simp only [Cases.faithful, Bool.and_eq_true, Bool.not_eq_true', List.contains_eq_mem,
      decide_eq_false_iff_not] at h
    have hbare := Cases.Recovers.bare (rest.recovers_of_faithful h.1) h.2
    rwa [Sum.map_id_id] at hbare
  | _, .carrying name schema rest, h => by
    simp only [Cases.faithful, Bool.and_eq_true, Bool.not_eq_true', List.contains_eq_mem,
      decide_eq_false_iff_not] at h
    have hcarrying := Cases.Recovers.carrying (schema.recovers_of_faithful h.1.1)
      (rest.recovers_of_faithful h.1.2) h.2
    rwa [Sum.map_id_id] at hcarrying

end

/-! ### Through the text -/

/-- Whatever stands on the right, `R` relates something on the left to it. -/
theorem exists_of_mem_forall₂ {α β : Type} {R : α → β → Prop} {as : List α} {bs : List β}
    (h : List.Forall₂ R as bs) {b : β} (hb : b ∈ bs) : ∃ a ∈ as, R a b := by
  induction h with
  | nil => simp at hb
  | @cons first other as bs hfirst _ ih =>
    rcases List.mem_cons.1 hb with rfl | hrest
    · exact ⟨first, List.mem_cons_self, hfirst⟩
    · obtain ⟨a, ha, hR⟩ := ih hrest
      exact ⟨a, List.mem_cons_of_mem _ ha, hR⟩

mutual

/-- Whatever stands for a value, as it `Abridges` it, is printable. -/
theorem Schema.printable_of_abridges : {α : Type} → (schema : Schema α) → (value : α) →
    (document : Json) → schema.Abridges value document → document.Printable
  | _, .bool, b, _, h => h ▸ .bool b
  | _, .nat _, n, _, h => h ▸ .int n
  | _, .int _ _, n, _, h => h ▸ .int n
  | _, .text, s, _, h => h ▸ .str s
  | _, .list item, values, _, h => by
    obtain ⟨items, rfl, habridges⟩ := h
    refine .arr fun document hdocument => ?_
    obtain ⟨value, -, hvalue⟩ := exists_of_mem_forall₂ habridges hdocument
    exact item.printable_of_abridges value document hvalue
  | _, .nullable _, none, _, h => h ▸ .null
  | _, .nullable value, some v, document, h => value.printable_of_abridges v document h
  | _, .pair first second, v, _, h => by
    obtain ⟨a, b, rfl, hfirst, hsecond⟩ := h
    refine .arr fun document hdocument => ?_
    rcases List.mem_cons.1 hdocument with rfl | hdocument
    · exact first.printable_of_abridges v.1 _ hfirst
    · obtain rfl := List.mem_singleton.1 hdocument
      exact second.printable_of_abridges v.2 _ hsecond
  | _, .dictionary value, entries, _, h => by
    obtain ⟨members, rfl, habridges⟩ := h
    refine .obj fun member hmember => ?_
    obtain ⟨entry, -, -, hvalue⟩ := exists_of_mem_forall₂ habridges hmember
    exact value.printable_of_abridges entry.2 member.2 hvalue
  | _, .record fields, r, _, h => by
    obtain ⟨members, rfl, habridges⟩ := h
    exact .obj (fields.printable_of_abridges r members habridges)
  | _, .choice cases, c, document, h => cases.printable_of_abridges c document h
  | _, .via encode _ _ inner, a, document, h => inner.printable_of_abridges (encode a) document h
  | _, .snapshot encode _ inner, a, document, h =>
    inner.printable_of_abridges (encode a) document h

/-- Whatever stands for the values of fields is `Printable`. -/
theorem Fields.printable_of_abridges : {ρ : Type} → (fields : Fields ρ) → (r : ρ) →
    (members : List (String × Json)) → fields.Abridges r members →
    ∀ member ∈ members, member.2.Printable
  | _, .nil, _, _, h => by
    obtain rfl := h
    simp
  | _, .field name schema _ rest, r, members, h => by
    rcases h with ⟨-, hleft⟩ | ⟨document, left, rfl, hfield, hleft⟩
    · exact rest.printable_of_abridges r.2 members hleft
    · intro member hmember
      rcases List.mem_cons.1 hmember with rfl | hmember
      · exact schema.printable_of_abridges r.1 document hfield
      · exact rest.printable_of_abridges r.2 left hleft member hmember

/-- Whatever stands for a case is `Printable`. -/
theorem Cases.printable_of_abridges : {γ : Type} → (cases : Cases γ) → (c : γ) →
    (document : Json) → cases.Abridges c document → document.Printable
  | _, .bare name _, .inl _, _, h => h ▸ .str name
  | _, .bare _ rest, .inr c, document, h => rest.printable_of_abridges c document h
  | _, .carrying name schema _, .inl value, _, h => by
    obtain ⟨inner, rfl, hvalue⟩ := h
    refine .obj fun member hmember => ?_
    obtain rfl := List.mem_singleton.1 hmember
    exact schema.printable_of_abridges value inner hvalue
  | _, .carrying _ _ rest, .inr c, document, h => rest.printable_of_abridges c document h

end

/-- Whatever stands for the `value` in bounds can be printed by `compact` and read. -/
theorem Schema.Recovers.parse? {α : Type} {schema : Schema α} {back : α → α}
    (h : schema.Recovers back) {value : α} {document : Json}
    (hbounds : schema.inBounds value = true) (habridges : schema.Abridges value document) :
    schema.parse? (Json.compact document) = some (back value) := by
  rw [Schema.parse?, Json.parse?_compact (schema.printable_of_abridges value document habridges)]
  exact h value document hbounds habridges

end Flak
