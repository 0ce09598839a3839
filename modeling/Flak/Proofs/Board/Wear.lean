import Flak.Proofs.Board.Changes

namespace Flak

/-!
# What fire does to a board

Fire damages units and takes them off. Whatever it does, a unit keeps all but its hits, and types
and territories stay:

* `Worn` — what holds of a board after any fire;
* `worn_markDamaged`, `worn_removeUnits` — damage and removal wear a board;
* `Typed`, `Worn.typed`, `Worn.knows` — what has been known of a board is known of it later.
-/

namespace Board

/-- What may have become of the board `before` under fire: units have gone or taken hits. -/
structure Worn (before after : Board) : Prop where
  unit? : ∀ id, after.unit? id = none ∨
    ∃ unit hits, before.unit? id = some unit ∧ after.unit? id = some { unit with hits }
  unitTypes : after.unitTypes = before.unitTypes
  territory? : ∀ name, (after.territory? name).isSome = (before.territory? name).isSome

/-- Whether the type of the unit `id` is declared, if the unit is on the `board`. -/
def Typed (board : Board) (id : UnitId) : Prop :=
  ∀ unit, board.unit? id = some unit → (board.unitType? unit.typeName).isSome

/-- Whether there is a territory of this `name`. -/
def Knows (board : Board) (name : String) : Prop := (board.territory? name).isSome

variable {board before after : Board}

namespace Worn

/-- A board is `Worn` by nothing happening to it. -/
theorem refl (board : Board) : Worn board board where
  unit? id := by
    cases h : board.unit? id with
    | none => exact .inl rfl
    | some unit => exact .inr ⟨unit, unit.hits, rfl, rfl⟩
  unitTypes := rfl
  territory? _ := rfl

/-- What is `Worn` first one way and then another is worn by both. -/
theorem trans {last : Board} (h : Worn before after) (h' : Worn after last) : Worn before last where
  unit? id := by
    rcases h'.unit? id with hgone | ⟨unit, hits, hunit, hlast⟩
    · exact .inl hgone
    · rcases h.unit? id with hgone | ⟨was, hits', hwas, hunit'⟩
      · simp [hgone] at hunit
      · obtain rfl := Option.some.inj (hunit.symm.trans hunit')
        exact .inr ⟨was, hits, hwas, hlast⟩
  unitTypes := h'.unitTypes.trans h.unitTypes
  territory? name := (h'.territory? name).trans (h.territory? name)

/-- A unit that is `Typed` stays so under fire. -/
theorem typed (h : Worn before after) {id : UnitId} (htyped : before.Typed id) :
    after.Typed id := by
  intro unit hunit
  rcases h.unit? id with hgone | ⟨was, hits, hwas, his⟩
  · simp [hgone] at hunit
  · obtain rfl := Option.some.inj (hunit.symm.trans his)
    rw [unitType?, h.unitTypes]
    exact htyped was hwas

/-- A territory that the board `Knows` stays there under fire. -/
theorem knows (h : Worn before after) {name : String} (hknown : before.Knows name) :
    after.Knows name :=
  (h.territory? name).trans hknown

end Worn

/-! ### Changes -/

/-- To change the `hits` of one unit leaves the board `Worn`. -/
theorem worn_updateUnit (id : UnitId) (hits : Nat) (board : Board) :
    Worn board { board with
      units := updateUnit id (fun unit => { unit with hits := unit.hits + hits })
        board.units } := by
  refine ⟨fun other => ?_, rfl, fun _ => rfl⟩
  have hfound := @find?_updateUnit (fun unit => { unit with hits := unit.hits + hits })
    (fun _ => rfl) id other board.units
  simp only [unit?, hfound]
  cases hunit : board.units.find? fun unit => unit.id = other with
  | none => exact .inl rfl
  | some unit =>
    by_cases hsame : other = id
    · exact .inr ⟨unit, unit.hits + hits, rfl, by simp [hsame]⟩
    · exact .inr ⟨unit, unit.hits, rfl, by simp [hsame]⟩

/-- To mark damage leaves the board `Worn`. -/
theorem worn_markDamaged (damaged : List (UnitId × Nat)) (board : Board) :
    Worn board (markDamaged damaged board).2 := by
  induction damaged generalizing board with
  | nil => exact .refl board
  | cons entry rest ih =>
    obtain ⟨id, hits⟩ := entry
    rw [markDamaged]
    split
    · exact .refl board
    · exact (worn_updateUnit id hits board).trans (ih _)

/-- A `change` to one territory, but not to its name, leaves it found where it was; no other one
    changes. -/
theorem find?_updateTerritory {change : Territory → Territory}
    (hname : ∀ territory, (change territory).name = territory.name) (name other : String)
    (territories : List Territory) :
    (updateTerritory name change territories).find? (fun territory => territory.name = other) =
      (territories.find? fun territory => territory.name = other).map
        fun territory => if other = name then change territory else territory := by
  induction territories with
  | nil => rfl
  | cons territory rest ih =>
    by_cases hterritory : territory.name = name
    · rw [updateTerritory, if_pos hterritory]
      by_cases hother : territory.name = other
      · simp [hname, hother, ← hterritory]
      · have hne : other ≠ name := fun h => hother (hterritory.trans h.symm)
        simp [hname, hother, hne]
    · rw [updateTerritory, if_neg hterritory]
      by_cases hother : territory.name = other
      · have hne : other ≠ name := fun h => hterritory (hother.trans h)
        simp [hother, hne]
      · simp [hother, ih]

/-- Among the `units` to `keep`, those are found that were found before. -/
theorem find?_filter_units (keep : UnitId → Bool) (id : UnitId) (units : List BoardUnit) :
    (units.filter fun unit => keep unit.id).find? (fun unit => unit.id = id) =
      if keep id then units.find? fun unit => unit.id = id else none := by
  induction units with
  | nil => simp
  | cons unit rest ih =>
    by_cases hunit : unit.id = id
    · cases hkeep : keep id <;> simp [hunit, hkeep, ih]
    · cases hkeep : keep unit.id <;> simp [hunit, hkeep, ih]

/-- A unit that is not among the `ids` taken off is found where it was. -/
theorem unit?_removeUnits {territory : String} {ids : List UnitId} {id : UnitId}
    (hknown : board.Knows territory) :
    (board.removeUnits territory ids).2.unit? id =
      if id ∈ ids then none else board.unit? id := by
  obtain ⟨found, hfound⟩ := Option.isSome_iff_exists.1 hknown
  rw [removeUnits, hfound]
  have hkept := find?_filter_units (fun id => decide (id ∉ ids)) id board.units
  refine hkept.trans ?_
  by_cases hmem : id ∈ ids
  · simp [hmem]
  · simp [hmem, unit?]

/-- To remove units leaves the board `Worn`. -/
theorem worn_removeUnits (territory : String) (ids : List UnitId) (board : Board) :
    Worn board (board.removeUnits territory ids).2 := by
  by_cases hknown : board.Knows territory
  · refine ⟨fun id => ?_, ?_, fun name => ?_⟩
    · rw [unit?_removeUnits hknown]
      split
      · exact .inl rfl
      · exact (Worn.refl board).unit? id
    · obtain ⟨found, hfound⟩ := Option.isSome_iff_exists.1 hknown
      rw [removeUnits, hfound]
    · obtain ⟨found, hfound⟩ := Option.isSome_iff_exists.1 hknown
      rw [removeUnits, hfound]
      have hsame := @find?_updateTerritory
        (fun t => { t with units := t.units.filter (· ∉ ids) }) (fun _ => rfl) territory name
        board.territories
      exact (congrArg Option.isSome hsame).trans Option.isSome_map
  · have hunknown : board.territory? territory = none := by simpa [Knows] using hknown
    -- Nothing is removed from a territory that is not there.
    rw [removeUnits_of_unknown hunknown]
    exact .refl board

end Board

end Flak
