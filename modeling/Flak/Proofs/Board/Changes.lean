import Flak.Losses.Basic
import Flak.Proofs.Board.Reach
import Flak.Proofs.Fault

namespace Flak.Board

/-!
# What changes of the board do, and when they succeed

* `markDamaged_eq_ok` — marking damage cannot fail half-way: it succeeds if the damaged units are
  known at the start.
* `standsIn_markDamaged` — damage leaves every unit where it is.
* `removeUnits_of_unknown`, `removeUnits_eq_ok` — removal fails for an unknown territory only, and
  then changes nothing.
* `mem_of_hasUnit_removeUnits` — only what is removed is gone.
* `exists_of_targets_cons`, `hasUnit_of_targets` — targets that were found on a board are units of
  it.
-/

variable {board : Board}

/-! ### Damage -/

/-- A `change` to one unit, but not to its number, leaves it found where it was; no other unit
    changes. -/
theorem find?_updateUnit {change : BoardUnit → BoardUnit} (hid : ∀ unit, (change unit).id = unit.id)
    (id other : UnitId) (units : List BoardUnit) :
    (updateUnit id change units).find? (fun unit => unit.id = other) =
      (units.find? fun unit => unit.id = other).map
        fun unit => if other = id then change unit else unit := by
  induction units with
  | nil => rfl
  | cons unit rest ih =>
    by_cases hunit : unit.id = id
    · rw [updateUnit, if_pos hunit]
      by_cases hother : unit.id = other
      · simp [hid, hother, ← hunit]
      · have hne : other ≠ id := fun h => hother (hunit.trans h.symm)
        simp [hid, hother, hne]
    · rw [updateUnit, if_neg hunit]
      by_cases hother : unit.id = other
      · have hne : other ≠ id := fun h => hunit (hother.trans h)
        simp [hother, hne]
      · simp [hother, ih]

/-- Damage, a change of the `hits` of one unit, leaves every unit where it is found. -/
theorem hasUnit_updateUnit (id other : UnitId) (hits : Nat) :
    ({ board with
      units := updateUnit id (fun unit => { unit with hits := unit.hits + hits }) board.units } :
      Board).hasUnit other = board.hasUnit other := by
  simp only [hasUnit, unit?]
  rw [find?_updateUnit, Option.isSome_map]
  exact fun _ => rfl

/-- The damage to known units can be marked: `markDamaged` does not fail. -/
theorem markDamaged_eq_ok {damaged : List (UnitId × Nat)}
    (hknown : ∀ entry ∈ damaged, board.hasUnit entry.1) :
    (markDamaged damaged board).1 = .ok () := by
  induction damaged generalizing board with
  | nil => rfl
  | cons entry rest ih =>
    obtain ⟨id, hits⟩ := entry
    have hid : board.hasUnit id := hknown (id, hits) (by simp)
    obtain ⟨unit, hunit⟩ := Option.isSome_iff_exists.1 hid
    rw [markDamaged, hunit]
    refine ih fun entry hentry => ?_
    rw [hasUnit_updateUnit]
    exact hknown entry (by simp [hentry])

/-- Damage does not change the `rules`. -/
theorem markDamaged_rules (damaged : List (UnitId × Nat)) (board : Board) :
    (markDamaged damaged board).2.rules = board.rules := by
  induction damaged generalizing board with
  | nil => rfl
  | cons entry rest ih =>
    rw [markDamaged]
    split
    · rfl
    · exact ih _

/-- Damage leaves every `unit` where it stands. -/
theorem standsIn_markDamaged (damaged : List (UnitId × Nat)) (board : Board) (unit : UnitId)
    (territory : String) :
    (markDamaged damaged board).2.hasUnit unit = board.hasUnit unit ∧
      (markDamaged damaged board).2.standsIn unit territory = board.standsIn unit territory := by
  induction damaged generalizing board with
  | nil => exact ⟨rfl, rfl⟩
  | cons entry rest ih =>
    obtain ⟨id, hits⟩ := entry
    rw [markDamaged]
    cases hunit : board.unit? id with
    | none => exact ⟨rfl, rfl⟩
    | some found =>
      have hknown := @hasUnit_updateUnit board id unit hits
      obtain ⟨hsame, hstands⟩ := ih { board with
        units := updateUnit id (fun unit => { unit with hits := unit.hits + hits }) board.units }
      refine ⟨hsame.trans hknown, hstands.trans ?_⟩
      unfold standsIn
      rw [hknown]
      rfl

/-! ### Removal -/

/-- Only what `removeUnits` is told to remove is gone. -/
theorem mem_of_hasUnit_removeUnits {territory : String} {ids : List UnitId} {unit : UnitId}
    (hbefore : board.hasUnit unit = true)
    (hafter : (board.removeUnits territory ids).2.hasUnit unit = false) : unit ∈ ids := by
  rw [removeUnits] at hafter
  cases hfound : board.territory? territory with
  | none => simp [hfound, hbefore] at hafter
  | some found =>
    by_cases hunit : unit ∈ ids
    · exact hunit
    · -- A unit that stays is found among those that stay.
      obtain ⟨standing, hmem, hid⟩ := List.find?_isSome.1 hbefore
      have hstays : ((board.units.filter fun unit => unit.id ∉ ids).find?
          fun other => other.id = unit).isSome := by
        refine List.find?_isSome.2 ⟨standing, List.mem_filter.2 ⟨hmem, ?_⟩, hid⟩
        have heq : standing.id = unit := by simpa using hid
        simpa [heq] using hunit
      simp only [hfound] at hafter
      exact nomatch hstays.symm.trans hafter

/-- Nothing is removed from a territory that the board does not have, and the fault is
    `unknownTerritory`. -/
theorem removeUnits_of_unknown {territory : String} (h : board.territory? territory = none)
    (ids : List UnitId) :
    board.removeUnits territory ids = (.error (.unknownTerritory territory), board) := by
  rw [removeUnits, h]

/-- From a territory that is `found`, units can be removed, whether they stand there or not. -/
theorem removeUnits_eq_ok {territory : String} {found : Territory}
    (h : board.territory? territory = some found) (ids : List UnitId) :
    (board.removeUnits territory ids).1 = .ok () := by
  rw [removeUnits, h]

/-- Removal does not change the `rules`. -/
theorem removeUnits_rules (territory : String) (ids : List UnitId) (board : Board) :
    (board.removeUnits territory ids).2.rules = board.rules := by
  rw [removeUnits]
  split <;> rfl

/-! ### Targets -/

/-- A unit that has a type is on the `board`. -/
theorem hasUnit_of_unitWithType {id : UnitId} {entry : BoardUnit × UnitType}
    (h : board.unitWithType id = .ok entry) : board.hasUnit id := by
  simp [hasUnit, (unitWithType_eq_ok.1 h).1]

/-- The first unit is known, and one of the `targets` if it has hit points left. -/
theorem exists_of_targets_cons {id : UnitId} {ids : List UnitId} {targets : List Target}
    (h : board.targets (id :: ids) = .ok targets) :
    ∃ unit type others, board.unitWithType id = .ok (unit, type) ∧ board.targets ids = .ok others ∧
      targets = if unit.hitPointsLeft type = 0 then others
        else ⟨id, unit.hitPointsLeft type⟩ :: others := by
  rw [Board.targets] at h
  obtain ⟨⟨unit, type⟩, hid, hothers⟩ := Fault.exists_of_bind h
  obtain ⟨others, hrest, htargets⟩ := Fault.exists_of_bind hothers
  exact ⟨unit, type, others, hid, hrest, (Except.ok.inj htargets).symm⟩

/-- What `Board.targets` gives is taken from the units given, in their order. -/
theorem map_unit_targets_sublist {ids : List UnitId} {targets : List Target}
    (h : board.targets ids = .ok targets) : (targets.map Target.unit).Sublist ids := by
  induction ids generalizing targets with
  | nil =>
    obtain rfl : [] = targets := by simpa [Board.targets] using h
    exact .slnil
  | cons id rest ih =>
    obtain ⟨unit, type, others, -, hrest, rfl⟩ := exists_of_targets_cons h
    split
    · exact (ih hrest).cons id
    · exact (ih hrest).cons_cons id

/-- Targets that were found stand on the `board`. -/
theorem hasUnit_of_targets {ids : List UnitId} {targets : List Target}
    (h : board.targets ids = .ok targets) : ∀ id ∈ ids, board.hasUnit id := by
  induction ids generalizing targets with
  | nil => simp
  | cons id rest ih =>
    obtain ⟨unit, type, others, hid, hrest, -⟩ := exists_of_targets_cons h
    intro other hother
    rcases List.mem_cons.1 hother with rfl | hother
    · exact hasUnit_of_unitWithType hid
    · exact ih hrest other hother

end Flak.Board
