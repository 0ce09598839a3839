import Flak.Proofs.Board.Reduced
import Flak.Proofs.Engine.Resolve
import Mathlib.Data.List.Flatten
import Mathlib.Data.List.Pairwise

namespace Flak.Board

/-!
# Consistent boards

A board holds its units twice, among all units and in the lists of its territories.

* `Lists` — a territory of a name has a unit in its list;
* `ConsistentBut`, `Consistent` — lists and units agree, but for some that are astray, or for none;
* `ConsistentBut.removeUnits` — removal clears one list only, so that those who are also listed
  elsewhere go astray;
* `ConsistentBut.markDamaged`, `ConsistentBut.cleared` — what else fire does sends nobody astray;
* `lists_of_cleared` — nobody is entered in a list.
-/

variable {board : Board} {stray : String → UnitId → Prop} {name other : String} {id : UnitId}
  {ids : List UnitId}

/-- Whether a territory of this `name` has the unit `id` in its list. -/
def Lists (board : Board) (name : String) (id : UnitId) : Prop :=
  ∃ territory ∈ board.territories, territory.name = name ∧ id ∈ territory.units

/-- A board without two units of a number or two territories of a name, with no unit in two lists,
    and with all that are listed among its units, but for some that are `stray`. -/
structure ConsistentBut (stray : String → UnitId → Prop) (board : Board) : Prop where
  units : (board.units.map BoardUnit.id).Nodup
  names : (board.territories.map Territory.name).Nodup
  listed : (board.territories.flatMap Territory.units).Nodup
  known : ∀ name id, board.Lists name id → board.hasUnit id = true ∨ stray name id

/-- A `board` on which nobody is astray: it is `ConsistentBut` for none. -/
def Consistent (board : Board) : Prop := board.ConsistentBut fun _ _ => False

/-- What holds of all that `Lists` can be looked for in one territory after the other. -/
theorem forall_lists {P : String → UnitId → Prop} : (∀ name id, board.Lists name id → P name id) ↔
    ∀ territory ∈ board.territories, ∀ id ∈ territory.units, P territory.name id := by
  constructor
  · exact fun h territory hmem id hid => h territory.name id ⟨territory, hmem, rfl, hid⟩
  · rintro h name id ⟨territory, hmem, rfl, hid⟩
    exact h territory hmem id hid

/-- A board is `Consistent` if ids and names are distinct, no unit is listed twice, and all that are
    listed are there; this can be computed. -/
theorem consistent_iff : board.Consistent ↔ (board.units.map BoardUnit.id).Nodup ∧
    (board.territories.map Territory.name).Nodup ∧
    (board.territories.flatMap Territory.units).Nodup ∧
    ∀ territory ∈ board.territories, ∀ id ∈ territory.units, board.hasUnit id = true := by
  constructor
  · intro h
    refine ⟨h.units, h.names, h.listed, ?_⟩
    exact forall_lists.1 fun name id hlists => (h.known name id hlists).resolve_right not_false
  · rintro ⟨hunits, hnames, hlisted, hknown⟩
    exact ⟨hunits, hnames, hlisted, forall_lists.2 fun territory hmem id hid =>
      .inl (hknown territory hmem id hid)⟩

instance : DecidablePred Consistent := fun _ => decidable_of_iff _ consistent_iff.symm

/-- A unit that stands in a territory is in its list, as `standsIn` says. -/
theorem lists_of_standsIn (h : board.standsIn id name = true) : board.Lists name id := by
  obtain ⟨-, hlisted⟩ := Bool.and_eq_true_iff.1 h
  cases hfound : board.territory? name with
  | none => simp [hfound] at hlisted
  | some territory =>
    have hname : territory.name = name := by simpa using List.find?_some hfound
    refine ⟨territory, List.mem_of_find?_eq_some hfound, hname, ?_⟩
    simpa [hfound] using hlisted

namespace ConsistentBut

/-- More may be astray: `stray` can be weakened on those that are listed. -/
theorem weaken {stray' : String → UnitId → Prop} (h : board.ConsistentBut stray)
    (hstray : ∀ name id, board.Lists name id → stray name id → stray' name id) :
    board.ConsistentBut stray' where
  units := h.units
  names := h.names
  listed := h.listed
  known name id hlists := (h.known name id hlists).imp_right (hstray name id hlists)

/-- Nobody is listed in two territories of a board that is `ConsistentBut` for some. -/
theorem eq_of_lists (h : board.ConsistentBut stray) (hname : board.Lists name id)
    (hother : board.Lists other id) : name = other := by
  obtain ⟨territory, hmem, rfl, hid⟩ := hname
  obtain ⟨territory', hmem', rfl, hid'⟩ := hother
  by_contra hne
  have hdiffer : territory ≠ territory' := fun hsame => hne (congrArg Territory.name hsame)
  have hsymm : Std.Symm (Function.onFun List.Disjoint Territory.units) :=
    ⟨fun _ _ hdisjoint _ hid hid' => hdisjoint hid' hid⟩
  exact (List.nodup_flatMap.1 h.listed).2.forall hmem hmem' hdiffer hid hid'

end ConsistentBut

/-! ### Removal -/

/-- A `change` of a territory, but not of its name, keeps the names of all territories. -/
theorem map_name_updateTerritory {change : Territory → Territory}
    (hname : ∀ territory, (change territory).name = territory.name) (name : String)
    (territories : List Territory) :
    (updateTerritory name change territories).map Territory.name =
      territories.map Territory.name := by
  induction territories with
  | nil => rfl
  | cons territory rest ih =>
    rw [updateTerritory]
    split
    · rw [List.map_cons, List.map_cons, hname]
    · rw [List.map_cons, List.map_cons, ih]

/-- A territory after a `change` was there before, or is one that was changed. -/
theorem mem_updateTerritory {change : Territory → Territory} {territories : List Territory}
    {territory : Territory} (h : territory ∈ updateTerritory name change territories) :
    territory ∈ territories ∨ ∃ was ∈ territories, territory = change was := by
  induction territories with
  | nil => exact .inl h
  | cons first rest ih =>
    rw [updateTerritory] at h
    split at h
    · rcases List.mem_cons.1 h with rfl | h
      · exact .inr ⟨first, List.mem_cons_self, rfl⟩
      · exact .inl (List.mem_cons_of_mem first h)
    · rcases List.mem_cons.1 h with rfl | h
      · exact .inl List.mem_cons_self
      · rcases ih h with h | ⟨was, hwas, rfl⟩
        · exact .inl (List.mem_cons_of_mem first h)
        · exact .inr ⟨was, List.mem_cons_of_mem first hwas, rfl⟩

/-- Removal enters nobody in a list: whom the board lists after `removeUnits` it listed before. -/
theorem lists_of_removeUnits (h : (board.removeUnits name ids).2.Lists other id) :
    board.Lists other id := by
  cases hfound : board.territory? name with
  | none =>
    rw [removeUnits_of_unknown hfound] at h
    exact h
  | some found =>
    rw [removeUnits, hfound] at h
    obtain ⟨territory, hmem, hname, hid⟩ := h
    rcases mem_updateTerritory hmem with hmem | ⟨was, hwas, rfl⟩
    · exact ⟨territory, hmem, hname, hid⟩
    · exact ⟨was, hwas, hname, (List.mem_filter.1 hid).1⟩

/-- Nobody who is removed stays in the list that `removeUnits` clears. -/
theorem not_mem_of_lists_removeUnits (hnames : (board.territories.map Territory.name).Nodup)
    (hknown : board.Knows name) (h : (board.removeUnits name ids).2.Lists name id) :
    id ∉ ids := by
  obtain ⟨found, hfound⟩ := Option.isSome_iff_exists.1 hknown
  rw [removeUnits, hfound] at h
  obtain ⟨territory, hmem, hname, hid⟩ := h
  dsimp only at hmem
  rw [updateTerritory_eq_map hnames] at hmem
  obtain ⟨was, -, rfl⟩ := List.mem_map.1 hmem
  by_cases hsame : was.name = name
  · simp only [if_pos hsame, List.mem_filter, decide_eq_true_eq] at hid
    exact hid.2
  · rw [if_neg hsame] at hname
    exact absurd hname hsame

namespace ConsistentBut

/-- Removal clears the list of one territory; those among `ids` who are listed in another go
    astray. -/
theorem removeUnits (h : board.ConsistentBut stray)
    (hstray : ∀ other, other ≠ name → ∀ id ∈ ids, board.Lists other id → stray other id) :
    (board.removeUnits name ids).2.ConsistentBut stray := by
  by_cases hknown : board.Knows name
  · obtain ⟨found, hfound⟩ := Option.isSome_iff_exists.1 hknown
    have hunits : (board.removeUnits name ids).2.units =
        board.units.filter fun unit => unit.id ∉ ids := by
      rw [Board.removeUnits, hfound]
    have hterritories : (board.removeUnits name ids).2.territories =
        updateTerritory name (fun t => { t with units := t.units.filter (· ∉ ids) })
          board.territories := by
      rw [Board.removeUnits, hfound]
    refine ⟨?_, ?_, ?_, fun other id hlists => ?_⟩
    · rw [hunits]
      exact h.units.sublist (List.filter_sublist.map BoardUnit.id)
    · rw [hterritories, map_name_updateTerritory]
      · exact h.names
      · exact fun _ => rfl
    -- The lists are sublists of those before, territory by territory.
    · rw [hterritories, updateTerritory_eq_map h.names, List.flatMap_map]
      refine h.listed.sublist (List.Sublist.flatMap_right _ fun territory _ => ?_)
      split
      · exact List.filter_sublist
      · exact List.Sublist.refl _
    · have hbefore := lists_of_removeUnits hlists
      -- Who is removed is listed elsewhere at most, and so astray; all others are still there.
      by_cases hid : id ∈ ids
      · refine .inr (hstray other ?_ id hid hbefore)
        rintro rfl
        exact not_mem_of_lists_removeUnits h.names hknown hlists hid
      · have hsame : (board.removeUnits name ids).2.hasUnit id = board.hasUnit id := by
          rw [hasUnit, unit?_removeUnits hknown, if_neg hid]
          rfl
        rw [hsame]
        exact h.known other id hbefore
  · have hunknown : board.territory? name = none := by simpa [Knows] using hknown
    rw [removeUnits_of_unknown hunknown]
    exact h

end ConsistentBut

/-! ### Damage -/

/-- A `change` of a unit, but not of its number, keeps the numbers of all units. -/
theorem map_id_updateUnit {change : BoardUnit → BoardUnit}
    (hid : ∀ unit, (change unit).id = unit.id) (id : UnitId) (units : List BoardUnit) :
    (updateUnit id change units).map BoardUnit.id = units.map BoardUnit.id := by
  induction units with
  | nil => rfl
  | cons unit rest ih =>
    rw [updateUnit]
    split
    · rw [List.map_cons, List.map_cons, hid]
    · rw [List.map_cons, List.map_cons, ih]

/-- Damage by `markDamaged` changes neither the numbers of units nor territories. -/
theorem markDamaged_same (damaged : List (UnitId × Nat)) (board : Board) :
    (markDamaged damaged board).2.units.map BoardUnit.id = board.units.map BoardUnit.id ∧
      (markDamaged damaged board).2.territories = board.territories := by
  induction damaged generalizing board with
  | nil => exact ⟨rfl, rfl⟩
  | cons entry rest ih =>
    obtain ⟨id, taken⟩ := entry
    rw [markDamaged]
    split
    · exact ⟨rfl, rfl⟩
    · obtain ⟨hunits, hterritories⟩ := ih { board with
        units := updateUnit id (fun unit => { unit with hits := unit.hits + taken }) board.units }
      refine ⟨hunits.trans (map_id_updateUnit ?_ id board.units), hterritories⟩
      exact fun _ => rfl

/-- Damage changes nobody's place: `Lists` says the same after `markDamaged`. -/
theorem lists_markDamaged (damaged : List (UnitId × Nat)) :
    (markDamaged damaged board).2.Lists name id ↔ board.Lists name id := by
  rw [Lists, (markDamaged_same damaged board).2]
  rfl

/-- Nobody goes astray by being `damaged`. -/
theorem ConsistentBut.markDamaged (h : board.ConsistentBut stray)
    (damaged : List (UnitId × Nat)) :
    (markDamaged damaged board).2.ConsistentBut stray := by
  obtain ⟨hunits, hterritories⟩ := markDamaged_same damaged board
  refine ⟨?_, ?_, ?_, fun name id hlists => ?_⟩
  · rw [hunits]
    exact h.units
  · rw [hterritories]
    exact h.names
  · rw [hterritories]
    exact h.listed
  · rw [(standsIn_markDamaged damaged board id name).1]
    exact h.known name id ((lists_markDamaged damaged).1 hlists)

/-! ### After the losses of a group -/

variable {record : GroupRecord} {losses : Losses}

/-- Whom the board lists after it was `cleared` it listed before. -/
theorem lists_of_cleared (h : (board.cleared record losses).Lists name id) :
    board.Lists name id := by
  have hdead : (board.withoutDead record losses).Lists name id := by
    unfold cleared withoutSpent at h
    split at h
    · exact lists_of_removeUnits h
    · exact h
  unfold withoutDead at hdead
  split at hdead
  · exact lists_of_removeUnits hdead
  · exact hdead

/-- Guns that are spent stand in the territory, and so nowhere else: without them the board is
    `ConsistentBut` for the same. -/
theorem ConsistentBut.withoutSpent (h : board.ConsistentBut stray) (record : GroupRecord) :
    (board.withoutSpent record).ConsistentBut stray := by
  unfold Board.withoutSpent
  split
  · refine h.removeUnits fun other hother id hid hlists => ?_
    have hstands := (List.mem_filter.1 (List.mem_of_mem_take hid)).2
    exact absurd (h.eq_of_lists hlists (lists_of_standsIn hstands)) hother
  · exact h

/-- Of those who are taken off when the board is `cleared` after the `losses` of a group, only the
    dead can be listed in another territory. -/
theorem ConsistentBut.cleared (h : board.ConsistentBut stray)
    (hdead : record.group.removal = .removeFromBoard →
      ∀ name, name ≠ record.group.territory → ∀ id ∈ losses.killed, stray name id) :
    (board.cleared record losses).ConsistentBut stray := by
  have hcleared : (board.withoutDead record losses).ConsistentBut stray := by
    unfold withoutDead
    split
    · rename_i hremoved
      exact h.removeUnits fun name hname id hid _ => hdead hremoved.1 name hname id hid
    · exact h
  exact hcleared.withoutSpent record

end Flak.Board
