import Flak.Proofs.Board.Wear
import Flak.Proofs.Losses.Check
import Mathlib.Data.List.Nodup

namespace Flak

/-!
# What is left of a board

On a board where neither numbers of units nor names of territories come up twice, all that fire can
do is to take units off and to add hits:

* `Board.reduced` — a board after that, with everything else as it was;
* `Board.markDamaged_reduced`, `Board.removeUnits_reduced` — damage and removal reduce a board
  further;
* `Board.unit?_reduced`, `Board.standsIn_reduced`, `Board.hitPointsLeft_reduced` — what is found on
  such a board.
-/

/-- The hits that entries of damage hold for the unit `id`. -/
def Losses.damageIn (damaged : List (UnitId × Nat)) (id : UnitId) : Nat :=
  ((damaged.filter fun entry => entry.1 = id).map Prod.snd).sum

/-- The first `entry` counts if it is the unit's own, and the `rest` anyway. -/
theorem Losses.damageIn_cons (entry : UnitId × Nat) (rest : List (UnitId × Nat)) (id : UnitId) :
    damageIn (entry :: rest) id = (if id = entry.1 then entry.2 else 0) + damageIn rest id := by
  by_cases h : id = entry.1
  · simp [damageIn, h]
  · have hne : entry.1 ≠ id := fun heq => h heq.symm
    simp [damageIn, h, hne]

/-- A unit that is not `damaged` takes no hits. -/
theorem Losses.damageIn_eq_zero {damaged : List (UnitId × Nat)} {id : UnitId}
    (h : ∀ entry ∈ damaged, entry.1 ≠ id) : damageIn damaged id = 0 := by
  have hnone : damaged.filter (fun entry => entry.1 = id) = [] :=
    List.filter_eq_nil_iff.2 fun entry hentry => by simpa using h entry hentry
  rw [damageIn, hnone]
  rfl

/-- Where no unit comes up twice, an entry holds all the hits of its unit, which are its
    `damageIn`. -/
theorem Losses.damageIn_of_mem {damaged : List (UnitId × Nat)} {id : UnitId} {taken : Nat}
    (hdistinct : (damaged.map Prod.fst).Nodup) (h : (id, taken) ∈ damaged) :
    damageIn damaged id = taken := by
  induction damaged with
  | nil => simp at h
  | cons entry rest ih =>
    obtain ⟨hentry, hrest⟩ := List.nodup_cons.1 hdistinct
    rw [damageIn_cons]
    rcases List.mem_cons.1 h with rfl | h
    · have hnone : damageIn rest id = 0 :=
        damageIn_eq_zero fun other hother hsame =>
          hentry (List.mem_map.2 ⟨other, hother, hsame⟩)
      rw [if_pos rfl, hnone, Nat.add_zero]
    · have hne : id ≠ entry.1 := fun heq => hentry (List.mem_map.2 ⟨(id, taken), h, heq⟩)
      rw [if_neg hne, Nat.zero_add, ih hrest h]

/-- Where no unit comes up twice, the `damageIn` of a unit is that of its entry, or nothing. -/
theorem Losses.damageIn_cases {damaged : List (UnitId × Nat)}
    (hdistinct : (damaged.map Prod.fst).Nodup) (id : UnitId) :
    damageIn damaged id = 0 ∨
      ∃ taken, (id, taken) ∈ damaged ∧ damageIn damaged id = taken := by
  induction damaged with
  | nil => exact .inl rfl
  | cons entry rest ih =>
    obtain ⟨hentry, hrest⟩ := List.nodup_cons.1 hdistinct
    rw [damageIn_cons]
    by_cases h : id = entry.1
    -- The unit comes up once, so the rest holds nothing for it.
    · have hnone : damageIn rest id = 0 := by
        refine damageIn_eq_zero fun other hother hsame => hentry ?_
        rw [← h, ← hsame]
        exact List.mem_map_of_mem hother
      refine .inr ⟨entry.2, by simp [h], ?_⟩
      rw [if_pos h, hnone, Nat.add_zero]
    · rw [if_neg h, Nat.zero_add]
      rcases ih hrest with hzero | ⟨taken, hmem, htaken⟩
      · exact .inl hzero
      · exact .inr ⟨taken, List.mem_cons_of_mem entry hmem, htaken⟩

namespace Board

/-- The `board` without the units that are `gone`, with territories without the units that have
    `left` them, and with `hits` added. -/
def reduced (gone : UnitId → Bool) (left : String → UnitId → Bool) (hits : UnitId → Nat)
    (board : Board) : Board :=
  { board with
    units := (board.units.filter fun unit => !gone unit.id).map fun unit =>
      { unit with hits := unit.hits + hits unit.id }
    territories := board.territories.map fun territory =>
      { territory with units := territory.units.filter fun id => !left territory.name id } }

variable {board : Board} {gone : UnitId → Bool} {left : String → UnitId → Bool}
  {hits : UnitId → Nat}

/-- The `board` without any change is the board itself. -/
theorem reduced_nothing (board : Board) :
    board.reduced (fun _ => false) (fun _ _ => false) (fun _ => 0) = board := by
  have hunits : (board.units.filter fun _ => !false).map
      (fun unit => { unit with hits := unit.hits + 0 }) = board.units := by simp
  have hterritories : board.territories.map (fun territory =>
      { territory with units := territory.units.filter fun _ => !false }) =
        board.territories := by simp
  rw [reduced, hunits, hterritories]

/-! ### What is found -/

/-- On the `reduced` board a unit is found unless it is gone, with the hits it has taken. -/
theorem unit?_reduced (id : UnitId) :
    (board.reduced gone left hits).unit? id =
      if gone id then none
      else (board.unit? id).map fun unit => { unit with hits := unit.hits + hits id } := by
  have hfind : (board.reduced gone left hits).unit? id =
      ((board.units.filter fun unit => !gone unit.id).find? fun unit => unit.id = id).map
        fun unit => { unit with hits := unit.hits + hits unit.id } := by
    rw [unit?, reduced, List.find?_map]
    rfl
  rw [hfind, find?_filter_units fun id => !gone id]
  cases hgone : gone id with
  | true => simp
  | false =>
    cases hunit : board.units.find? fun unit => unit.id = id with
    | none => simp [unit?, hunit]
    | some unit =>
      have hid : unit.id = id := by simpa using List.find?_some hunit
      simp [unit?, hunit, hid]

/-- On the `reduced` board a territory is found without the units that have left it. -/
theorem territory?_reduced (name : String) :
    (board.reduced gone left hits).territory? name =
      (board.territory? name).map fun territory =>
        { territory with units := territory.units.filter fun id => !left name id } := by
  have hfind : (board.reduced gone left hits).territory? name =
      (board.territories.find? fun territory => territory.name = name).map fun territory =>
        { territory with units := territory.units.filter fun id => !left territory.name id } := by
    rw [territory?, reduced, List.find?_map]
    rfl
  rw [hfind, territory?]
  cases hterritory : board.territories.find? fun territory => territory.name = name with
  | none => rfl
  | some territory =>
    have hname : territory.name = name := by simpa using List.find?_some hterritory
    simp [hname]

/-- A unit that stands somewhere on the `reduced` board stood there before and is not `gone`. -/
theorem standsIn_reduced {id : UnitId} {name : String}
    (h : (board.reduced gone left hits).standsIn id name = true) :
    gone id = false ∧ board.standsIn id name = true := by
  obtain ⟨hunit, hterritory⟩ := Bool.and_eq_true_iff.1 h
  rw [hasUnit, unit?_reduced] at hunit
  rw [territory?_reduced] at hterritory
  cases hgone : gone id with
  | true => simp [hgone] at hunit
  | false =>
    have hhas : board.hasUnit id = true := by
      simpa [hgone, hasUnit] using hunit
    cases hfound : board.territory? name with
    | none => simp [hfound] at hterritory
    | some territory =>
      simp only [hfound, Option.map_some, decide_eq_true_eq] at hterritory
      have hmem : id ∈ territory.units := (List.mem_filter.1 hterritory).1
      simp [standsIn, hhas, hfound, hmem]

/-- The `hits` that were added are hit points lost. -/
theorem hitPointsLeft_reduced {id : UnitId} (hgone : gone id = false) :
    (board.reduced gone left hits).hitPointsLeft id = board.hitPointsLeft id - hits id := by
  rw [hitPointsLeft, hitPointsLeft, unitWithType, unitWithType, unit?_reduced, hgone]
  cases board.unit? id with
  | none => simp
  | some unit =>
    have htypes : (board.reduced gone left hits).unitType? unit.typeName =
        board.unitType? unit.typeName := rfl
    simp only [Bool.false_eq_true, if_false, Option.map_some, htypes]
    cases board.unitType? unit.typeName with
    | none => simp
    | some type =>
      simp only [BoardUnit.hitPointsLeft]
      omega

/-! ### Changes -/

/-- Changing all `entries` with a key that does not come up changes nothing. -/
theorem map_of_absent {α β : Type} [DecidableEq β] {key : α → β} {wanted : β} {entries : List α}
    (h : wanted ∉ entries.map key) (change : α → α) :
    entries.map (fun entry => if key entry = wanted then change entry else entry) = entries := by
  refine (List.map_congr_left fun entry hentry => if_neg fun hsame => h ?_).trans (List.map_id' _)
  rw [← hsame]
  exact List.mem_map_of_mem hentry

/-- Where numbers are distinct, changing the first unit with a number, by `updateUnit`, is changing
    all of them. -/
theorem updateUnit_eq_map {change : BoardUnit → BoardUnit} {units : List BoardUnit}
    (hids : (units.map BoardUnit.id).Nodup) (id : UnitId) :
    updateUnit id change units =
      units.map fun unit => if unit.id = id then change unit else unit := by
  induction units with
  | nil => rfl
  | cons unit rest ih =>
    obtain ⟨hunit, hrest⟩ := List.nodup_cons.1 hids
    rw [updateUnit, List.map_cons, ih hrest]
    split
    · rename_i heq
      rw [map_of_absent (heq ▸ hunit)]
    · rfl

/-- Where names are distinct, changing the first territory of a name, by `updateTerritory`, is
    changing all of them. -/
theorem updateTerritory_eq_map {change : Territory → Territory} {territories : List Territory}
    (hnames : (territories.map Territory.name).Nodup) (name : String) :
    updateTerritory name change territories =
      territories.map fun territory =>
        if territory.name = name then change territory else territory := by
  induction territories with
  | nil => rfl
  | cons territory rest ih =>
    obtain ⟨hterritory, hrest⟩ := List.nodup_cons.1 hnames
    rw [updateTerritory, List.map_cons, ih hrest]
    split
    · rename_i heq
      rw [map_of_absent (heq ▸ hterritory)]
    · rfl

/-- Damage to units that are there adds to the `hits` of the `reduced` board. -/
theorem markDamaged_reduced (hids : (board.units.map BoardUnit.id).Nodup)
    {damaged : List (UnitId × Nat)}
    (hknown : ∀ entry ∈ damaged, (board.reduced gone left hits).hasUnit entry.1 = true) :
    (markDamaged damaged (board.reduced gone left hits)).2 =
      board.reduced gone left fun id => hits id + Losses.damageIn damaged id := by
  induction damaged generalizing hits with
  | nil => rfl
  | cons entry rest ih =>
    obtain ⟨id, taken⟩ := entry
    have hhas := hknown (id, taken) List.mem_cons_self
    obtain ⟨unit, hunit⟩ := Option.isSome_iff_exists.1 hhas
    -- The first entry adds hits, and the others are added to these.
    have hone : ({ board.reduced gone left hits with
        units := updateUnit id (fun unit => { unit with hits := unit.hits + taken })
          (board.reduced gone left hits).units } : Board) =
        board.reduced gone left fun other => hits other + if other = id then taken else 0 := by
      have hdistinct : ((board.reduced gone left hits).units.map BoardUnit.id).Nodup := by
        rw [reduced, List.map_map]
        exact hids.sublist (List.filter_sublist.map BoardUnit.id)
      rw [updateUnit_eq_map hdistinct]
      simp only [reduced, List.map_map, mk.injEq, and_true, true_and]
      refine List.map_congr_left fun other _ => ?_
      by_cases hother : other.id = id
      · simp [hother, Nat.add_assoc]
      · simp [hother]
    rw [markDamaged, hunit]
    dsimp only
    rw [hone, ih]
    · congr 1
      funext other
      rw [Losses.damageIn_cons, Nat.add_assoc]
    · intro entry hentry
      have hentry := hknown entry (List.mem_cons_of_mem _ hentry)
      rw [hasUnit, unit?_reduced] at hentry ⊢
      split
      · rename_i hgone
        simp [hgone] at hentry
      · rename_i hgone
        simpa [hgone] using hentry

/-- Removal by `removeUnits` takes units off the `reduced` board, and out of the territory. -/
theorem removeUnits_reduced (hnames : (board.territories.map Territory.name).Nodup)
    {name : String} (hknown : board.Knows name) (ids : List UnitId) :
    ((board.reduced gone left hits).removeUnits name ids).2 =
      board.reduced (fun id => gone id || id ∈ ids)
        (fun other id => left other id || (other = name && id ∈ ids)) hits := by
  obtain ⟨territory, hterritory⟩ := Option.isSome_iff_exists.1 hknown
  have hfound := @territory?_reduced board gone left hits name
  rw [hterritory] at hfound
  -- The territories have the names they had, so that one of them is changed.
  have hdistinct : ((board.reduced gone left hits).territories.map Territory.name).Nodup := by
    rw [reduced, List.map_map]
    exact hnames
  rw [removeUnits, hfound]
  dsimp only [Option.map_some]
  rw [updateTerritory_eq_map hdistinct]
  simp only [reduced, List.filter_map, List.map_map, List.filter_filter, mk.injEq, and_true,
    true_and]
  constructor
  · congr 1
    refine List.filter_congr fun unit _ => ?_
    cases gone unit.id <;> simp
  · refine List.map_congr_left fun other _ => ?_
    by_cases hother : other.name = name
    · simp [hother, List.filter_filter, Bool.and_comm]
    · simp [hother]

end Board

end Flak
