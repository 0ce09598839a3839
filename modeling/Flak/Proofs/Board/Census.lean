import Flak.Board.Census
import Mathlib.Algebra.BigOperators.Group.List.Lemmas
import Mathlib.Algebra.GroupWithZero.Nat
import Mathlib.Data.List.Perm.Basic

namespace Flak

/-!
# A census counts every unit once

A census goes through units one by one and keeps a count for each name that has come up. What it
ends with can be said without the way there:

* `tally` — each of some names once, where it first comes up, beside how often it does;
* `Board.countOne_tally`, `Board.census_eq` — one more name of a tally, and so a census is one;
* `tally_perm`, `sum_tally` — the order of the names decides only the order of a tally, and its
  counts come to the number of names;
* `Board.census_accounts` — all of this for the census of units and its words;
* `Board.census_accounts_squadron` — three units on the board and two that are not.
-/

/-! ### Tallies -/

theorem nodup_eraseDups {α : Type} [BEq α] [LawfulBEq α] (items : List α) :
    items.eraseDups.Nodup := by
  cases items with
  | nil => simp
  | cons item rest =>
    rw [List.eraseDups_cons, List.nodup_cons]
    constructor
    · simp [List.mem_eraseDups]
    · exact nodup_eraseDups _
termination_by items.length
decreasing_by
  have hshorter := List.length_filter_le (fun other => !other == item) rest
  rw [List.length_cons]
  omega

/-- Each of the `names` once, where it first comes up, and how often it does. -/
def tally (names : List String) : List (String × Nat) :=
  names.eraseDups.map fun name => (name, names.count name)

variable {names others : List String}

/-- A name that has come up before stays where it is under `eraseDups`, and a new one comes last. -/
theorem eraseDups_concat (names : List String) (name : String) :
    (names ++ [name]).eraseDups =
      if name ∈ names then names.eraseDups else names.eraseDups ++ [name] := by
  rw [List.eraseDups_append]
  by_cases hmem : name ∈ names
  · simp [List.removeAll, hmem]
  · simp [List.removeAll, hmem, List.eraseDups_cons]

/-- The `tally` of names in another order has the same entries in another order. -/
theorem tally_perm (h : others.Perm names) : (tally others).Perm (tally names) := by
  have hdistinct : others.eraseDups.Perm names.eraseDups := by
    rw [List.perm_ext_iff_of_nodup (nodup_eraseDups others) (nodup_eraseDups names)]
    intro name
    rw [List.mem_eraseDups, List.mem_eraseDups, h.mem_iff]
  have hcounts : (fun name => (name, others.count name)) =
      fun name => (name, names.count name) := by
    funext name
    rw [h.count_eq]
  rw [tally, tally, hcounts]
  exact hdistinct.map _

/-- The counts of a `tally` come to the number of names. -/
theorem sum_tally (names : List String) : ((tally names).map Prod.snd).sum = names.length := by
  have hdistinct : names.eraseDups.Perm names.dedup := by
    rw [List.perm_ext_iff_of_nodup (nodup_eraseDups names) (List.nodup_dedup names)]
    intro name
    rw [List.mem_eraseDups, List.mem_dedup]
  calc ((tally names).map Prod.snd).sum
      = (names.eraseDups.map names.count).sum := by rw [tally, List.map_map]; rfl
    _ = (names.dedup.map names.count).sum := (hdistinct.map _).sum_eq
    _ = names.length := List.sum_map_count_dedup_eq_length names

/-! ### Counting one by one -/

namespace Board

/-- One more of a name that is counted adds to its `count` only. -/
theorem countOne_of_mem {seen : List String} (hseen : seen.Nodup) {name : String}
    (hmem : name ∈ seen) (count : String → Nat) :
    countOne name (seen.map fun other => (other, count other)) =
      seen.map fun other => (other, count other + if other = name then 1 else 0) := by
  induction seen with
  | nil => cases hmem
  | cons first rest ih =>
    obtain ⟨hfirst, hrest⟩ := List.nodup_cons.1 hseen
    rw [List.map_cons, List.map_cons, countOne]
    by_cases hsame : first = name
    · -- No other entry bears the name.
      have hothers : ∀ other ∈ rest, (other, count other) =
          (other, count other + if other = name then 1 else 0) := by
        intro other hother
        have hne : other ≠ name := fun h => hfirst (hsame ▸ h ▸ hother)
        rw [if_neg hne, Nat.add_zero]
      rw [if_pos hsame, if_pos hsame, List.map_congr_left hothers]
    · have hlater : name ∈ rest := (List.mem_cons.1 hmem).resolve_left (Ne.symm hsame)
      rw [if_neg hsame, if_neg hsame, Nat.add_zero, ih hrest hlater]

/-- A name that has no count gets one behind all others by `countOne`. -/
theorem countOne_of_not_mem {seen : List String} {name : String} (hnew : name ∉ seen)
    (count : String → Nat) :
    countOne name (seen.map fun other => (other, count other)) =
      (seen.map fun other => (other, count other)) ++ [(name, 1)] := by
  induction seen with
  | nil => rfl
  | cons first rest ih =>
    obtain ⟨hfirst, hrest⟩ := not_or.1 (mt List.mem_cons.2 hnew)
    rw [List.map_cons, countOne, if_neg (Ne.symm hfirst), ih hrest, List.cons_append]

/-- To count one more name makes the `tally` of all names so far. -/
theorem countOne_tally (names : List String) (name : String) :
    countOne name (tally names) = tally (names ++ [name]) := by
  have hcount (other : String) : (names ++ [name]).count other =
      names.count other + if other = name then 1 else 0 := by
    rw [List.count_append, List.count_singleton]
    by_cases hsame : other = name
    · simp [hsame]
    · simp [hsame, Ne.symm hsame]
  simp only [tally, eraseDups_concat, hcount]
  -- A name that came up before has its count raised, and a new one goes to the end.
  by_cases hmem : name ∈ names
  · rw [if_pos hmem]
    exact countOne_of_mem (nodup_eraseDups names) (List.mem_eraseDups.2 hmem) names.count
  · rw [if_neg hmem, countOne_of_not_mem (mt List.mem_eraseDups.1 hmem), List.map_append]
    congr 1
    · refine List.map_congr_left fun other hother => ?_
      have hne : other ≠ name := fun h => hmem (h ▸ List.mem_eraseDups.1 hother)
      rw [if_neg hne, Nat.add_zero]
    · simp [List.count_eq_zero.2 hmem]

/-- A `census` is the `tally` of the `censusName` of each unit. -/
theorem census_eq (board : Board) (units : List UnitId) :
    board.census units = tally (units.map board.censusName) := by
  -- The counts after the units so far are the tally of their names.
  induction units using List.reverseRecOn with
  | nil => rfl
  | append_singleton units unit ih =>
    rw [census] at ih ⊢
    rw [List.foldl_append, ih, List.map_append]
    exact countOne_tally _ _

/-- A unit counts under the name of its type, or under its number if it is not on the `board`. -/
theorem censusName_eq (board : Board) (unit : UnitId) :
    board.censusName unit =
      ((board.unit? unit).map BoardUnit.typeName).getD s!"unit #{unit.number}" := by
  unfold censusName
  cases board.unit? unit <;> rfl

/-! ### The census of units -/

/-- A `census` names each type among the `units` once, in the order in which they first come up, and
    says how many of the units listed bear the name; a unit that is not on the `board` goes by its
    number. The counts come to the number of units, and in another order of the units they are the
    same in another order. -/
theorem census_accounts (board : Board) (units others : List UnitId) (h : others.Perm units) :
    let names := units.map fun unit =>
      ((board.unit? unit).map BoardUnit.typeName).getD s!"unit #{unit.number}"
    board.census units = (names.eraseDups.map fun name => (name, names.count name)) ∧
      board.censusText units =
        ", ".intercalate (names.eraseDups.map fun name => s!"{names.count name} {name}") ∧
      ((board.census units).map Prod.snd).sum = units.length ∧
      (board.census others).Perm (board.census units) := by
  intro names
  have hnames : units.map board.censusName = names :=
    List.map_congr_left fun unit _ => board.censusName_eq unit
  have hcensus : board.census units = tally names := by rw [census_eq, hnames]
  refine ⟨hcensus, ?_, ?_, ?_⟩
  · rw [censusText, hcensus, tally, List.map_map]
    rfl
  · rw [hcensus, sum_tally, List.length_map]
  · rw [census_eq, census_eq]
    exact tally_perm (h.map _)

/-- A bomber, a gun, a number that nobody has, another gun and that number again: in the `census`
    the two guns and the two strangers count together, and the other way round the strangers come
    first. -/
theorem census_accounts_squadron :
    let board : Board := { units := [⟨⟨1⟩, "Bomber", ⟨"Reds"⟩, 0, 4, true, none⟩,
      ⟨⟨2⟩, "Gun", ⟨"Blues"⟩, 0, 0, false, none⟩, ⟨⟨3⟩, "Gun", ⟨"Blues"⟩, 0, 0, false, none⟩] }
    let units : List UnitId := [⟨1⟩, ⟨2⟩, ⟨7⟩, ⟨3⟩, ⟨7⟩]
    units.reverse.Perm units ∧ board.censusText units = "1 Bomber, 2 Gun, 2 unit #7" ∧
      board.census units.reverse = [("unit #7", 2), ("Gun", 2), ("Bomber", 1)] ∧
      (board.census units.reverse).Perm (board.census units) := by
  intro board units
  have hperm : units.reverse.Perm units := units.reverse_perm
  obtain ⟨-, htext, -, hentries⟩ := census_accounts board units units.reverse hperm
  refine ⟨hperm, ?_, ?_, hentries⟩
  · rw [htext]
    cbv
  · cbv

end Board

end Flak
