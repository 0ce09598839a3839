import Flak.Proofs.Firing.Division

namespace Flak

/-!
# At what the guns of a group aim

Guns of several types can have anti-air of one kind and differ in what it is made for. What their group
can hit is found for its first gun; the others fire at that, whether they could reach it or not:

* `Muster.exposed` — the types that a group can hit while they are airborne;
* `Board.Disputed`, `Board.inReach_congr_iff` — the units that just one of two abilities can reach;
* `Board.mem_targets_iff` — the first gun of a group decides what the group can hit;
* `Board.eq_of_suicideOnHit` — guns that are spent on a hit have the ability of the first;
* `Board.targets_of_first` — so the targets are right for a gun just where it agrees with the first;
* `Crossfire`, `Board.not_targets_of_each` — a gun whose group can hit nothing that it can hit.
-/

namespace Muster

/-- The types that a group of this `kind` can hit while they are airborne, as the `muster` has
    it. -/
def exposed (muster : Muster) (board : Board) (kind : String) : List String :=
  if muster.airborneAllowed then board.exposedTypes muster.hitPlayer kind else []

end Muster

namespace Board

variable {board : Board} {muster : Muster} {group : FiringGroup} {aa own : AntiAir}
  {exposed : List String} {id gun : UnitId}

/-! ### Two abilities -/

/-- A known unit that is not infrastructure, and not open to both abilities, `aa` and `own`, for
    being airborne, whose type is a target of just one of them. -/
def Disputed (board : Board) (aa own : AntiAir) (exposed : List String) (id : UnitId) : Prop :=
  ∃ unit type, board.unit? id = some unit ∧ board.unitType? unit.typeName = some type ∧
    type.isInfrastructure = false ∧ ¬ (unit.airborne = true ∧ unit.typeName ∈ exposed) ∧
      ¬ (unit.typeName ∈ aa.targets ↔ unit.typeName ∈ own.targets)

/-- It does not matter which of the two abilities comes first: `Disputed` is symmetric. -/
theorem Disputed.symm (h : board.Disputed aa own exposed id) :
    board.Disputed own aa exposed id := by
  obtain ⟨unit, type, hunit, htype, hplain, hhidden, hdiffer⟩ := h
  exact ⟨unit, type, hunit, htype, hplain, hhidden, fun hsame => hdiffer hsame.symm⟩

/-- Where two abilities do not disagree, what is `InReach` of one is so of the other. -/
theorem InReach.of_not_disputed (h : board.InReach aa exposed id)
    (hagree : ¬ board.Disputed aa own exposed id) : board.InReach own exposed id := by
  obtain ⟨unit, type, hunit, htype, hplain, hopen⟩ := h
  refine ⟨unit, type, hunit, htype, hplain, ?_⟩
  by_contra hneither
  obtain ⟨hnot, hhidden⟩ := not_or.1 hneither
  have htarget := hopen.resolve_right hhidden
  exact hagree ⟨unit, type, hunit, htype, hplain, hhidden, fun hsame => hnot (hsame.1 htarget)⟩

/-- Whether a unit is `InReach` of two abilities is the same just if they do not disagree. -/
theorem inReach_congr_iff :
    (board.InReach aa exposed id ↔ board.InReach own exposed id) ↔
      ¬ board.Disputed aa own exposed id := by
  constructor
  · rintro hsame ⟨unit, type, hunit, htype, hplain, hhidden, hdiffer⟩
    have hreach (ability : AntiAir) :
        board.InReach ability exposed id ↔ unit.typeName ∈ ability.targets := by
      constructor
      · rintro ⟨unit', type', hunit', -, -, hopen⟩
        obtain rfl := Option.some.inj (hunit.symm.trans hunit')
        exact hopen.resolve_right hhidden
      · intro htarget
        exact ⟨unit, type, hunit, htype, hplain, .inl htarget⟩
    rw [hreach, hreach] at hsame
    exact hdiffer hsame
  · intro hagree
    exact ⟨fun h => h.of_not_disputed hagree,
      fun h => h.of_not_disputed fun hdisputed => hagree hdisputed.symm⟩

/-! ### The guns of a group -/

/-- The first gun of the `group`, at the head of its `firingUnits`, decides what the group can
    hit. -/
theorem mem_targets_iff (h : group ∈ board.muster muster) :
    ∃ first aa, group.firingUnits.head? = some first ∧ board.ability? first = some aa ∧
      ∀ id, id ∈ group.targets ↔ id ∈ muster.candidates ∧
        board.InReach aa (muster.exposed board group.kind) id := by
  obtain ⟨kind, members, first, aa, -, hhead, hability, rfl⟩ := exists_of_mem_muster h
  refine ⟨first, aa, hhead, hability, fun id => ?_⟩
  rw [← canHit_iff]
  exact List.mem_filter

/-- Guns of a `group` that are spent on a hit are of one type, so that they have one ability. -/
theorem eq_of_suicideOnHit (hnames : (board.unitTypes.map UnitType.name).Nodup)
    (h : group ∈ board.muster muster) (hsuicide : group.suicideOnHit = true)
    {other : UnitId} (hgun : gun ∈ group.firingUnits) (hother : other ∈ group.firingUnits)
    (haa : board.ability? gun = some aa) (hown : board.ability? other = some own) : aa = own := by
  have hkey := firingKey?_of_mem_muster hnames h hgun
  have hspent : (board.groupKey group).spentType.isSome = true := by
    rw [← suicideOnHit_of_firingKey? hkey haa, suicideOnHit_of_mem_muster hnames h hgun haa]
    exact hsuicide
  obtain ⟨name, hname⟩ := Option.isSome_iff_exists.1 hspent
  have hdeclared := ability?_of_spentType hkey hname
  have hdeclared' := ability?_of_spentType (firingKey?_of_mem_muster hnames h hother) hname
  rw [haa] at hdeclared
  rw [hown] at hdeclared'
  exact Option.some.inj (hdeclared.trans hdeclared'.symm)

/-- What the `group` can hit, its `targets`, are the candidates `InReach` of its first gun. For
    another of its guns the targets are right but for those candidates that are `Disputed` between
    its ability and that of the first; guns that are spent on a hit agree about all. -/
theorem targets_of_first (hnames : (board.unitTypes.map UnitType.name).Nodup)
    (h : group ∈ board.muster muster) :
    ∃ first aa, group.firingUnits.head? = some first ∧ board.ability? first = some aa ∧
      (∀ id, id ∈ group.targets ↔ id ∈ muster.candidates ∧
        board.InReach aa (muster.exposed board group.kind) id) ∧
      ∀ gun ∈ group.firingUnits, ∃ own, board.ability? gun = some own ∧ own.kind = group.kind ∧
        (group.suicideOnHit = true → own = aa) ∧
        ∀ id ∈ muster.candidates,
          (id ∈ group.targets ↔ board.InReach own (muster.exposed board group.kind) id) ↔
            ¬ board.Disputed aa own (muster.exposed board group.kind) id := by
  obtain ⟨first, aa, hhead, hability, htargets⟩ := mem_targets_iff h
  refine ⟨first, aa, hhead, hability, htargets, fun gun hgun => ?_⟩
  obtain ⟨-, own, hown, hkind⟩ := ability_of_mem_muster h hgun
  refine ⟨own, hown, hkind, fun hsuicide => ?_, fun id hid => ?_⟩
  · exact eq_of_suicideOnHit hnames h hsuicide hgun (List.mem_of_head? hhead) hown hability
  · rw [← inReach_congr_iff, htargets, and_iff_right hid]

end Board

/-! ### Guns for bombers and for fighters -/

namespace Crossfire

/-- The ability to hit a `Bomber`. -/
def bomberFlak : AntiAir := ⟨"Flak", 6, none, -1, ["Bomber"], true, false⟩

/-- The ability to hit a `Fighter`, of the same kind. -/
def fighterFlak : AntiAir := ⟨"Flak", 6, none, -1, ["Fighter"], true, false⟩

/-- A `board` with a gun that is made for bombers, one of the same kind that is made for fighters,
    and one of each to shoot at. -/
def board : Board where
  unitTypes := [
    ⟨"Gun", 1, false, some bomberFlak⟩,
    ⟨"Turret", 1, false, some fighterFlak⟩,
    ⟨"Bomber", 1, false, none⟩,
    ⟨"Fighter", 1, false, none⟩]
  units := [
    ⟨⟨1⟩, "Gun", ⟨"Blues"⟩, 0, 0, false, none⟩,
    ⟨⟨2⟩, "Turret", ⟨"Blues"⟩, 0, 0, false, none⟩,
    ⟨⟨3⟩, "Bomber", ⟨"Reds"⟩, 0, 0, false, none⟩,
    ⟨⟨4⟩, "Fighter", ⟨"Reds"⟩, 0, 0, false, none⟩]
  territories := [⟨"Fort", ⟨"Blues"⟩, [⟨1⟩, ⟨2⟩]⟩]

/-- A `muster` of both guns, for both planes. -/
def muster : Muster where
  territory := "Fort"
  aaUnits := [⟨1⟩, ⟨2⟩]
  candidates := [⟨3⟩, ⟨4⟩]
  hitPlayer := ⟨"Reds"⟩
  firingPlayer := none
  airborneAllowed := true
  removal := .returnToHost

/-- The guns fire together at the bomber. -/
def group : FiringGroup where
  territory := "Fort"
  kind := "Flak"
  firingPlayer := ⟨"Blues"⟩
  hitPlayer := ⟨"Reds"⟩
  firingUnits := [⟨1⟩, ⟨2⟩]
  targets := [⟨3⟩]
  suicideOnHit := false
  removal := .returnToHost

/-- Each type of the `board` has a name of its own. -/
theorem distinct_names : (board.unitTypes.map UnitType.name).Nodup := by decide

/-- The `muster` comes to one group. -/
theorem muster_eq : board.muster muster = [group] := by
  have hkind : (muster.aaUnits.filterMap fun unit =>
      (board.ability? unit).map AntiAir.kind).eraseDups = ["Flak"] := by decide
  rw [Board.muster_of_kind hkind]
  decide

/-- So the `group` is the one that is formed. -/
theorem mem_muster : group ∈ board.muster muster := by
  rw [muster_eq]
  exact List.mem_singleton.2 rfl

end Crossfire

namespace Board

/-- In the `Crossfire` the two guns disagree about both candidates, so that the targets are wrong
    for the second. -/
theorem targets_of_first_crossfire :
    Crossfire.group ∈ Crossfire.board.muster Crossfire.muster ∧
      Crossfire.board.ability? ⟨2⟩ = some Crossfire.fighterFlak ∧
      ∀ id ∈ Crossfire.muster.candidates, ¬ (id ∈ Crossfire.group.targets ↔
        Crossfire.board.InReach Crossfire.fighterFlak
          (Crossfire.muster.exposed Crossfire.board Crossfire.group.kind) id) := by
  obtain ⟨first, aa, hhead, hability, -, hguns⟩ :=
    targets_of_first Crossfire.distinct_names Crossfire.mem_muster
  obtain rfl : ⟨1⟩ = first := Option.some.inj hhead
  obtain rfl : Crossfire.bomberFlak = aa := Option.some.inj hability
  obtain ⟨own, hown, -, -, htargets⟩ := hguns ⟨2⟩ (by decide)
  obtain rfl : Crossfire.fighterFlak = own := Option.some.inj hown
  refine ⟨Crossfire.mem_muster, rfl, fun id hid hright => (htargets id hid).1 hright ?_⟩
  rcases List.mem_pair.1 hid with rfl | rfl
  · exact ⟨_, _, rfl, rfl, rfl, by decide, by decide⟩
  · exact ⟨_, _, rfl, rfl, rfl, by decide, by decide⟩

/-- The `targets` of a group need not be right for each of its guns. -/
theorem not_targets_of_each :
    ¬ ∀ (board : Board) (muster : Muster) (group : FiringGroup) (gun id : UnitId) (own : AntiAir),
        (board.unitTypes.map UnitType.name).Nodup → group ∈ board.muster muster →
        gun ∈ group.firingUnits → board.ability? gun = some own → id ∈ muster.candidates →
        (id ∈ group.targets ↔ board.InReach own (muster.exposed board group.kind) id) := by
  intro hall
  have hright := hall Crossfire.board Crossfire.muster Crossfire.group ⟨2⟩ ⟨3⟩ _
    Crossfire.distinct_names Crossfire.mem_muster (by decide) rfl (by decide)
  revert hright
  decide

end Board

end Flak
