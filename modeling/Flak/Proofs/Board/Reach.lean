import Flak.Fire.Route
import Flak.Firing.Muster

namespace Flak.Board

/-!
# Who can shoot at whom

What the look-ups of units come to, in terms of the unit, its declared type and its anti-air:

* `unitWithType_eq_ok`, `ability?_eq_some` — a unit with its type, and with its anti-air;
* `InReach`, `canHit_iff` — the units that an ability can hit;
* `AbleToFire`, `canFireAt_iff` — the units that fire at others flying over.
-/

variable {board : Board} {id gun : UnitId} {unit : BoardUnit} {type : UnitType} {aa : AntiAir}
  {moving : List BoardUnit} {player : PlayerId} {exposed : List String}

/-- A unit has a type if it is found by `unit?` and its type by `unitType?`. -/
theorem unitWithType_eq_ok :
    board.unitWithType id = .ok (unit, type) ↔
      board.unit? id = some unit ∧ board.unitType? unit.typeName = some type := by
  unfold unitWithType
  constructor
  · intro h
    cases hunit : board.unit? id with
    | none => simp [hunit] at h
    | some found =>
      cases htype : board.unitType? found.typeName with
      | none => simp [hunit, htype] at h
      | some declared =>
        simp only [hunit, htype, Except.ok.injEq, Prod.mk.injEq] at h
        obtain ⟨rfl, rfl⟩ := h
        exact ⟨rfl, htype⟩
  · rintro ⟨hunit, htype⟩
    simp only [hunit, htype]

/-- The ability of a unit is that of its declared `type`. -/
theorem ability?_eq_some :
    board.ability? id = some aa ↔ ∃ unit type, board.unit? id = some unit ∧
      board.unitType? unit.typeName = some type ∧ type.aa = some aa := by
  unfold ability?
  constructor
  · intro h
    cases hfound : board.unitWithType id with
    | error fault => simp [hfound] at h
    | ok entry =>
      obtain ⟨unit, type⟩ := entry
      obtain ⟨hunit, htype⟩ := unitWithType_eq_ok.1 hfound
      exact ⟨unit, type, hunit, htype, by simpa [hfound] using h⟩
  · rintro ⟨unit, type, hunit, htype, haa⟩
    rw [unitWithType_eq_ok.2 ⟨hunit, htype⟩]
    exact haa

/-- A known unit, of a declared type that is not infrastructure, whose type is a target of the
    ability `aa`, or which is airborne and of an `exposed` type. -/
def InReach (board : Board) (aa : AntiAir) (exposed : List String) (id : UnitId) : Prop :=
  ∃ unit type, board.unit? id = some unit ∧ board.unitType? unit.typeName = some type ∧
    type.isInfrastructure = false ∧
      (unit.typeName ∈ aa.targets ∨ unit.airborne = true ∧ unit.typeName ∈ exposed)

/-- The check `canHit` decides whether a unit is `InReach`. -/
theorem canHit_iff : board.canHit aa exposed id = true ↔ board.InReach aa exposed id := by
  unfold canHit
  constructor
  · intro h
    cases hfound : board.unitWithType id with
    | error fault => simp [hfound] at h
    | ok entry =>
      obtain ⟨unit, type⟩ := entry
      obtain ⟨hunit, htype⟩ := unitWithType_eq_ok.1 hfound
      simp only [hfound, Bool.and_eq_true, Bool.or_eq_true, Bool.not_eq_true', AntiAir.canTarget,
        decide_eq_true_eq, List.contains_iff_mem] at h
      exact ⟨unit, type, hunit, htype, h⟩
  · rintro ⟨unit, type, hunit, htype, h⟩
    rw [unitWithType_eq_ok.2 ⟨hunit, htype⟩]
    simpa only [Bool.and_eq_true, Bool.or_eq_true, Bool.not_eq_true', AntiAir.canTarget,
      decide_eq_true_eq, List.contains_iff_mem] using h

instance (board : Board) (aa : AntiAir) (exposed : List String) (id : UnitId) :
    Decidable (board.InReach aa exposed id) :=
  decidable_of_iff _ canHit_iff

/-- A unit of a declared type with anti-air that fires at units flying over and has attacks to make.
    It is not carried and at war with the `player` of those who are `moving`, and one of these is of
    a type that it targets, or airborne and of a type that is exposed to its anti-air. -/
def AbleToFire (board : Board) (moving : List BoardUnit) (player : PlayerId) (gun : UnitId) : Prop :=
  ∃ unit type aa, board.unit? gun = some unit ∧ board.unitType? unit.typeName = some type ∧
    type.aa = some aa ∧ aa.firesOnFlyOver = true ∧ aa.maxAttacks ≠ 0 ∧ unit.transportedBy = none ∧
      board.atWar unit.owner player = true ∧
        ∃ quarry ∈ moving, quarry.typeName ∈ aa.targets ∨
          quarry.airborne = true ∧ quarry.typeName ∈ board.exposedTypes player aa.kind

/-- The check `canFireAt` decides whether a gun is `AbleToFire`. -/
theorem canFireAt_iff :
    board.canFireAt moving player gun = true ↔ board.AbleToFire moving player gun := by
  -- The check of one unit, for all that move.
  have hopen (unit : BoardUnit) (aa : AntiAir) :
      (aa.firesOnFlyOver && aa.maxAttacks ≠ 0 && unit.transportedBy.isNone &&
        board.atWar unit.owner player &&
        moving.any fun quarry => aa.canTarget quarry.typeName ||
          (quarry.airborne && (board.exposedTypes player aa.kind).contains quarry.typeName)) = true ↔
      aa.firesOnFlyOver = true ∧ aa.maxAttacks ≠ 0 ∧ unit.transportedBy = none ∧
        board.atWar unit.owner player = true ∧ ∃ quarry ∈ moving, quarry.typeName ∈ aa.targets ∨
          quarry.airborne = true ∧ quarry.typeName ∈ board.exposedTypes player aa.kind := by
    simp only [Bool.and_eq_true, Bool.or_eq_true, AntiAir.canTarget, decide_eq_true_eq,
      List.contains_iff_mem, Option.isNone_iff_eq_none, List.any_eq_true, and_assoc]
  unfold canFireAt
  constructor
  · intro h
    cases hfound : board.unitWithType gun with
    | error fault => simp [hfound] at h
    | ok entry =>
      obtain ⟨unit, type⟩ := entry
      obtain ⟨hunit, htype⟩ := unitWithType_eq_ok.1 hfound
      cases haa : type.aa with
      | none => simp [hfound, haa] at h
      | some aa =>
        simp only [hfound, haa] at h
        exact ⟨unit, type, aa, hunit, htype, haa, (hopen unit aa).1 h⟩
  · rintro ⟨unit, type, aa, hunit, htype, haa, h⟩
    rw [unitWithType_eq_ok.2 ⟨hunit, htype⟩]
    simp only [haa]
    exact (hopen unit aa).2 h

end Flak.Board
