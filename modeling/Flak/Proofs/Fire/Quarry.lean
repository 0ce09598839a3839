import Flak.Proofs.Fire.Additions

namespace Flak

/-!
# What a group finds to hit when it is formed

Whether anything in a territory fires is decided by what each of its units can shoot at; what a group
can hit is decided among the candidates, and no infrastructure is hit.

* `Board.Vulnerable` — a unit of a declared type that is not infrastructure;
* `Board.exists_gun_of_mem_muster` — the first gun of a group decides what the group can hit;
* `Board.targets_ne_nil` — a group that is formed because of vulnerable units can hit one;
* `Plan.exists_standing_gun`, `Plan.openTargets_of_groupsOn` — right after a plan its groups have a
  gun that stands there, and whoever they can hit is there, too.
-/

variable {ρ : Type} {scene : Scene ρ}

namespace Board

variable {board : Board} {muster : Muster} {group : FiringGroup}

/-- Whether a unit of the `board` is of a declared type that is not infrastructure. -/
def Vulnerable (board : Board) (id : UnitId) : Prop :=
  ∃ entry, board.unitWithType id = .ok entry ∧ entry.2.isInfrastructure = false

/-- Whoever was `Vulnerable` is so as long as it is there. -/
theorem Worn.vulnerable {before after : Board} (h : before.Worn after) {id : UnitId}
    (hthere : after.hasUnit id = true) (hvulnerable : before.Vulnerable id) :
    after.Vulnerable id := by
  obtain ⟨⟨unit, type⟩, hfound, hplain⟩ := hvulnerable
  rcases h.unit? id with hgone | ⟨was, hits, hwas, his⟩
  · simp [hasUnit, hgone] at hthere
  · obtain ⟨hunit, htype⟩ := unitWithType_eq_ok.1 hfound
    obtain rfl := Option.some.inj (hwas.symm.trans hunit)
    have htype' : after.unitType? was.typeName = some type := by
      rw [unitType?, h.unitTypes]
      exact htype
    exact ⟨({ was with hits }, type), unitWithType_eq_ok.2 ⟨his, htype'⟩, hplain⟩

/-! ### Groups in a muster -/

/-- The first gun of the `group` is of its kind, and it decides what the group can hit. -/
theorem exists_gun_of_mem_muster (h : group ∈ board.muster muster) :
    ∃ gun ∈ group.firingUnits, ∃ aa, gun ∈ muster.aaUnits ∧ board.ability? gun = some aa ∧
      aa.kind = group.kind ∧ group.targets = board.eligible aa
        (if muster.airborneAllowed then board.exposedTypes muster.hitPlayer group.kind else [])
        muster.candidates := by
  have hguns : ∀ gun ∈ group.firingUnits, gun ∈ muster.aaUnits ∧
      ∃ aa, board.ability? gun = some aa ∧ aa.kind = group.kind :=
    fun gun hgun => ability_of_mem_muster h hgun
  obtain ⟨kind, members, first, aa, -, hhead, hability, rfl⟩ := exists_of_mem_muster h
  obtain ⟨hmem, own, hown, hkind⟩ := hguns first (List.mem_of_head? hhead)
  obtain rfl := Option.some.inj (hown.symm.trans hability)
  exact ⟨first, List.mem_of_head? hhead, own, hmem, hability, hkind, rfl⟩

/-- A `group` that fires at units flying over has `targets`, if all units that are left are
    vulnerable. -/
theorem targets_ne_nil {acting : PlayerId} {territory : Territory} {name : String}
    {remaining : List UnitId}
    (h : group ∈ board.muster (board.overflightMuster acting territory name remaining))
    (hvulnerable : ∀ id ∈ remaining, board.Vulnerable id) : group.targets ≠ [] := by
  obtain ⟨gun, -, aa, hgun, hability, hkind, htargets⟩ := exists_gun_of_mem_muster h
  obtain ⟨gunner, gunType, aa', hgunner, hgunType, haa', -, -, -, -, unit, hunit, hmade⟩ :=
    canFireAt_iff.1 (List.mem_filter.1 hgun).2
  have hown := ability?_eq_some.2 ⟨gunner, gunType, hgunner, hgunType, haa'⟩
  obtain rfl := Option.some.inj (hown.symm.trans hability)
  obtain ⟨id, hid, hfound⟩ := List.mem_filterMap.1 hunit
  obtain ⟨⟨unit', type⟩, htyped, hplain⟩ := hvulnerable id hid
  obtain ⟨hunit', htype⟩ := unitWithType_eq_ok.1 htyped
  obtain rfl := Option.some.inj (hfound.symm.trans hunit')
  -- What the gun is made for is what the group looks for.
  have hhit : id ∈ group.targets := by
    rw [htargets, ← hkind]
    exact List.mem_filter.2 ⟨hid, canHit_iff.2 ⟨unit, type, hfound, htype, hplain, hmade⟩⟩
  exact List.ne_nil_of_mem hhit

end Board

/-! ### Right after a plan -/

namespace Plan

variable {name : String} {targets : List UnitId} {groups : List FiringGroup} {group : FiringGroup}

/-- The `groups` of a plan for a territory are formed in its `muster`. -/
theorem exists_muster (h : (Plan.overflight name targets).groupsOn scene = .ok groups)
    (hgroup : group ∈ groups) :
    ∃ territory, scene.host.board.territory? name = some territory ∧
      groups = scene.host.board.muster (scene.host.board.overflightMuster scene.ledger.player
        territory name (targets.filter fun unit =>
          !scene.ledger.isCasualty unit && scene.host.board.hasUnit unit)) := by
  rw [groupsOn] at h
  split at h
  · obtain rfl := Except.ok.inj h
    simp at hgroup
  · obtain ⟨territory, hfound, rfl⟩ := Fault.exists_of_map h
    refine ⟨territory, ?_, rfl⟩
    cases hname : scene.host.board.territory? name with
    | none => simp [Board.territory, hname] at hfound
    | some other =>
      simp only [Board.territory, hname, Except.ok.injEq] at hfound
      rw [hfound]

/-- The `group` has a gun that stands in its territory. -/
theorem exists_standing_gun (h : (Plan.overflight name targets).groupsOn scene = .ok groups)
    (hgroup : group ∈ groups) :
    ∃ gun ∈ group.firingUnits, scene.host.board.standsIn gun group.territory = true ∧
      (scene.host.board.ability? gun).isSome := by
  obtain ⟨territory, hfound, rfl⟩ := exists_muster h hgroup
  obtain ⟨gun, hgun, aa, haaUnit, hability, -, -⟩ := Board.exists_gun_of_mem_muster hgroup
  have hterritory : group.territory = name := (Board.formed_of_mem_muster hgroup).territory
  have hmem : gun ∈ territory.units := (List.mem_filter.1 haaUnit).1
  obtain ⟨unit, -, hunit, -⟩ := Board.ability?_eq_some.1 hability
  have hthere : scene.host.board.hasUnit gun = true := by simp [Board.hasUnit, hunit]
  refine ⟨gun, hgun, ?_, by simp [hability]⟩
  simp [Board.standsIn, hterritory, hfound, hthere, hmem]

/-- Whoever a `group` can hit is there and alive when the group is formed: all its targets are
    `openTargets`. -/
theorem openTargets_of_groupsOn (h : (Plan.overflight name targets).groupsOn scene = .ok groups)
    (hgroup : group ∈ groups) : Engine.openTargets scene group = group.targets := by
  obtain ⟨territory, -, rfl⟩ := exists_muster h hgroup
  refine List.filter_eq_self.2 fun unit hunit => ?_
  exact (List.mem_filter.1 ((Board.formed_of_mem_muster hgroup).mem_candidates hunit)).2

/-- A `group` of a plan for `Vulnerable` units has targets. -/
theorem targets_ne_nil_of_groupsOn
    (h : (Plan.overflight name targets).groupsOn scene = .ok groups) (hgroup : group ∈ groups)
    (hvulnerable : ∀ id ∈ targets, scene.host.board.hasUnit id = true →
      scene.host.board.Vulnerable id) : group.targets ≠ [] := by
  obtain ⟨territory, -, rfl⟩ := exists_muster h hgroup
  refine Board.targets_ne_nil hgroup fun id hid => ?_
  obtain ⟨hmem, hleft⟩ := List.mem_filter.1 hid
  exact hvulnerable id hmem (Bool.and_eq_true_iff.1 hleft).2

end Plan

/-- Guns that stand in a `territory` are found there by `gunsIn`. -/
theorem Engine.gunsIn_ne_nil {board : Board} {territory : String} {units : List UnitId}
    {guns : List (UnitId × AntiAir)} (h : gunsIn board territory units = .ok guns) {gun : UnitId}
    (hgun : gun ∈ units) (hstands : board.standsIn gun territory = true)
    (hability : (board.ability? gun).isSome) : guns ≠ [] := by
  induction units generalizing guns with
  | nil => simp at hgun
  | cons unit rest ih =>
    rw [gunsIn] at h
    by_cases hunit : board.standsIn unit territory = true
    · rw [if_pos hunit] at h
      obtain ⟨⟨_, type⟩, htype, hothers⟩ := Fault.exists_of_bind h
      obtain ⟨others, hrest, hguns⟩ := Fault.exists_of_bind hothers
      obtain rfl := Except.ok.inj hguns
      cases haa : type.aa with
      | some aa => simp
      | none =>
        -- A gun without an ability is not the one that is looked for.
        rcases List.mem_cons.1 hgun with rfl | hlater
        · simp [Board.ability?, htype, haa] at hability
        · exact ih hrest hlater
    · rw [if_neg hunit] at h
      rcases List.mem_cons.1 hgun with rfl | hlater
      · exact absurd hstands hunit
      · exact ih h hlater

end Flak
