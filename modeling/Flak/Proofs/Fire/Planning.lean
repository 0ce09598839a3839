import Flak.Fire.Step
import Flak.Proofs.Engine.Run
import Flak.Proofs.Fault

namespace Flak

/-!
# What carrying out a plan does

A plan opens its groups in the ledger or fails without a change:

* `Plan.groupsOn` — the groups that a plan comes to on a scene;
* `freshRecords`, `Plan.opened` — the records that are opened for them, and the ledger after it;
* `Plan.carryOut_onScene` — carrying out a plan is the one and then the other;
* `Board.exists_of_mem_muster`, `Board.formed_of_mem_muster` — what a group has of the muster in which
  it is formed;
* `Board.muster_of_kind`, `Board.muster_singleton` — which groups guns of a single kind make;
* `Plan.targets_of_groupsOn` — groups hit nothing that their plan does not aim at.
-/

variable {ρ : Type}

/-- The records of `groups` that are entered one after the other, numbered from `first`. -/
def freshRecords (first : Nat) (groups : List FiringGroup) : List GroupRecord :=
  groups.mapIdx fun index group => { id := ⟨first + index⟩, group }

/-- The first of the `freshRecords` is that of the first group. -/
theorem freshRecords_cons (first : Nat) (group : FiringGroup) (rest : List FiringGroup) :
    freshRecords first (group :: rest) =
      { id := ⟨first⟩, group } :: freshRecords (first + 1) rest := by
  simp [freshRecords, Nat.add_right_comm, ← Nat.add_assoc]

/-- The ids of `freshRecords` are those that follow each other from `first` on. -/
theorem map_id_freshRecords (first : Nat) (groups : List FiringGroup) :
    (freshRecords first groups).map GroupRecord.id =
      (List.range' first groups.length).map GroupId.mk := by
  induction groups generalizing first with
  | nil => rfl
  | cons group rest ih =>
    rw [freshRecords_cons, List.map_cons, ih]
    rfl

/-- A fresh `record` has nothing but its number and its group. -/
theorem eq_of_mem_freshRecords {first : Nat} {groups : List FiringGroup} {record : GroupRecord}
    (h : record ∈ freshRecords first groups) :
    record.group ∈ groups ∧ record = { id := record.id, group := record.group } := by
  obtain ⟨index, hlt, rfl⟩ := List.mem_mapIdx.1 h
  exact ⟨List.getElem_mem hlt, rfl⟩

/-! ### Groups that are formed -/

namespace Board

/-- What a `group` has of the `muster` in which it is formed. -/
structure Formed (board : Board) (muster : Muster) (group : FiringGroup) : Prop where
  territory : group.territory = muster.territory
  hitPlayer : group.hitPlayer = muster.hitPlayer
  removal : group.removal = muster.removal
  guns : ∀ unit ∈ group.firingUnits, unit ∈ muster.aaUnits ∧ (board.ability? unit).isSome
  targets : ∃ aa exposed, group.targets = board.eligible aa exposed muster.candidates

/-- What is in a part of the `units` by `suicideParts` is taken from them. -/
theorem mem_of_mem_suicideParts {board : Board} {units part : List UnitId}
    (h : part ∈ board.suicideParts units) : ∀ unit ∈ part, unit ∈ units := by
  intro unit hunit
  rcases List.mem_append.1 (List.mem_filter.1 h).1 with hsuicidal | hrest
  · obtain ⟨type, -, rfl⟩ := List.mem_map.1 hsuicidal
    exact (List.mem_filter.1 hunit).1
  · obtain rfl := List.mem_singleton.1 hrest
    exact (List.mem_filter.1 hunit).1

/-- A `group` of a muster is formed of some units of a kind, and the anti-air of the first of them
    decides what it can hit. -/
theorem exists_of_mem_muster {board : Board} {muster : Muster} {group : FiringGroup}
    (h : group ∈ board.muster muster) :
    ∃ kind members first aa, members ∈ board.suicideParts (board.ofKind kind muster.aaUnits) ∧
      members.head? = some first ∧ board.ability? first = some aa ∧ group = {
        territory := muster.territory
        kind
        firingPlayer := muster.firingPlayer.getD (board.defender muster.territory members)
        hitPlayer := muster.hitPlayer
        firingUnits := members
        targets := board.eligible aa
          (if muster.airborneAllowed then board.exposedTypes muster.hitPlayer kind else [])
          muster.candidates
        suicideOnHit := aa.suicideOnHit
        removal := muster.removal } := by
  obtain ⟨kind, -, hkind⟩ := List.mem_flatMap.1 h
  obtain ⟨members, hmembers, hgroup⟩ := List.mem_filterMap.1 hkind
  obtain ⟨first, hhead, hfirst⟩ := Option.bind_eq_some_iff.1 hgroup
  obtain ⟨aa, hability, haa⟩ := Option.bind_eq_some_iff.1 hfirst
  exact ⟨kind, members, first, aa, hmembers, hhead, hability, (Option.some.inj haa).symm⟩

/-- The units of the `group` are of its kind. -/
theorem ability_of_mem_muster {board : Board} {muster : Muster} {group : FiringGroup}
    (h : group ∈ board.muster muster) {gun : UnitId} (hgun : gun ∈ group.firingUnits) :
    gun ∈ muster.aaUnits ∧ ∃ aa, board.ability? gun = some aa ∧ aa.kind = group.kind := by
  obtain ⟨kind, members, first, aa, hmembers, -, -, rfl⟩ := exists_of_mem_muster h
  obtain ⟨hmem, hkind⟩ := List.mem_filter.1 (mem_of_mem_suicideParts hmembers gun hgun)
  simp only [Option.any_eq_true, decide_eq_true_eq] at hkind
  exact ⟨hmem, hkind⟩

/-- Every `group` of a muster is `Formed` by it. -/
theorem formed_of_mem_muster {board : Board} {muster : Muster} {group : FiringGroup}
    (h : group ∈ board.muster muster) : board.Formed muster group := by
  have hguns (gun : UnitId) (hgun : gun ∈ group.firingUnits) :
      gun ∈ muster.aaUnits ∧ (board.ability? gun).isSome := by
    obtain ⟨hmem, aa, hability, -⟩ := ability_of_mem_muster h hgun
    exact ⟨hmem, by simp [hability]⟩
  obtain ⟨kind, members, first, aa, -, -, -, rfl⟩ := exists_of_mem_muster h
  exact ⟨rfl, rfl, rfl, hguns, aa, _, rfl⟩

/-- Where the anti-air is of a single `kind`, nothing has to be put in order. -/
theorem muster_of_kind {board : Board} {muster : Muster} {kind : String}
    (h : (muster.aaUnits.filterMap fun unit =>
      (board.ability? unit).map AntiAir.kind).eraseDups = [kind]) :
    board.muster muster = (board.suicideParts (board.ofKind kind muster.aaUnits)).filterMap
      (board.groupOf? muster kind) := by
  have horder : board.kindsInFiringOrder muster.aaUnits = [kind] := by
    rw [kindsInFiringOrder, h]
    simp only [List.mergeSort_singleton, List.reverse_singleton]
  rw [Board.muster, horder, List.flatMap_singleton]

/-- Where a single `gun` is mustered, its own anti-air forms the groups. -/
theorem muster_singleton {board : Board} {muster : Muster} {gun : UnitId} {aa : AntiAir}
    (hgun : muster.aaUnits = [gun]) (hability : board.ability? gun = some aa) :
    board.muster muster = (board.suicideParts (board.ofKind aa.kind [gun])).filterMap
      (board.groupOf? muster aa.kind) := by
  rw [← hgun]
  apply muster_of_kind
  rw [hgun, List.filterMap_cons_some (by rw [hability]; rfl)]
  rfl

/-- Those whom a `Formed` group may hit are candidates. -/
theorem Formed.mem_candidates {board : Board} {muster : Muster} {group : FiringGroup}
    (h : board.Formed muster group) {unit : UnitId} (hunit : unit ∈ group.targets) :
    unit ∈ muster.candidates := by
  obtain ⟨aa, exposed, htargets⟩ := h.targets
  rw [htargets] at hunit
  exact (List.mem_filter.1 hunit).1

end Board

/-- If the `acting` player owns one of the `units`, they fight for that player. -/
theorem movingPlayer_of_mem {acting : PlayerId} {units : List BoardUnit} {unit : BoardUnit}
    (hunit : unit ∈ units) (howner : unit.owner = acting) : movingPlayer acting units = acting := by
  unfold movingPlayer
  rw [if_pos (List.any_eq_true.2 ⟨unit, hunit, by simpa using howner⟩)]

namespace Plan

/-- The units that a `Plan` aims at. -/
def targets : Plan → List UnitId
  | .overflight _ targets => targets
  | .battle fire => fire.targets

/-- The groups that a `Plan` comes to on the `scene`. -/
def groupsOn (scene : Scene ρ) : Plan → Except Fault (List FiringGroup)
  | .overflight name targets =>
      let remaining := targets.filter fun unit =>
        !scene.ledger.isCasualty unit && scene.host.board.hasUnit unit
      if remaining.isEmpty then .ok []
      else (scene.host.board.territory name).map fun territory =>
        scene.host.board.muster
          (scene.host.board.overflightMuster scene.ledger.player territory name remaining)
  | .battle fire =>
      (scene.host.board.territory fire.territory).map fun _ =>
        scene.host.board.muster (scene.host.board.battleMuster fire
          (fire.targets.filter fun unit => !scene.ledger.isCasualty unit))

/-- Why the move cannot be undone when these `groups` of a plan have been formed. -/
def undoNote (groups : List FiringGroup) : Plan → Option String → Option String
  | .overflight _ _, note =>
      groups.foldl (fun note group => some (note.getD (undoReason group.kind))) note
  | .battle _, note => note

/-- The `ledger` after the `groups` of the `plan` were opened. -/
def opened (plan : Plan) (groups : List FiringGroup) (ledger : Ledger) : Ledger :=
  { ledger with
    groups := ledger.groups ++ freshRecords ledger.groups.length groups
    cantUndo := plan.undoNote groups ledger.cantUndo }

/-! ### Carrying out a plan -/

/-- To note a reason for each of the `groups` by `forbidUndo` is to note the first one's, unless
    there was one. -/
theorem foldl_forbidUndo (groups : List FiringGroup) (ledger : Ledger) :
    groups.foldl (fun ledger group => ledger.forbidUndo (undoReason group.kind)) ledger =
      { ledger with
        cantUndo := groups.foldl (fun note group => some (note.getD (undoReason group.kind)))
          ledger.cantUndo } := by
  induction groups generalizing ledger with
  | nil => rfl
  | cons group rest ih =>
    rw [List.foldl_cons, ih]
    rfl

/-- By `openGroups` the `freshRecords` of the groups enter the ledger behind the others. -/
theorem openGroups_onScene (groups : List FiringGroup) (scene : Scene ρ) :
    (openGroups groups).onScene scene =
      (.ok ((freshRecords scene.ledger.groups.length groups).map GroupRecord.id),
        { scene with ledger := { scene.ledger with
          groups := scene.ledger.groups ++ freshRecords scene.ledger.groups.length groups } }) := by
  induction groups generalizing scene with
  | nil => simp [openGroups, freshRecords]
  | cons group rest ih =>
    rw [openGroups, Engine.onScene_bind, Engine.onScene_modifyGet]
    dsimp only
    rw [Engine.onScene_bind_ok (ih _), Engine.onScene_pure]
    simp [Ledger.openGroup, freshRecords_cons]

/-- By `groups` a plan comes to its `groupsOn` the scene, and a reason may be noted. -/
theorem groups_onScene (plan : Plan) (scene : Scene ρ) :
    plan.groups.onScene scene =
      match plan.groupsOn scene with
      | .error fault => (.error fault, scene)
      | .ok groups =>
          (.ok groups, { scene with ledger :=
            { scene.ledger with cantUndo := plan.undoNote groups scene.ledger.cantUndo } }) := by
  cases plan with
  | overflight name targets =>
    -- When all targets are gone, the territory is not even looked up.
    simp only [groups, groupsOn, Engine.onScene_bind, Engine.onScene_get]
    split
    · rfl
    · simp only [Engine.onScene_bind, Engine.onScene_of]
      cases scene.host.board.territory name with
      | error fault => rfl
      | ok territory => simp [foldl_forbidUndo, Except.map, undoNote]
  | battle fire =>
    simp only [groups, groupsOn, Engine.onScene_bind, Engine.onScene_get, Engine.onScene_of]
    cases scene.host.board.territory fire.territory <;> rfl

/-- By `carryOut` a `plan` opens its groups, or it fails and nothing has changed. -/
theorem carryOut_onScene (plan : Plan) (scene : Scene ρ) :
    plan.carryOut.onScene scene =
      match plan.groupsOn scene with
      | .error fault => (.error fault, scene)
      | .ok groups =>
          (.ok ((freshRecords scene.ledger.groups.length groups).map GroupRecord.id),
            { scene with ledger := plan.opened groups scene.ledger }) := by
  rw [carryOut, Engine.onScene_bind, groups_onScene]
  cases plan.groupsOn scene with
  | error fault => rfl
  | ok groups => exact openGroups_onScene groups _

/-! ### Targets -/

/-- The `groups` of a `plan` hit nothing but what the plan aims at. -/
theorem targets_of_groupsOn {plan : Plan} {scene : Scene ρ} {groups : List FiringGroup}
    (h : plan.groupsOn scene = .ok groups) {group : FiringGroup} (hgroup : group ∈ groups) :
    ∀ unit ∈ group.targets, unit ∈ plan.targets := by
  intro unit hunit
  cases plan with
  | overflight name targets =>
    rw [groupsOn] at h
    split at h
    · obtain rfl := Except.ok.inj h
      simp at hgroup
    · obtain ⟨territory, -, rfl⟩ := Fault.exists_of_map h
      exact (List.mem_filter.1 ((Board.formed_of_mem_muster hgroup).mem_candidates hunit)).1
  | battle fire =>
    rw [groupsOn] at h
    obtain ⟨territory, -, rfl⟩ := Fault.exists_of_map h
    exact (List.mem_filter.1 ((Board.formed_of_mem_muster hgroup).mem_candidates hunit)).1

end Plan

end Flak
