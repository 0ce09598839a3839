import Flak.Proofs.Fire.Silence

namespace Flak

/-!
# When a move becomes final

A plan notes why the move cannot be undone as soon as it forms a group, before anything is rolled.

* `Ledger.NotesFirst`, `Proceeds.notesFirst` — at any time it is the first group that is noted;
* `Overflight.Course.targets_ne_nil` — where all units are vulnerable, every group could hit one;
* `Overflight.cantUndo_of_fireAlong` — so a move is final just if a group was formed, and where all
  units are vulnerable, just if a group has rolled;
* `Depot`, `Overflight.not_final_of_dice` — a move that is final although nothing was rolled.
-/

variable {ρ : Type} {scene after : Scene ρ} {id : GroupId} {record : GroupRecord}

/-! ### What is noted -/

/-- Whether the reason why a move cannot be undone, as the `ledger` has it, is the first group that
    was formed. -/
def Ledger.NotesFirst (ledger : Ledger) : Prop :=
  ledger.cantUndo = ledger.groups.head?.map fun record => undoReason record.group.kind

/-- The first reason stays, and otherwise `undoNote` is that of the first group. -/
theorem Plan.undoNote_overflight (name : String) (targets : List UnitId)
    (groups : List FiringGroup) (note : Option String) :
    (Plan.overflight name targets).undoNote groups note =
      note.or (groups.head?.map fun group => undoReason group.kind) := by
  have hsome (groups : List FiringGroup) (reason : String) :
      (Plan.overflight name targets).undoNote groups (some reason) = some reason := by
    induction groups with
    | nil => rfl
    | cons group rest ih => exact ih
  cases note with
  | some reason => exact hsome groups reason
  | none =>
    cases groups with
    | nil => rfl
    | cons group rest => exact hsome rest (undoReason group.kind)

/-- When groups are `opened` for a territory, the first one is noted. -/
theorem Ledger.NotesFirst.opened {ledger : Ledger} (h : ledger.NotesFirst) (name : String)
    (targets : List UnitId) (groups : List FiringGroup) :
    ((Plan.overflight name targets).opened groups ledger).NotesFirst := by
  show (Plan.overflight name targets).undoNote groups ledger.cantUndo = _
  rw [Plan.undoNote_overflight, h, Plan.opened]
  cases ledger.groups with
  | cons first rest => rfl
  | nil =>
    cases groups with
    | nil => rfl
    | cons group rest =>
      rw [freshRecords_cons]
      rfl

/-- Nothing is noted by the `stage`. -/
theorem StageDone.cantUndo {stage : Stage} (h : StageDone id record scene stage after) :
    after.ledger.cantUndo = scene.ledger.cantUndo := by
  cases h with
  | past => rfl
  | idle => rfl
  | rolled => rfl
  | selected _ _ hletters _ => exact hletters.cantUndo
  | finished _ hletters => exact hletters.cantUndo

/-- What is noted stays right while the groups stay what they are: `NotesFirst` depends on nothing
    else. -/
theorem Ledger.NotesFirst.of_same {ledger ledger' : Ledger} (h : ledger.NotesFirst)
    (hnote : ledger'.cantUndo = ledger.cantUndo)
    (hlength : ledger'.groups.length = ledger.groups.length)
    (hgroups : ∀ (index : Nat) (is : GroupRecord), ledger'.groups[index]? = some is →
      ∃ was, ledger.groups[index]? = some was ∧ is.group = was.group) : ledger'.NotesFirst := by
  unfold NotesFirst at h ⊢
  rw [hnote, h, List.head?_eq_getElem?, List.head?_eq_getElem?]
  cases hfirst : ledger'.groups[0]? with
  | some is =>
    obtain ⟨was, hwas, hsame⟩ := hgroups 0 is hfirst
    rw [hwas, Option.map_some, Option.map_some, hsame]
  | none =>
    rw [List.getElem?_eq_none_iff] at hfirst
    rw [List.getElem?_eq_none (by omega)]

section Runs

variable [RandomSource ρ] {first last : Progress ρ} {count : Nat}

/-- However a move `Proceeds`, it is the first group formed that is noted. -/
theorem Proceeds.notesFirst (hstart : first.scene.ledger.NotesFirst)
    (hplans : ∀ plan, .plan plan ∈ first.pending → ∃ name targets, plan = .overflight name targets)
    (h : Proceeds Interlude Stays first count last) : last.scene.ledger.NotesFirst := by
  refine @Proceeds.preserves_on_way ρ _ Interlude Stays first last count (fun progress =>
    progress.scene.ledger.NotesFirst) hstart ?_ ?_ ?_ h
  · intro count timing step rest scene hway hnotes
    have hattempted := Progress.attempted timing step rest scene
    generalize Progress.attempt timing ⟨step :: rest, scene⟩ = progress at hattempted ⊢
    cases hattempted with
    | failed hkept =>
      refine hnotes.of_same (by rw [hkept.ledger]) hkept.length fun index is his => ?_
      obtain ⟨was, hwas, hchange⟩ := hkept.recordChange his
      exact ⟨was, hwas, hchange.group⟩
    | @planned plan groups hgroups =>
      -- Only a plan can note a reason, and a move has plans for territories only.
      obtain ⟨name, targets, rfl⟩ := hplans plan (hway.mem_of_plan_mem List.mem_cons_self)
      exact hnotes.opened name targets groups
    | staged hrecord hdone =>
      refine hnotes.of_same hdone.cantUndo hdone.length fun index is his => ?_
      obtain ⟨was, hwas, hchange⟩ := hdone.recordChange hrecord his
      exact ⟨was, hwas, hchange.group⟩
  · intro pending before after hpause hnotes
    obtain ⟨_, hledger⟩ := hpause.ledger
    unfold Ledger.NotesFirst at hnotes ⊢
    rw [hledger]
    exact hnotes
  · exact fun left next scene hturn _ => hturn.elim

namespace Overflight

variable {fire later : Overflight} {host there : Host ρ} {route : Route} {units : List UnitId}
  {ordering : BoardUnit → BoardUnit → Ordering} {handle handle' : MoveHandle}
  {killed : List UnitId}

/-- In the `Course` of a move of vulnerable `units`, every group could hit one when it was
    formed. -/
theorem Course.targets_ne_nil {Permits : Timing → Step → Scene ρ → Prop} {now : Overflight}
    (h : Course Permits fire host route units ordering now there)
    (hvulnerable : ∀ id ∈ units, host.board.Vulnerable id) :
    ∀ record ∈ now.ledger.groups, record.group.targets ≠ [] := by
  intro record hrecord
  obtain ⟨ready, hnew, hready⟩ := h.exists_prepared
  obtain ⟨territories, moving, -, hmoving, -, hstart⟩ := prepare_ok hnew hready
  obtain ⟨count, hproceeds⟩ := h.proceeds_from hready
  obtain ⟨index, hindex⟩ := List.mem_iff_getElem?.1 hrecord
  obtain ⟨scene, hplanned, -⟩ := exists_formed hnew hready hmoving hproceeds hindex
  obtain ⟨earlier, rest, hway⟩ := hplanned.proceeds
  obtain ⟨groups, hgroups, hgroup⟩ := hplanned.groups
  have hworn := hway.worn
  rw [show (ready.progress host).scene.host.board = host.board by rw [hstart]] at hworn
  refine Plan.targets_ne_nil_of_groupsOn hgroups hgroup fun id hid hthere => ?_
  have hunit : id ∈ units := (perm_inOrder hmoving).mem_iff.1 hid
  exact hworn.vulnerable hthere (hvulnerable id hunit)

/-- A move at which nothing was fired before is final by `cantUndo` just if a group was formed, and
    the reason is the first one. The first group that has rolled is the first that could hit
    somebody. So the reason is the first group that has rolled, and there is none if there is no
    such group, if all `units` are of declared types that are not infrastructure: then every group
    can hit somebody. -/
theorem cantUndo_of_fireAlong (hnew : fire.agenda.isEmpty = true)
    (h : fire.fireAlong host route units ordering {} = (.ok killed, later, handle, there)) :
    handle.cantUndo =
        (later.ledger.groups.head?.map fun record => undoReason record.group.kind) ∧
      later.ledger.groups.find? (fun record => record.dice.isSome) =
        later.ledger.groups.find? (fun record => !record.group.targets.isEmpty) ∧
      ((∀ id ∈ units, host.board.Vulnerable id) →
        handle.cantUndo = (later.ledger.groups.find? fun record => record.dice.isSome).map
          fun record => undoReason record.group.kind) := by
  obtain ⟨ready, count, hready, hadvances, rfl⟩ := advances_of_fireAlong h
  have hplans := overflights_of_prepare hnew hready
  obtain ⟨territories, moving, -, -, -, hstart⟩ := prepare_ok hnew hready
  have hnone : (ready.progress host).scene.ledger.groups = [] := by
    rw [hstart]
    rfl
  have hbegins : (ready.progress host).scene.ledger.NotesFirst := by
    rw [hstart]
    rfl
  have hproceeds : Proceeds Interlude Stays (ready.progress host) count
      ⟨[], ⟨there, later.ledger⟩⟩ := hadvances.proceeds
  have hnotes : later.ledger.NotesFirst := hproceeds.notesFirst hbegins hplans
  have hcantUndo : (later.settle {}).cantUndo = later.ledger.cantUndo := by
    unfold settle
    cases later.ledger.cantUndo <;> rfl
  have hrolled : later.ledger.groups.find? (fun record => record.dice.isSome) =
      later.ledger.groups.find? (fun record => !record.group.targets.isEmpty) :=
    hadvances.find?_dice hnone hplans rfl
  refine ⟨hcantUndo.trans hnotes, hrolled, fun hvulnerable => ?_⟩
  obtain ⟨hcourse, -⟩ := fireAlong_ok hnew h
  have htargets := hcourse.targets_ne_nil hvulnerable
  rw [hcantUndo, hnotes, hrolled]
  -- Where every group can hit somebody, the first one is the first of these.
  cases hgroups : later.ledger.groups with
  | nil => rfl
  | cons first rest =>
    have hfirst := htargets first (by simp [hgroups])
    rw [List.find?_cons_of_pos (by simpa using hfirst)]
    rfl

end Overflight

end Runs

/-- The `Sortie` is final because its gun has rolled. -/
theorem Overflight.cantUndo_of_fireAlong_sortie :
    Sortie.flown.ledger.groups.find? (fun record => record.dice.isSome) =
        Sortie.flown.ledger.groups.find? (fun record => !record.group.targets.isEmpty) ∧
      (Sortie.flown.ledger.groups.find? fun record => record.dice.isSome).map
        (fun record => undoReason record.group.kind) = some (undoReason "Flak") := by
  obtain ⟨-, hrolled, hreason⟩ := cantUndo_of_fireAlong rfl Sortie.fireAlong_eq
  refine ⟨hrolled, (hreason fun id hid => ?_).symm⟩
  obtain rfl := List.mem_singleton.1 hid
  exact ⟨_, rfl, rfl⟩

/-! ### A depot that nothing can hit -/

namespace Depot

/-- A `base` of the Reds, of a type that is infrastructure. -/
def base : BoardUnit := ⟨⟨1⟩, "Base", ⟨"Reds"⟩, 0, 4, false, none⟩

/-- A `board` where a base moves past a gun that is made to shoot at bases. But a base is
    infrastructure. -/
def board : Board where
  unitTypes := [
    ⟨"Gun", 1, false, some ⟨"Flak", 6, none, -1, ["Base"], true, false⟩⟩,
    ⟨"Base", 1, true, none⟩]
  units := [base, ⟨⟨2⟩, "Gun", ⟨"Blues"⟩, 0, 0, false, none⟩]
  territories := [⟨"Fort", ⟨"Blues"⟩, [⟨1⟩, ⟨2⟩]⟩]

/-- The `host` of the move, without remote players. -/
def host : Host ScriptedDice :=
  { board, player := ⟨"Reds"⟩, headless := true, dice := ⟨[0], 0⟩ }

/-- The `group` of the gun, without targets. -/
def group : FiringGroup := { Sortie.group .returnToHost with targets := [] }

/-- The scene at the `start` of the move. -/
def start : Scene ScriptedDice :=
  ⟨host, { player := ⟨"Reds"⟩, headless := true, targets := [⟨1⟩] }⟩

/-- The scene after the fire was planned. -/
def planned : Scene ScriptedDice :=
  ⟨host, (Sortie.plan .returnToHost).opened [group] start.ledger⟩

/-- The scene after the move, in which the gun has not rolled. -/
def passed : Scene ScriptedDice :=
  ((Agenda.mk (Step.allOf ⟨0⟩) none).run {} (some 3) planned).2.2

/-- The plan of the sortie comes to the `group`. -/
theorem groupsOn_eq : (Sortie.plan .returnToHost).groupsOn start = .ok [group] := by
  show Except.ok (board.muster (board.overflightMuster ⟨"Reds"⟩
    ⟨"Fort", ⟨"Blues"⟩, [⟨1⟩, ⟨2⟩]⟩ "Fort" [⟨1⟩])) = _
  rw [Board.muster_singleton rfl rfl]
  rfl

/-- The move can be prepared by `prepare`. -/
theorem prepare_eq :
    Overflight.prepare {} host Sortie.route [⟨1⟩] BoardUnit.leastMovementFirst =
      .ok ⟨{}, ⟨[.plan (Sortie.plan .returnToHost)], none⟩, start.ledger⟩ := by
  have hmoving : host.board.findUnits [⟨1⟩] = .ok [base] := rfl
  have hfires : host.board.firingTerritories host.player Sortie.route [⟨1⟩] = .ok ["Fort"] := rfl
  rw [Overflight.prepare_eq_ok rfl hfires hmoving (List.mergeSort_singleton base)]
  rfl

/-- The fire is `planned`, and then all that is to be done for the group is done in silence. -/
theorem advances :
    Advances {} 4 ⟨[.plan (Sortie.plan .returnToHost)], start⟩ ⟨[], passed⟩ := by
  have hplan : (Step.perform {} (.plan (Sortie.plan .returnToHost))).onScene start =
      (.ok (Step.allOf ⟨0⟩), planned) := by
    rw [Step.perform_plan_onScene, Plan.carryOut_onScene, groupsOn_eq]
    rfl
  have hstages : (Agenda.mk (Step.allOf ⟨0⟩) none).run {} (some 3) planned =
      (.ok 3, {}, passed) := rfl
  exact .step hplan (Agenda.advances_of_run hstages)

/-- The move ends as `passed`, and it is final. -/
theorem fireAlong_eq :
    ({} : Overflight).fireAlong host Sortie.route [⟨1⟩] BoardUnit.leastMovementFirst {} =
      (.ok [], ⟨{}, {}, passed.ledger⟩, ⟨some (undoReason "Flak")⟩, passed.host) :=
  Overflight.fireAlong_of_advances prepare_eq advances

end Depot

/-- A move can be final by `cantUndo` although nothing has been rolled at it. -/
theorem Overflight.not_final_of_dice :
    ¬ ∀ (fire later : Overflight) (host there : Host ScriptedDice) (route : Route)
        (units killed : List UnitId) (handle : MoveHandle), fire.agenda.isEmpty = true →
        host.headless = true →
        fire.fireAlong host route units BoardUnit.leastMovementFirst {} =
          (.ok killed, later, handle, there) →
        (handle.cantUndo.isSome ↔ ∃ record ∈ later.ledger.groups, record.dice.isSome) := by
  intro hall
  have hgroups : Depot.passed.ledger.groups.any (fun record => record.dice.isSome) = false := rfl
  obtain ⟨record, hrecord, hdice⟩ := (hall _ _ _ _ _ _ _ _ rfl rfl Depot.fireAlong_eq).1 rfl
  simp [List.any_eq_false.1 hgroups record hrecord] at hdice

end Flak
