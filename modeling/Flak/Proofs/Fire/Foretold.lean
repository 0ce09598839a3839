import Flak.Proofs.Fire.Finality
import Flak.Proofs.Fire.Listing
import Flak.Proofs.Firing.Division

namespace Flak

/-!
# Where fire was foretold

The territories that fire at a move are found out before anything is rolled. What has happened since
is taken into account only when a plan is carried out. As long as nobody was hit nothing has changed,
and the plan finds what was foretold:

* `Board.muster_ne_nil` — where a gun is mustered a group is formed;
* `Plan.groupsOn_ne_nil` — a plan finds it again if nothing has changed and one of the units is the
  acting player's;
* `Losses.eq_empty_of_check`, `StageDone.untouched` — without a hit nothing changes;
* `Awaits`, `Advances.exists_untouched` — so a plan is carried out on the board of the start if
  nobody was hit before;
* `Ledger.FiredIn` — what it is that anti-air has fired in a territory;
* `Overflight.firedIn_iff`, `Overflight.firedIn_of_foretold` — where it has.
-/

variable {ρ : Type}

/-! ### Guns that are mustered -/

namespace Board

variable {board : Board}

/-- Whatever is spent on a hit, every gun is in one of the `suicideParts`. -/
theorem exists_suicidePart {units : List UnitId} {gun : UnitId} {aa : AntiAir}
    (hgun : gun ∈ units) (hability : board.ability? gun = some aa) :
    ∃ part ∈ board.suicideParts units, gun ∈ part := by
  have hsome {part : List UnitId} (hmem : gun ∈ part) : (!part.isEmpty) = true := by
    simpa using List.ne_nil_of_mem hmem
  obtain ⟨unit, type, hunit, htype, haa⟩ := ability?_eq_some.1 hability
  by_cases hsuicidal : aa.suicideOnHit = true
  · -- It is in the part of its type.
    have hdeclared : type ∈ board.unitTypes.filter fun type => type.aa.any AntiAir.suicideOnHit :=
      List.mem_filter.2 ⟨List.mem_of_find?_eq_some htype, by simp [haa, hsuicidal]⟩
    have hname : type.name = unit.typeName := by simpa using List.find?_some htype
    have hmem : gun ∈ board.ofType type.name units :=
      List.mem_filter.2 ⟨hgun, by simp [hunit, hname]⟩
    refine ⟨_, List.mem_filter.2 ⟨List.mem_append_left _ ?_, hsome hmem⟩, hmem⟩
    exact List.mem_map_of_mem hdeclared
  · have hmem : gun ∈ units.filter fun unit => !board.isSuicidal unit :=
      List.mem_filter.2 ⟨hgun, by simp [isSuicidal, hability, hsuicidal]⟩
    refine ⟨_, List.mem_filter.2 ⟨List.mem_append_right _ ?_, hsome hmem⟩, hmem⟩
    exact List.mem_singleton_self _

/-- Where a gun is mustered a group is formed, by `muster`. -/
theorem muster_ne_nil {muster : Muster} {gun : UnitId} (hgun : gun ∈ muster.aaUnits)
    (hability : (board.ability? gun).isSome) : board.muster muster ≠ [] := by
  obtain ⟨aa, haa⟩ := Option.isSome_iff_exists.1 hability
  have hkind : aa.kind ∈ board.kindsInFiringOrder muster.aaUnits :=
    mem_kindsInFiringOrder.2 ⟨gun, hgun, aa, haa, rfl⟩
  have hsame : gun ∈ board.ofKind aa.kind muster.aaUnits :=
    List.mem_filter.2 ⟨hgun, by simp [haa]⟩
  obtain ⟨part, hpart, hmem⟩ := exists_suicidePart hsame haa
  obtain ⟨first, others, rfl⟩ := List.exists_cons_of_ne_nil (List.ne_nil_of_mem hmem)
  -- Its first unit has an ability, since all units of the kind have.
  have hfirst : (board.ability? first).any (fun aa' => aa'.kind = aa.kind) = true :=
    (List.mem_filter.1 (mem_of_mem_suicideParts hpart first List.mem_cons_self)).2
  obtain ⟨aa', haa', -⟩ := (Option.any_eq_true _ _).1 hfirst
  have hgroup : (board.groupOf? muster aa.kind (first :: others)).isSome := by
    simp [groupOf?, haa']
  obtain ⟨group, hgroup⟩ := Option.isSome_iff_exists.1 hgroup
  exact List.ne_nil_of_mem (List.mem_flatMap.2 ⟨aa.kind, hkind,
    List.mem_filterMap.2 ⟨first :: others, hpart, hgroup⟩⟩)

/-! ### Territories that are foretold -/

variable {moving : List BoardUnit} {player : PlayerId}

/-- A territory that fires, by `firesAt`, has a gun that does. -/
theorem exists_gun_of_firesAt {name : String} (h : board.firesAt moving player name = .ok true) :
    ∃ territory, board.territory name = .ok territory ∧
      ∃ gun ∈ territory.units, board.canFireAt moving player gun = true := by
  obtain ⟨territory, hterritory, hfires⟩ := Fault.exists_of_bind h
  exact ⟨territory, hterritory, List.any_eq_true.1 (Except.ok.inj hfires)⟩

/-- A gun that fires, by `canFireAt`, has an ability, and there is somebody to fire at. -/
theorem ability_of_canFireAt {gun : UnitId} (h : board.canFireAt moving player gun = true) :
    (board.ability? gun).isSome ∧ moving ≠ [] := by
  obtain ⟨unit, type, aa, hunit, htype, haa, -, -, -, -, quarry, hquarry, -⟩ := canFireAt_iff.1 h
  have hability := ability?_eq_some.2 ⟨unit, type, hunit, htype, haa⟩
  exact ⟨by rw [hability]; rfl, List.ne_nil_of_mem hquarry⟩

/-- A `unit` that is looked for by `findUnits` is found. -/
theorem mem_of_findUnits {ids : List UnitId} (h : board.findUnits ids = .ok moving) {id : UnitId}
    {unit : BoardUnit} (hid : id ∈ ids) (hunit : board.unit? id = some unit) : unit ∈ moving := by
  rw [← (findUnits_eq_ok h).1] at hid
  obtain ⟨found, hfound, rfl⟩ := List.mem_map.1 hid
  have hsame := (unit?_of_mem_findUnits h found hfound).symm.trans hunit
  obtain rfl := Option.some.inj hsame
  exact hfound

end Board

/-! ### Planning on the board of the start -/

/-- Where nothing has changed, the plan for a territory that was foretold comes to groups by
    `groupsOn`, if one of the units is the acting player's. -/
theorem Plan.groupsOn_ne_nil {scene : Scene ρ} {ids : List UnitId} {moving : List BoardUnit}
    {ordering : BoardUnit → BoardUnit → Ordering} {name : String} {groups : List FiringGroup}
    (halive : scene.ledger.casualties = [])
    (hmoving : scene.host.board.findUnits ids = .ok moving)
    (howner : ∃ unit ∈ moving, unit.owner = scene.ledger.player)
    (hfires : scene.host.board.firesAt moving (movingPlayer scene.ledger.player moving) name =
      .ok true)
    (h : (Plan.overflight name ((Overflight.inOrder ordering moving).map
      BoardUnit.id)).groupsOn scene = .ok groups) : groups ≠ [] := by
  have hperm : (Overflight.inOrder ordering moving).Perm moving := List.mergeSort_perm _ _
  have hfound : ∀ unit ∈ Overflight.inOrder ordering moving,
      scene.host.board.unit? unit.id = some unit := fun unit hunit =>
    Board.unit?_of_mem_findUnits hmoving unit (hperm.mem_iff.1 hunit)
  -- All units are left, and they are the units that were asked for.
  have hleft : (((Overflight.inOrder ordering moving).map BoardUnit.id).filter fun unit =>
      !scene.ledger.isCasualty unit && scene.host.board.hasUnit unit) =
        (Overflight.inOrder ordering moving).map BoardUnit.id := by
    refine List.filter_eq_self.2 (List.forall_mem_map.2 fun unit hunit => ?_)
    simp [Ledger.isCasualty, halive, Board.hasUnit, hfound unit hunit]
  have hunits : ((Overflight.inOrder ordering moving).map BoardUnit.id).filterMap
      scene.host.board.unit? = Overflight.inOrder ordering moving := by
    rw [List.filterMap_map]
    exact (List.filterMap_congr hfound).trans List.filterMap_some
  obtain ⟨unit, hunit, hacting⟩ := howner
  obtain ⟨territory, hterritory, gun, hgun, hfires⟩ := Board.exists_gun_of_firesAt hfires
  obtain ⟨hability, hne⟩ := Board.ability_of_canFireAt hfires
  rw [movingPlayer_of_mem hunit hacting] at hfires
  have hsome : ((Overflight.inOrder ordering moving).map BoardUnit.id).isEmpty = false := by
    simpa using fun hnil => hne (hnil ▸ hperm).symm.eq_nil
  rw [groupsOn, hleft, hsome, hterritory] at h
  obtain rfl := Except.ok.inj h
  refine Board.muster_ne_nil (List.mem_filter.2 ⟨hgun, ?_⟩) hability
  show scene.host.board.canFireAt (((Overflight.inOrder ordering moving).map
    BoardUnit.id).filterMap scene.host.board.unit?) (movingPlayer scene.ledger.player
      (((Overflight.inOrder ordering moving).map BoardUnit.id).filterMap
        scene.host.board.unit?)) gun = true
  rw [hunits, movingPlayer_of_mem (hperm.mem_iff.2 hunit) hacting,
    Board.canFireAt_of_perm hperm]
  exact hfires

/-! ### Without a hit -/

/-- Without a hit to `check` nobody is lost. -/
theorem Losses.eq_empty_of_check {board : Board} {units : List UnitId} {targets : List Target}
    {losses : Losses} (htargets : board.targets units = .ok targets)
    (h : losses.check targets 0 = .ok ()) : losses = {} := by
  obtain ⟨killing, seen, damaging, hkill, hdamage, hsum⟩ := exists_of_check h
  have hpositive := Board.hitPoints_pos_of_targets htargets
  rw [Nat.zero_min] at hsum
  obtain ⟨killed, damaged⟩ := losses
  -- A unit that is killed takes hits, and one that is damaged does; there are none to take.
  have hkilled : killed = [] := by
    cases killed with
    | nil => rfl
    | cons unit rest =>
      obtain ⟨target, hmem, -, -, more, -, hhits⟩ := exists_of_killHits_cons hkill
      have hpoints := hpositive target hmem
      omega
  have hdamaged : damaged = [] := by
    cases damaged with
    | nil => rfl
    | cons entry rest =>
      obtain ⟨_, -, -, -, htaken, -, more, -, hhits⟩ := exists_of_damageHits_cons hdamage
      omega
  rw [hkilled, hdamaged]

/-- Nothing has happened to the `board`, and nobody is dead. -/
structure Untouched (board : Board) (scene : Scene ρ) : Prop where
  board : scene.host.board = board
  alive : scene.ledger.casualties = []

/-- The `stage` of a group that fires at a move leaves the board `Untouched` if there is no hit. -/
theorem StageDone.untouched {stage : Stage} {id : GroupId} {record : GroupRecord}
    {scene after : Scene ρ} {board : Board} (hremoval : record.group.removal = .returnToHost)
    (hhits : record.hits = 0) (h : StageDone id record scene stage after)
    (huntouched : Untouched board scene) : Untouched board after := by
  obtain ⟨hboard, halive⟩ := huntouched
  have hroll : (record.dice.getD {}).hits = 0 := by
    unfold GroupRecord.hits at hhits
    cases hdice : record.dice with
    | none => rfl
    | some dice => simpa [hdice] using hhits
  have hletters {mid : Scene ρ} {dice : ρ} (h : Consulted id (scene.setDice dice) mid) :
      mid.ledger.casualties = [] :=
    h.casualties.trans halive
  cases h with
  | past => exact ⟨hboard, halive⟩
  | idle => exact ⟨hboard, halive⟩
  | rolled => exact ⟨hboard, halive⟩
  | @selected _ _ dice mid losses htargets hmid hcheck =>
    -- Losses that are accepted without a hit are none.
    rw [hroll] at hcheck
    obtain rfl := Losses.eq_empty_of_check htargets hcheck
    have hnobody : mid.ledger.casualties = [] := hletters hmid
    refine ⟨?_, hnobody⟩
    show (mid.commitHost record.group _ {}).board = board
    rw [Scene.commitHost_board]
    exact hmid.board.trans hboard
  | @finished _ mid hmid =>
    have hnobody : mid.ledger.casualties = [] := @hletters mid scene.host.dice hmid
    refine ⟨?_, hnobody⟩
    show scene.host.board.cleared record _ = board
    -- The dead stay on the board, and without a hit no gun was spent.
    have hdead : scene.host.board.withoutDead record (record.losses.getD {}) =
        scene.host.board := by
      rw [Board.withoutDead, if_neg (by simp [hremoval])]
    rw [Board.cleared, hdead, Board.withoutSpent, if_neg (by simp [hhits]), hboard]

/-- The `plan` is still to be carried out, the territories before it are among those in `front`, and
    nothing has changed yet. -/
structure Awaits (board : Board) (front : List String) (plan : Plan) (progress : Progress ρ) :
    Prop where
  pending : ∃ before rest, progress.pending = before ++ .plan plan :: rest ∧
    ∀ other, .plan other ∈ before → ∃ name ∈ front, ∃ targets, other = .overflight name targets
  records : ∀ (index : Nat) (record : GroupRecord),
    progress.scene.ledger.groups[index]? = some record → record.Sound ∧
      record.group.territory ∈ front ∧ record.group.removal = .returnToHost
  untouched : Untouched board progress.scene

/-- Every plan of a move that was prepared by `prepare` awaits its turn. -/
theorem Awaits.of_prepare {fire ready : Overflight} {host : Host ρ} {route : Route}
    {units : List UnitId} {ordering : BoardUnit → BoardUnit → Ordering} {moving : List BoardUnit}
    {front back : List String} {name : String} (hnew : fire.agenda.isEmpty = true)
    (hready : fire.prepare host route units ordering = .ok ready)
    (hforetold : host.board.firingTerritories host.player route units =
      .ok (front ++ name :: back))
    (hmoving : host.board.findUnits units = .ok moving) :
    Awaits host.board front
      (.overflight name ((Overflight.inOrder ordering moving).map BoardUnit.id))
      (ready.progress host) := by
  obtain ⟨territories, moving', hterritories, hmoving', -, hstart⟩ :=
    Overflight.prepare_ok hnew hready
  obtain rfl := Except.ok.inj (hforetold.symm.trans hterritories)
  obtain rfl := Except.ok.inj (hmoving.symm.trans hmoving')
  rw [hstart]
  refine ⟨⟨_, _, List.map_append, fun other hother => ?_⟩, ?_, rfl, rfl⟩
  · obtain ⟨territory, hterritory, hplan⟩ := List.mem_map.1 hother
    exact ⟨territory, hterritory, _, (Step.plan.inj hplan).symm⟩
  · simp [Overflight.freshLedger]

variable [RandomSource ρ] {timing : Timing} {count : Nat} {board : Board} {front : List String}
  {plan : Plan} {scene mid : Scene ρ} {first last : Progress ρ}

/-- As long as nobody is hit, the `step` is the `plan` or the plan is still to be carried out. -/
theorem Awaits.step {step : Step} {left next : List Step}
    (h : Awaits board front plan ⟨step :: left, scene⟩)
    (hhits : ∀ (index : Nat) (record : GroupRecord),
      scene.ledger.groups[index]? = some record → record.hits = 0)
    (hdone : (step.perform timing).onScene scene = (.ok next, mid)) :
    step = .plan plan ∨ Awaits board front plan ⟨next ++ left, mid⟩ := by
  obtain ⟨⟨before, rest, hpending, hbefore⟩, hrecords, huntouched⟩ := h
  -- Either it is the turn of the plan, or of something in front of it.
  cases before with
  | nil => exact .inl (List.cons.inj hpending).1
  | cons other before =>
    obtain ⟨rfl, rfl⟩ := List.cons.inj hpending
    right
    have hearlier : ∀ plan, .plan plan ∈ before →
        ∃ name ∈ front, ∃ targets, plan = .overflight name targets := fun plan hplan =>
      hbefore plan (List.mem_cons_of_mem _ hplan)
    cases step with
    | stage stage id =>
      obtain ⟨rfl, record, hrecord, hstage⟩ := Step.perform_stage_ok hdone
      have hindex := Ledger.record_eq_ok.1 hrecord
      refine ⟨⟨before, rest, rfl, hearlier⟩, fun index is his => ?_, ?_⟩
      · obtain ⟨was, hwas, hchange⟩ := hstage.recordChange hrecord his
        obtain ⟨hsound, hfront, hremoval⟩ := hrecords index was hwas
        refine ⟨hchange.sound hsound, ?_⟩
        rw [hchange.group]
        exact ⟨hfront, hremoval⟩
      · exact hstage.untouched (hrecords id.index record hindex).2.2
          (hhits id.index record hindex) huntouched
    | plan other =>
      obtain ⟨groups, hgroups, rfl, rfl⟩ := Step.perform_plan_ok hdone
      obtain ⟨name, hname, targets, rfl⟩ := hbefore other List.mem_cons_self
      refine ⟨⟨_ ++ before, rest, (List.append_assoc _ _ _).symm, fun plan hplan => ?_⟩,
        fun index is his => ?_, huntouched.board, huntouched.alive⟩
      -- The stages of the groups that were opened are no plans.
      · rcases List.mem_append.1 hplan with hstage | hplan
        · obtain ⟨id, -, hstage⟩ := List.mem_flatMap.1 hstage
          simp [Step.allOf] at hstage
        · exact hearlier plan hplan
      · rcases Plan.getElem?_opened his with ⟨-, hwas⟩ | ⟨-, hfresh⟩
        · exact hrecords index is hwas
        · obtain ⟨hgroup, hblank⟩ := eq_of_mem_freshRecords (List.mem_of_getElem? hfresh)
          obtain ⟨-, territory, hformed⟩ := Plan.formed_overflight hgroups hgroup
          refine ⟨hblank ▸ .fresh _ _, ?_, hformed.removal⟩
          rw [hformed.territory]
          exact hname

/-- The `hits` on record stand. -/
theorem GroupRecord.Follows.hits {was is : GroupRecord} (h : was.Follows is) (hnone : is.hits = 0) :
    was.hits = 0 := by
  unfold GroupRecord.hits at hnone ⊢
  cases hdice : was.dice with
  | none => rfl
  | some dice => rwa [(h.roll dice hdice).1] at hnone

/-- The `plan` is `CarriedOut` on the `board` of the start if nobody was hit in `front` of it. -/
theorem Advances.exists_untouched (hend : last.pending = [])
    (hhits : ∀ record ∈ last.scene.ledger.groups, record.group.territory ∈ front → record.hits = 0)
    (hawaits : Awaits board front plan first) (h : Advances timing count first last) :
    ∃ there groups left, Untouched board there ∧
      CarriedOut timing first last plan there groups left := by
  induction h with
  | refl progress =>
    obtain ⟨before, rest, hpending, -⟩ := hawaits.pending
    simp [hend] at hpending
  | @step count step left next scene mid last done others ih =>
    -- Hits stand once they are on record, so that there are none now if there are none in the end.
    have hnone (index : Nat) (record : GroupRecord)
        (hrecord : scene.ledger.groups[index]? = some record) : record.hits = 0 := by
      obtain ⟨hsound, hfront, -⟩ := hawaits.records index record hrecord
      obtain ⟨is, his, hfollows⟩ := (Advances.step done others).exists_follows hsound hrecord
      refine hfollows.hits (hhits is (List.mem_of_getElem? his) ?_)
      rw [hfollows.group]
      exact hfront
    rcases hawaits.step hnone done with rfl | hlater
    · obtain ⟨groups, hgroups, rfl, rfl⟩ := Step.perform_plan_ok done
      exact ⟨scene, groups, left, hawaits.untouched, ⟨0, .refl _⟩, hgroups, ⟨count, others⟩⟩
    · obtain ⟨there, groups, rest, hthere, hcarried⟩ := ih hend hhits hlater
      exact ⟨there, groups, rest, hthere, hcarried.step done⟩

/-! ### Fire in a territory -/

/-- Whether a group of the `ledger` has rolled in the `territory`. -/
def Ledger.FiredIn (ledger : Ledger) (territory : String) : Prop :=
  ∃ record ∈ ledger.groups, record.group.territory = territory ∧ record.dice.isSome

/-- A plan that finds a `group` that can hit somebody leads to a roll: anti-air has `FiredIn` its
    territory. -/
theorem CarriedOut.firedIn {name : String} {targets : List UnitId} {groups : List FiringGroup}
    {group : FiringGroup} {rest : List Step} (hend : last.pending = [])
    (h : CarriedOut timing first last (.overflight name targets) scene groups rest)
    (hgroup : group ∈ groups) (htargets : group.targets ≠ []) :
    last.scene.ledger.FiredIn name := by
  cases hfirst : groups.find? fun group => !group.targets.isEmpty with
  | none => exact absurd htargets (by simpa using List.find?_eq_none.1 hfirst group hgroup)
  | some other =>
    obtain ⟨hother, silent, more, rfl, hsilent⟩ := List.find?_eq_some_iff_append.1 hfirst
    obtain ⟨is, his, hsame, hdice⟩ := h.exists_dice hend (fun quiet hquiet => by
      simpa using hsilent quiet hquiet) (by simpa using hother)
    obtain ⟨-, territory, hformed⟩ :=
      Plan.formed_overflight h.formed (List.mem_append_right silent List.mem_cons_self)
    refine ⟨is, List.mem_of_getElem? his, ?_, hdice⟩
    rw [hsame, hformed.territory]
    rfl

namespace Overflight

variable {fire later : Overflight} {host there : Host ρ} {route : Route} {units : List UnitId}
  {ordering : BoardUnit → BoardUnit → Ordering} {handle handle' : MoveHandle}
  {killed : List UnitId} {territories : List String}

/-- Where a group of a move was formed, a plan was `CarriedOut`. -/
theorem exists_carriedOut_of_fireAlong (hnew : fire.agenda.isEmpty = true)
    (hforetold : host.board.firingTerritories host.player route units = .ok territories)
    (h : fire.fireAlong host route units ordering handle = (.ok killed, later, handle', there)) :
    ∃ timing start, start.scene.ledger.groups = [] ∧
      (∃ count, Advances timing count start ⟨[], ⟨there, later.ledger⟩⟩) ∧
      ∀ record ∈ later.ledger.groups, record.group.territory ∈ territories ∧
        ∃ targets scene groups rest, record.group ∈ groups ∧
          CarriedOut timing start ⟨[], ⟨there, later.ledger⟩⟩
            (.overflight record.group.territory targets) scene groups rest := by
  obtain ⟨ready, count, hready, hadvances, -⟩ := advances_of_fireAlong h
  obtain ⟨territories', moving, hterritories, -, -, hstart⟩ := prepare_ok hnew hready
  obtain rfl := Except.ok.inj (hforetold.symm.trans hterritories)
  have hgroups : (ready.progress host).scene.ledger.groups = [] := by
    rw [hstart]
    rfl
  refine ⟨ready.timing, ready.progress host, hgroups, ⟨count, hadvances⟩, fun record hrecord => ?_⟩
  obtain ⟨index, hindex⟩ := List.mem_iff_getElem?.1 hrecord
  obtain ⟨plan, scene, groups, rest, hcarried, -, hgroup⟩ :=
    hadvances.exists_carriedOut (by rw [hgroups]; exact Nat.zero_le _) hindex
  have hpending := hcarried.plan_mem
  rw [hstart] at hpending
  -- The plans that were pending are those of the territories that were foretold.
  obtain ⟨name, hname, hplan⟩ := List.mem_map.1 hpending
  obtain rfl := Step.plan.inj hplan
  have hmem : record.group ∈ groups := List.mem_of_getElem? hgroup
  obtain ⟨-, territory, hformed⟩ := Plan.formed_overflight hcarried.formed hmem
  have hterritory : record.group.territory = name := hformed.territory
  rw [hterritory]
  exact ⟨hname, _, scene, groups, rest, hmem, hcarried⟩

/-- Anti-air has `FiredIn` a territory just if it was foretold there, by `firingTerritories`, and a
    group there could hit somebody. -/
theorem firedIn_iff (hnew : fire.agenda.isEmpty = true)
    (hforetold : host.board.firingTerritories host.player route units = .ok territories)
    (h : fire.fireAlong host route units ordering handle = (.ok killed, later, handle', there))
    (name : String) :
    later.ledger.FiredIn name ↔ name ∈ territories ∧
      ∃ record ∈ later.ledger.groups,
        record.group.territory = name ∧ record.group.targets ≠ [] := by
  obtain ⟨timing, start, hgroups, ⟨count, hadvances⟩, hcarried⟩ :=
    exists_carriedOut_of_fireAlong hnew hforetold h
  constructor
  · rintro ⟨record, hrecord, rfl, hdice⟩
    have hproceeds : Proceeds Interlude Stays start count ⟨[], ⟨there, later.ledger⟩⟩ :=
      hadvances.proceeds
    exact ⟨(hcarried record hrecord).1, record, hrecord, rfl,
      hproceeds.targets_of_dice hgroups hrecord hdice⟩
  · rintro ⟨-, record, hrecord, rfl, htargets⟩
    obtain ⟨-, targets, scene, groups, rest, hgroup, hplan⟩ := hcarried record hrecord
    exact hplan.firedIn rfl hgroup htargets

/-- Where it was foretold by `firingTerritories` that anti-air fires, it has fired, if nobody was
    hit in the territories before, those in `front`, the acting player owns one of the `units`, and
    all of them are of declared types that are not infrastructure. -/
theorem firedIn_of_foretold {front back : List String} {name : String}
    (hnew : fire.agenda.isEmpty = true)
    (hforetold : host.board.firingTerritories host.player route units =
      .ok (front ++ name :: back))
    (h : fire.fireAlong host route units ordering handle = (.ok killed, later, handle', there))
    (howner : ∃ id ∈ units, ∃ unit, host.board.unit? id = some unit ∧ unit.owner = host.player)
    (hvulnerable : ∀ id ∈ units, host.board.Vulnerable id)
    (hhits : ∀ record ∈ later.ledger.groups, record.group.territory ∈ front → record.hits = 0) :
    later.ledger.FiredIn name := by
  obtain ⟨ready, count, hready, hadvances, -⟩ := advances_of_fireAlong h
  obtain ⟨moving, hmoving, hfires⟩ := Board.firesAt_of_mem_firingTerritories hforetold
    (List.mem_append_right front List.mem_cons_self)
  obtain ⟨scene, groups, left, hscene, hcarried⟩ :=
    hadvances.exists_untouched rfl hhits (.of_prepare hnew hready hforetold hmoving)
  -- The plan finds what was foretold, since nothing has changed.
  obtain ⟨count, hway⟩ := hcarried.earlier
  have hsteady := (hway.proceeds : Proceeds Interlude Stays _ _ _).steady
  have hplayer : scene.ledger.player = host.player :=
    hsteady.player.trans (prepare_player hnew hready)
  rw [← hscene.board, ← hplayer] at hfires
  have howned : ∃ unit ∈ moving, unit.owner = scene.ledger.player := by
    obtain ⟨id, hid, unit, hunit, hacting⟩ := howner
    exact ⟨unit, Board.mem_of_findUnits hmoving hid hunit, hacting.trans hplayer.symm⟩
  have hsome := Plan.groupsOn_ne_nil hscene.alive (hscene.board.symm ▸ hmoving) howned hfires
    hcarried.formed
  obtain ⟨group, others, rfl⟩ := List.exists_cons_of_ne_nil hsome
  refine hcarried.firedIn rfl List.mem_cons_self
    (Plan.targets_ne_nil_of_groupsOn hcarried.formed List.mem_cons_self fun id hid _ => ?_)
  rw [hscene.board]
  exact hvulnerable id ((perm_inOrder hmoving).mem_iff.1 hid)

end Overflight

end Flak
