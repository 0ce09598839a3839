import Flak.Proofs.Fire.Additions
import Mathlib

namespace Flak

/-!
# Whom moving units fight for

The player that moving units fight for is found out twice: from all of them, when the territories
that fire are looked for, and then for each territory from those that are left, in the order in
which they are hit.

* `movingPlayer_congr`, `movingPlayer_of_subset` — nothing but the owners decides it, and when some
  of the units decide it as all of them do;
* `Scene.survivors`, `Scene.owners_survivors` — the units that are left, whose owners stay;
* `Overflight.hitPlayer_of_survivors` — a group hits the player that the survivors fight for, who is
  the one that all units fight for if those have one owner, but not in general;
* `Overflight.not_hitPlayer_of_all` — two bombers of different owners.
-/

variable {ρ : Type} {acting owner : PlayerId}

/-! ### The moving player -/

/-- Nothing but the owners decides for whom `units` fight, by `movingPlayer`. -/
theorem movingPlayer_congr {units others : List BoardUnit}
    (h : units.map BoardUnit.owner = others.map BoardUnit.owner) :
    movingPlayer acting units = movingPlayer acting others := by
  have hany (units : List BoardUnit) : (units.any fun unit => unit.owner = acting) =
      (units.map BoardUnit.owner).any fun owner => owner = acting := by
    rw [List.any_map]
    rfl
  unfold movingPlayer
  rw [hany, hany, h]

/-- Units with one `owner` fight for their owner. -/
theorem movingPlayer_of_owner {units : List BoardUnit} (hne : units ≠ [])
    (h : ∀ unit ∈ units, unit.owner = owner) : movingPlayer acting units = owner := by
  cases units with
  | nil => exact absurd rfl hne
  | cons unit rest =>
    have hunit : unit.owner = owner := h unit List.mem_cons_self
    by_cases hacting : owner = acting
    · rw [movingPlayer_of_mem List.mem_cons_self (hunit.trans hacting), hacting]
    · unfold movingPlayer
      have hnone : ((unit :: rest).any fun unit => unit.owner = acting) = false := by
        rw [List.any_eq_false]
        intro other hother
        rw [h other hother]
        simpa using hacting
      rw [hnone, if_neg Bool.false_ne_true, List.map_cons, hunit]
      by_cases hnobody : owner = .nobody
      · -- Nobody is passed over, and nobody else is left.
        have hothers : (owner :: rest.map BoardUnit.owner).find? (fun owner => owner ≠ .nobody) =
            none := by
          rw [List.find?_eq_none]
          intro other hother
          have hsame : other = owner := by
            rcases List.mem_cons.1 hother with rfl | hrest
            · rfl
            · obtain ⟨unit, hunit, rfl⟩ := List.mem_map.1 hrest
              exact h unit (List.mem_cons_of_mem _ hunit)
          simp [hsame, hnobody]
        rw [hothers, hnobody]
        rfl
      · rw [List.find?_cons_of_pos (by simpa using hnobody)]
        rfl

/-- Some of the `units` fight for whom all of them fight for if the `acting` player owns one of
    them, or if all units have one `owner`. -/
theorem movingPlayer_of_subset {units others : List BoardUnit} (hsubset : others ⊆ units)
    (hne : others ≠ [])
    (howner : (∃ unit ∈ others, unit.owner = acting) ∨
      ∃ owner, ∀ unit ∈ units, unit.owner = owner) :
    movingPlayer acting others = movingPlayer acting units := by
  rcases howner with ⟨unit, hunit, howner⟩ | ⟨owner, howner⟩
  · rw [movingPlayer_of_mem hunit howner, movingPlayer_of_mem (hsubset hunit) howner]
  · have hne' : units ≠ [] := fun hnil => hne (List.subset_nil.1 (hnil ▸ hsubset))
    rw [movingPlayer_of_owner hne fun unit hunit => howner unit (hsubset hunit),
      movingPlayer_of_owner hne' howner]

/-! ### Survivors -/

/-- Those `units` that are neither killed nor taken off the board of the `scene`. -/
def Scene.survivors (scene : Scene ρ) (units : List BoardUnit) : List BoardUnit :=
  units.filter fun unit =>
    !scene.ledger.isCasualty unit.id && scene.host.board.hasUnit unit.id

/-- Units that are `found` are found again under their numbers. -/
theorem Board.unit?_of_mem_findUnits {board : Board} {ids : List UnitId} {found : List BoardUnit}
    (h : board.findUnits ids = .ok found) : ∀ unit ∈ found, board.unit? unit.id = some unit := by
  induction ids generalizing found with
  | nil =>
    obtain rfl : [] = found := by simpa [findUnits, pure, Except.pure] using h
    simp
  | cons id rest ih =>
    rw [findUnits, List.mapM_cons] at h
    obtain ⟨unit, hunit, hothers⟩ := Fault.exists_of_bind h
    obtain ⟨others, hrest, hfound⟩ := Fault.exists_of_bind hothers
    obtain rfl := Except.ok.inj hfound
    obtain ⟨hfind, hid⟩ := unit_eq_ok hunit
    exact List.forall_mem_cons.2 ⟨by rw [hid]; exact hfind, ih hrest⟩

/-- Whatever fire has done to a board, the `units` that are left have the owners that they had. -/
theorem Scene.owners_survivors {before : Board} {scene : Scene ρ} {units : List BoardUnit}
    (hworn : before.Worn scene.host.board)
    (hunits : ∀ unit ∈ units, before.unit? unit.id = some unit) :
    ((((units.map BoardUnit.id).filter fun id =>
      !scene.ledger.isCasualty id && scene.host.board.hasUnit id).filterMap
        scene.host.board.unit?).map BoardUnit.owner) =
      (scene.survivors units).map BoardUnit.owner := by
  unfold survivors
  rw [List.filter_map, List.filterMap_map, List.map_filterMap]
  rw [← List.filterMap_eq_map]
  refine List.filterMap_congr fun unit hunit => ?_
  obtain ⟨hmem, hleft⟩ := List.mem_filter.1 hunit
  obtain ⟨-, hthere⟩ := Bool.and_eq_true_iff.1 hleft
  obtain ⟨left, hthere⟩ := Option.isSome_iff_exists.1 hthere
  rcases hworn.unit? unit.id with hgone | ⟨was, hits, hwas, his⟩
  · simp [hgone] at hthere
  · obtain rfl := Option.some.inj (hwas.symm.trans (hunits unit hmem))
    simp [his]

/-! ### Groups -/

variable [RandomSource ρ] {Permits : Timing → Step → Scene ρ → Prop}

/-- Each group that fires at a move was planned on the way, and its `hitPlayer` is the player that
    those units fight for which were left then, in the order in which they are hit. This is the
    player that all moving units fight for if the acting player owned one of those that were left,
    or if all moving units have one owner. -/
theorem Overflight.hitPlayer_of_survivors {fire now : Overflight} {host there : Host ρ}
    {route : Route} {units : List UnitId} {ordering : BoardUnit → BoardUnit → Ordering}
    (h : Course Permits fire host route units ordering now there) :
    ∃ ready moving, fire.prepare host route units ordering = .ok ready ∧
      host.board.findUnits units = .ok moving ∧
      ∀ record ∈ now.ledger.groups, ∃ scene : Scene ρ,
        PlannedOn Stays (ready.progress host) (.overflight record.group.territory
          ((inOrder ordering moving).map BoardUnit.id)) scene record.group ∧
        record.group.hitPlayer =
          movingPlayer host.player (scene.survivors (inOrder ordering moving)) ∧
        ((∃ unit ∈ scene.survivors moving, unit.owner = host.player) ∨
            (∃ owner, ∀ unit ∈ moving, unit.owner = owner) →
          record.group.hitPlayer = movingPlayer host.player moving) := by
  obtain ⟨ready, hnew, hready⟩ := h.exists_prepared
  obtain ⟨territories, moving, -, hmoving, -, hstart⟩ := prepare_ok hnew hready
  obtain ⟨count, hproceeds⟩ := h.proceeds_from hready
  refine ⟨ready, moving, hready, hmoving, fun record hrecord => ?_⟩
  obtain ⟨index, hindex⟩ := List.mem_iff_getElem?.1 hrecord
  obtain ⟨scene, hplanned, ⟨id, hid, hleft⟩, territory, hformed⟩ :=
    exists_formed hnew hready hmoving hproceeds hindex
  obtain ⟨earlier, rest, hway⟩ := hplanned.proceeds
  refine ⟨scene, hplanned, ?_⟩
  have hplayer : scene.ledger.player = host.player := by
    rw [hway.steady.player, hstart]
    rfl
  have hboard : (ready.progress host).scene.host.board = host.board := by rw [hstart]
  have hworn := hway.worn
  rw [hboard] at hworn
  have hfound : ∀ unit ∈ inOrder ordering moving, host.board.unit? unit.id = some unit := by
    intro unit hunit
    exact Board.unit?_of_mem_findUnits hmoving unit ((List.mergeSort_perm moving _).mem_iff.1 hunit)
  have hhit : record.group.hitPlayer =
      movingPlayer host.player (scene.survivors (inOrder ordering moving)) := by
    rw [hformed.hitPlayer, ← movingPlayer_congr (Scene.owners_survivors hworn hfound), ← hplayer]
    rfl
  refine ⟨hhit, fun howner => ?_⟩
  -- The order does not matter any more, and a plan for which nobody is left forms no groups.
  have hperm : (scene.survivors (inOrder ordering moving)).Perm (scene.survivors moving) :=
    (List.mergeSort_perm moving _).filter _
  have hsubset : scene.survivors (inOrder ordering moving) ⊆ moving := fun unit hunit =>
    (List.mem_filter.1 (hperm.subset hunit)).1
  obtain ⟨unit, hunit, rfl⟩ := List.mem_map.1 hid
  have hsurvives : unit ∈ scene.survivors (inOrder ordering moving) :=
    List.mem_filter.2 ⟨hunit, hleft⟩
  rw [hhit]
  refine movingPlayer_of_subset hsubset (List.ne_nil_of_mem hsurvives) (howner.imp_left ?_)
  rintro ⟨unit, hunit, howner⟩
  exact ⟨unit, hperm.mem_iff.2 hunit, howner⟩

/-! ### Two bombers of different owners -/

namespace Convoy

/-- A bomber of another owner, which is hit before the bomber of the sortie. -/
def escort : BoardUnit :=
  { Sortie.bomber with id := ⟨3⟩, owner := ⟨"Whites"⟩, movementLeft := 1 }

/-- Both bombers over the gun, moved by a player who owns neither. -/
def host : Host ScriptedDice where
  board := { Sortie.board with
    units := Sortie.board.units ++ [escort]
    territories := [⟨"Fort", ⟨"Blues"⟩, [⟨1⟩, ⟨2⟩, ⟨3⟩]⟩] }
  player := ⟨"Greens"⟩
  headless := true
  dice := ⟨[0], 0⟩

/-- The plan for the only territory, with the bombers in the order in which they are hit. -/
def plan : Plan := .overflight "Fort" [⟨3⟩, ⟨1⟩]

/-- The `scene` as the plan is taken up. -/
def scene : Scene ScriptedDice := ⟨host, Overflight.freshLedger host [⟨3⟩, ⟨1⟩]⟩

/-- The move as `prepare` leaves it. -/
def ready : Overflight := { agenda := ⟨[.plan plan], none⟩, ledger := scene.ledger }

/-- The `board` knows both bombers. -/
theorem findUnits_eq : host.board.findUnits [⟨1⟩, ⟨3⟩] = .ok [Sortie.bomber, escort] := rfl

/-- For whom both fight, in the order in which they are named. -/
theorem movingPlayer_eq : movingPlayer host.player [Sortie.bomber, escort] = ⟨"Reds"⟩ := by
  decide

/-- The move can be prepared by `prepare`. -/
theorem prepare_eq :
    Overflight.prepare {} host Sortie.route [⟨1⟩, ⟨3⟩] BoardUnit.leastMovementFirst =
      .ok ready := by
  have horder : Overflight.inOrder BoardUnit.leastMovementFirst [Sortie.bomber, escort] =
      [escort, Sortie.bomber] := by cbv
  have hfires : host.board.firingTerritories host.player Sortie.route [⟨1⟩, ⟨3⟩] =
      .ok ["Fort"] := rfl
  rw [Overflight.prepare_eq_ok rfl hfires findUnits_eq horder]
  rfl

/-- The group that is planned hits the owner of the `escort`. -/
theorem groupsOn_eq : ∃ group, plan.groupsOn scene = .ok [group] ∧
    group.hitPlayer = ⟨"Whites"⟩ := by
  have hgroups : plan.groupsOn scene = .ok (host.board.muster (host.board.overflightMuster
    host.player ⟨"Fort", ⟨"Blues"⟩, [⟨1⟩, ⟨2⟩, ⟨3⟩]⟩ "Fort" [⟨3⟩, ⟨1⟩])) := rfl
  have hplayers : (host.board.muster (host.board.overflightMuster host.player
      ⟨"Fort", ⟨"Blues"⟩, [⟨1⟩, ⟨2⟩, ⟨3⟩]⟩ "Fort" [⟨3⟩, ⟨1⟩])).map FiringGroup.hitPlayer =
        [⟨"Whites"⟩] := by cbv
  obtain ⟨group, hgroup, hplayer⟩ := List.map_eq_singleton_iff.1 hplayers
  rw [hgroup] at hgroups
  exact ⟨group, hgroups, hplayer⟩

/-- In its `Course` the move comes to where its only territory was planned. -/
theorem exists_course : ∃ now there, Overflight.Course Step.Unrestricted {} host Sortie.route
    [⟨1⟩, ⟨3⟩] BoardUnit.leastMovementFirst now there ∧
      ∃ record ∈ now.ledger.groups, record.group.hitPlayer = ⟨"Whites"⟩ := by
  obtain ⟨group, hgroups, hplayer⟩ := groupsOn_eq
  have hplan : (Step.perform {} (.plan plan)).onScene scene =
      (.ok (Step.allOf ⟨0⟩), { scene with ledger := plan.opened [group] scene.ledger }) := by
    rw [Step.perform_plan_onScene, Plan.carryOut_onScene, hgroups]
    rfl
  -- The plan is the only step that is run; what follows of it is left.
  have hadvances : Advances {} 1 ⟨ready.agenda.pending, ⟨host, ready.ledger⟩⟩
      ⟨Step.allOf ⟨0⟩, { scene with ledger := plan.opened [group] scene.ledger }⟩ :=
    .step hplan (.refl _)
  have hreaches : Reaches (some 1) 1 (Step.allOf ⟨0⟩) := by simp [Reaches]
  have hrun := Agenda.run_eq_ok hadvances hreaches
  rcases hready : ready.run (some 1) host with ⟨result, now, there⟩
  have hnow : now.ledger = plan.opened [group] scene.ledger := by
    have hagenda := Overflight.run_eq hready
    rw [show ready.timing = {} from rfl, hrun] at hagenda
    exact (congrArg (fun result => result.2.2.ledger) hagenda).symm
  refine ⟨now, there, .ran (.prepared rfl prepare_eq) (some 1) (fun _ _ _ => trivial) hready, ?_⟩
  rw [hnow]
  exact ⟨_, List.mem_singleton_self _, hplayer⟩

end Convoy

namespace Overflight

/-- In the `Convoy` the escort comes first among the survivors, and the other bomber among all that
    move. -/
theorem hitPlayer_of_survivors_convoy :
    ∃ now there record moving, ∃ scene : Scene ScriptedDice,
      Course Step.Unrestricted {} Convoy.host Sortie.route [⟨1⟩, ⟨3⟩] BoardUnit.leastMovementFirst
        now there ∧
      record ∈ now.ledger.groups ∧ Convoy.host.board.findUnits [⟨1⟩, ⟨3⟩] = .ok moving ∧
      movingPlayer ⟨"Greens"⟩ moving = ⟨"Reds"⟩ ∧
      movingPlayer ⟨"Greens"⟩ (scene.survivors (inOrder BoardUnit.leastMovementFirst moving)) =
        ⟨"Whites"⟩ := by
  obtain ⟨now, there, hcourse, record, hrecord, hplayer⟩ := Convoy.exists_course
  obtain ⟨ready, moving, -, hmoving, hall⟩ := hitPlayer_of_survivors hcourse
  obtain ⟨scene, -, hhit, -⟩ := hall record hrecord
  obtain rfl := Except.ok.inj (Convoy.findUnits_eq.symm.trans hmoving)
  exact ⟨now, there, record, _, scene, hcourse, hrecord, hmoving, Convoy.movingPlayer_eq,
    hhit.symm.trans hplayer⟩

/-- A group does not always hit the player that all moving units fight for, their `movingPlayer`. -/
theorem not_hitPlayer_of_all :
    ¬ ∀ (fire now : Overflight) (host there : Host ScriptedDice) (route : Route)
      (units : List UnitId) (ordering : BoardUnit → BoardUnit → Ordering)
      (moving : List BoardUnit),
        Course Step.Unrestricted fire host route units ordering now there →
        host.board.findUnits units = .ok moving →
        ∀ record ∈ now.ledger.groups, record.group.hitPlayer = movingPlayer host.player moving := by
  intro hall
  obtain ⟨now, there, hcourse, record, hrecord, hplayer⟩ := Convoy.exists_course
  have hsame := hall _ _ _ _ _ _ _ _ hcourse Convoy.findUnits_eq record hrecord
  rw [hplayer, Convoy.movingPlayer_eq] at hsame
  exact absurd hsame (by decide)

end Overflight

end Flak
