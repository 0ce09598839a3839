import Flak.Proofs.Fire.Lockstep
import Flak.Scenario.Basic

namespace Flak

/-!
# Who is lost in a scenario

A scenario has two actions on one board, the fire at its move and the fire in its battles. Each has
a ledger of its own, and the dead of the move stay on the board: the host is to remove them, and
playing a scenario does not.

* `Scenario.runBattles_ok`, `Scenario.runMove_ok` — the dead that are reported are those of the two
  ledgers;
* `Scenario.lost_twice_aimed` — who can be lost twice;
* `Sortie.scenario`, `Scenario.not_lost_once` — who is.
-/

variable {ρ : Type}

/-- The dead in the summaries of groups are those of the `ledger`, as its `toll` has them. -/
theorem Ledger.flatMap_killed_summary (ledger : Ledger) :
    (ledger.groups.map GroupRecord.summary).flatMap GroupSummary.killed = ledger.toll.flatten := by
  rw [List.flatMap_map, toll, ← List.flatMap_def]
  congr 1
  funext record
  cases hlosses : record.losses <;> simp [GroupRecord.summary, GroupRecord.killed, hlosses]

namespace Scenario

section Runs

variable [RandomSource ρ] {scenario : Scenario} {timing : Timing} {dice : ρ} {report : Report}

/-- Battles that succeed by `runBattles` are firings, and the dead that they report are those that
    they add. -/
theorem runBattles_ok {fires : List BattleFire} {killed : List UnitId} {scene last : Scene ρ}
    (h : runBattles timing fires scene = .ok (killed, last)) :
    Firings Step.Unrestricted fires scene last ∧
      last.ledger.casualties = scene.ledger.casualties ++ killed := by
  induction fires generalizing scene killed with
  | nil =>
    obtain ⟨rfl, rfl⟩ := Prod.mk.inj (Except.ok.inj h)
    exact ⟨.none scene, (List.append_nil _).symm⟩
  | cons fire rest ih =>
    rw [runBattles] at h
    rcases hfire : ({} : Engagement).fire timing fire scene with ⟨result, firing, mid⟩
    simp only [hfire] at h
    obtain ⟨dead, rfl, hrest⟩ := Fault.exists_of_bind h
    obtain ⟨⟨others, after⟩, hothers, hpair⟩ := Fault.exists_of_bind hrest
    obtain ⟨rfl, rfl⟩ := Prod.mk.inj (Except.ok.inj hpair)
    obtain ⟨hcourse, hfinished, hdead⟩ := Engagement.fire_ok hfire
    obtain ⟨hfirings, hmore⟩ := ih hothers
    refine ⟨.next hcourse hfinished hfirings, ?_⟩
    rw [hmore, hdead, List.append_assoc]

/-- What a move that succeeds by `runMove` reports of its dead. -/
theorem runMove_ok {host last : Host ρ} (h : scenario.runMove timing host = .ok (report, last)) :
    report.groups.flatMap GroupSummary.killed = report.casualties ∧ report.casualties.Nodup ∧
      ∀ unit ∈ report.casualties, unit ∈ scenario.units := by
  rw [runMove] at h
  cases hroute : scenario.route with
  | none =>
    rw [hroute] at h
    obtain ⟨rfl, -⟩ := Prod.mk.inj (Except.ok.inj h)
    simp
  | some route =>
    rw [hroute] at h
    obtain ⟨firedIn, -, hrest⟩ := Fault.exists_of_bind h
    rcases hfire : ({ timing } : Overflight).fireAlong host route scenario.units
      BoardUnit.leastMovementFirst {} with ⟨result, fire, handle, there⟩
    simp only [hfire] at hrest
    obtain ⟨dead, rfl, hreport⟩ := Fault.exists_of_bind hrest
    obtain ⟨rfl, -⟩ := Prod.mk.inj (Except.ok.inj hreport)
    -- The casualties of the report are those of the ledger, which was made for this move.
    obtain ⟨hcourse, rfl⟩ := Overflight.fireAlong_ok rfl hfire
    obtain ⟨_, _, _, _, -, hstate⟩ := hcourse.inLockstep
    have haccounted := hstate.accounted
    exact ⟨fire.ledger.flatMap_killed_summary.trans haccounted.casualties, haccounted.nodup,
      haccounted.aimed⟩

/-- The losses in the `report` of a scenario are those of its groups, in their order. Nobody is lost
    twice in the move, and nobody twice in the battles. Whoever is lost in both was moving, and some
    battle has it among its targets. -/
theorem lost_twice_aimed (h : scenario.runWith timing dice = .ok report) :
    report.groups.flatMap GroupSummary.killed = report.casualties ++ report.battleCasualties ∧
      report.casualties.Nodup ∧ report.battleCasualties.Nodup ∧
      ∀ unit ∈ report.casualties, unit ∈ report.battleCasualties →
        unit ∈ scenario.units ∧ ∃ battle ∈ scenario.battles, unit ∈ battle.targets := by
  rw [runWith] at h
  obtain ⟨⟨moved, host⟩, hmove, hrest⟩ := Fault.exists_of_bind h
  obtain ⟨⟨dead, last⟩, hbattles, hreport⟩ := Fault.exists_of_bind hrest
  obtain rfl := Except.ok.inj hreport
  obtain ⟨hmoved, honce, hmoving⟩ := runMove_ok hmove
  obtain ⟨hfirings, hdead⟩ := runBattles_ok hbattles
  obtain rfl : last.ledger.casualties = dead := hdead
  -- The battles have a ledger of their own, which begins empty.
  have hstart := @InLockstep.of_plans ρ
    ⟨host, { battle := ⟨1⟩, player := host.player, headless := host.headless }⟩
    (scenario.battles.flatMap BattleFire.targets) [] rfl rfl (by simp)
  have hlockstep := hfirings.inLockstep hstart fun battle hbattle unit hunit =>
    List.mem_flatMap.2 ⟨battle, hbattle, hunit⟩
  obtain ⟨_, _, _, _, -, hstate⟩ := hlockstep
  have haccounted := hstate.accounted
  refine ⟨?_, honce, haccounted.nodup, ?_⟩
  · show (moved.groups ++ last.ledger.groups.map GroupRecord.summary).flatMap _ = _
    rw [List.flatMap_append, hmoved, Ledger.flatMap_killed_summary, haccounted.casualties]
  · intro unit hunit hagain
    obtain ⟨battle, hbattle, htarget⟩ := List.mem_flatMap.1 (haccounted.aimed unit hagain)
    exact ⟨hmoving unit hunit, battle, hbattle, htarget⟩

end Runs

end Scenario

/-! ### A bomber that is lost twice -/

namespace Sortie

/-- The bomber flies over the gun, and then the gun opens a battle against it. -/
def scenario : Scenario where
  board
  player := ⟨"Reds"⟩
  route := some route
  units := [⟨1⟩]
  battles := [volley]

/-- The scene before the battle, which has a ledger of its own. The bomber is still there. -/
def facing : Scene ScriptedDice :=
  ⟨flown.host, { battle := ⟨1⟩, player := flown.host.player, headless := flown.host.headless }⟩

/-- The scene of the battle when the fire was planned. -/
def opened : Scene ScriptedDice :=
  ⟨facing.host, (plan .removeFromBoard).opened [group .removeFromBoard] facing.ledger⟩

/-- The scene of the battle when the gun has rolled. -/
def struck (outcome : Roll × ScriptedDice) : Scene ScriptedDice :=
  (opened.setDice outcome.2).updateRecord ⟨0⟩ fun record => { record with
    activeFiring := [⟨2⟩]
    validTargets := [⟨1⟩]
    dice := some outcome.1
    phase := .rolled }

/-- From where the gun is `facing` the bomber it is planned that it fires, and it rolls. -/
theorem advances_facing :
    Advances {} 2 ⟨[.plan (plan .removeFromBoard)], facing⟩
      ⟨left, struck (outcome.1, ⟨[0], 2⟩)⟩ := by
  have hgroups : (plan .removeFromBoard).groupsOn facing = .ok [group .removeFromBoard] := by
    show Except.ok (board.muster (board.battleMuster volley [⟨1⟩])) = _
    rw [Board.muster_singleton rfl rfl]
    rfl
  have hplan : (Step.perform {} (.plan (plan .removeFromBoard))).onScene facing =
      (.ok (Step.allOf ⟨0⟩), opened) := by
    rw [Step.perform_plan_onScene, Plan.carryOut_onScene, hgroups]
    rfl
  have hroll : (Step.perform {} (.stage .roll ⟨0⟩)).onScene opened =
      (.ok [], struck (outcome.1, ⟨[0], 2⟩)) := by
    rw [← fire_eq_of_consumed 1, Step.perform_stage_onScene, Stage.perform,
      Engine.rollDice_onScene rfl rfl]
    rfl
  exact .step hplan (.step hroll (.refl _))

/-- The move is the sortie, and in the battle the gun kills the bomber once more. -/
theorem runWith_eq : ∃ report, scenario.runWith {} (⟨[0], 0⟩ : ScriptedDice) = .ok report ∧
    report.casualties = [⟨1⟩] ∧ report.battleCasualties = [⟨1⟩] := by
  have hrest : ∃ last, (Agenda.mk left none).run {} (some 2) (struck (outcome.1, ⟨[0], 2⟩)) =
      (.ok 2, {}, last) ∧ last.ledger.casualties = [⟨1⟩] := ⟨_, rfl, rfl⟩
  obtain ⟨last, hlast, hdead⟩ := hrest
  -- The battle is the volley at a bomber that the move has killed but left on the board.
  have hbattles : Scenario.runBattles {} [volley] facing = .ok ([⟨1⟩], last) := by
    rw [Scenario.runBattles, fire_volley advances_facing rfl hlast hdead]
    rfl
  have hmove : scenario.runMove {} (host true) = .ok (
      { firedIn := ["Fort"], casualties := [⟨1⟩], cantUndo := some (undoReason "Flak")
        groups := flown.ledger.groups.map GroupRecord.summary }, flown.host) := by
    have hterritories : (host true).board.firingTerritories (host true).player route [⟨1⟩] =
      .ok ["Fort"] := rfl
    have hroute : scenario.route = some route := rfl
    have hunits : scenario.units = [⟨1⟩] := rfl
    simp only [Scenario.runMove, hroute, hunits, hterritories, fireAlong_eq]
    rfl
  have hhost : scenario.host (⟨[0], 0⟩ : ScriptedDice) = host true := rfl
  have hlost : (scenario.runWith {} (⟨[0], 0⟩ : ScriptedDice)).map
      (fun report => (report.casualties, report.battleCasualties)) = .ok ([⟨1⟩], [⟨1⟩]) := by
    rw [Scenario.runWith, hhost, hmove]
    show (Scenario.runBattles {} [volley] facing >>= _).map _ = _
    rw [hbattles]
    rfl
  obtain ⟨report, hreport, hboth⟩ := Fault.exists_of_map hlost
  exact ⟨report, hreport, Prod.mk.inj hboth⟩

end Sortie

namespace Scenario

/-- In the `Sortie` the bomber is lost in the move and in the battle, which aims at it. -/
theorem lost_twice_aimed_sortie :
    ∃ report, Sortie.scenario.runWith {} (⟨[0], 0⟩ : ScriptedDice) = .ok report ∧
      report.groups.flatMap GroupSummary.killed = [⟨1⟩, ⟨1⟩] ∧
      ⟨1⟩ ∈ Sortie.scenario.units ∧ ∃ battle ∈ Sortie.scenario.battles, ⟨1⟩ ∈ battle.targets := by
  obtain ⟨report, hreport, hmoved, hbattled⟩ := Sortie.runWith_eq
  obtain ⟨hkilled, -, -, haimed⟩ := lost_twice_aimed hreport
  rw [hmoved, hbattled] at hkilled haimed
  exact ⟨report, hreport, hkilled, haimed ⟨1⟩ (by simp) (by simp)⟩

/-- A unit can be lost twice, in the move and in the battles: `runWith` does not look for those that
    are dead. -/
theorem not_lost_once :
    ¬ ∀ (scenario : Scenario) (timing : Timing) (dice : ScriptedDice) (report : Report),
      scenario.runWith timing dice = .ok report →
        (report.casualties ++ report.battleCasualties).Nodup := by
  intro hall
  obtain ⟨report, hreport, hmoved, hbattled⟩ := Sortie.runWith_eq
  have honce := hall _ _ _ _ hreport
  rw [hmoved, hbattled] at honce
  simp at honce

end Scenario

end Flak
