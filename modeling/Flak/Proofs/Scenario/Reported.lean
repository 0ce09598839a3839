import Flak.Proofs.Fire.Foretold
import Flak.Proofs.Scenario.Casualties

namespace Flak

/-!
# Where a report says that anti-air fired

A report names the territories for which fire was foretold. None is missing: wherever a group has
rolled, the territory is named. But a territory may be named although nothing has fired there, since
somebody was hit before.

* `Scenario.firedIn_of_runWith` — what the territories of a report are;
* `Gauntlet`, `Scenario.not_firedIn_of_report` — a report that names a territory in vain.
-/

namespace Scenario

variable {ρ : Type} {scenario : Scenario} {timing : Timing} {dice : ρ} {report : Report}
  {route : Route}

/-- Connecting players, by `Scenario.host`, changes neither the board nor whose turn it is. -/
theorem board_host (scenario : Scenario) (dice : ρ) :
    (scenario.host dice).board = scenario.board ∧
      (scenario.host dice).player = scenario.player := by
  have hconnected (players : List Player) (host : Host ρ) :
      (players.foldl (fun host player => host.connect player.id { address := player.id.name })
        host).board = host.board ∧
      (players.foldl (fun host player => host.connect player.id { address := player.id.name })
        host).player = host.player := by
    induction players generalizing host with
    | nil => exact ⟨rfl, rfl⟩
    | cons player rest ih => exact ih (host.connect player.id { address := player.id.name })
  unfold host
  split
  · exact hconnected _ _
  · exact ⟨rfl, rfl⟩

/-- A `scenario` with a move that succeeds has the fire at the move behind its report: the
    casualties of the move are the report's, and its groups come first there. Anti-air has fired in
    a territory just if the report names the territory in `firedIn` and a group there could hit
    somebody. If the acting player owns one of the units and all of them are of declared types that
    are not infrastructure, anti-air has fired in a territory that the report names unless somebody
    was hit in one that it names before. -/
theorem firedIn_of_runWith [RandomSource ρ] (hroute : scenario.route = some route)
    (h : scenario.runWith timing dice = .ok report) :
    ∃ fire handle last,
      ({ timing } : Overflight).fireAlong (scenario.host dice) route scenario.units
        BoardUnit.leastMovementFirst {} = (.ok report.casualties, fire, handle, last) ∧
      (∃ battles, report.groups = fire.ledger.groups.map GroupRecord.summary ++ battles) ∧
      (∀ name, fire.ledger.FiredIn name ↔ name ∈ report.firedIn ∧
        ∃ record ∈ fire.ledger.groups,
          record.group.territory = name ∧ record.group.targets ≠ []) ∧
      ((∃ id ∈ scenario.units, ∃ unit,
          scenario.board.unit? id = some unit ∧ unit.owner = scenario.player) →
        (∀ id ∈ scenario.units, scenario.board.Vulnerable id) →
        ∀ front name back, report.firedIn = front ++ name :: back →
          (∀ record ∈ fire.ledger.groups, record.group.territory ∈ front → record.hits = 0) →
          fire.ledger.FiredIn name) := by
  rw [runWith] at h
  obtain ⟨⟨moved, host⟩, hmove, hrest⟩ := Fault.exists_of_bind h
  obtain ⟨⟨dead, after⟩, -, hreport⟩ := Fault.exists_of_bind hrest
  obtain rfl := Except.ok.inj hreport
  rw [runMove, hroute] at hmove
  -- The territories of the report are found before anything is fired.
  obtain ⟨firedIn, hforetold, hfired⟩ := Fault.exists_of_bind hmove
  rcases hfire : ({ timing } : Overflight).fireAlong (scenario.host dice) route scenario.units
    BoardUnit.leastMovementFirst {} with ⟨result, fire, handle, last⟩
  simp only [hfire] at hfired
  obtain ⟨killed, rfl, hmoved⟩ := Fault.exists_of_bind hfired
  obtain ⟨rfl, rfl⟩ := Prod.mk.inj (Except.ok.inj hmoved)
  refine ⟨fire, handle, last, rfl, ⟨_, rfl⟩, Overflight.firedIn_iff rfl hforetold hfire, ?_⟩
  obtain ⟨hboard, hplayer⟩ := scenario.board_host dice
  rw [← hboard, ← hplayer]
  rintro howner hvulnerable front name back rfl hhits
  exact Overflight.firedIn_of_foretold rfl hforetold hfire howner hvulnerable hhits

end Scenario

/-! ### A bomber that is lost on the way -/

namespace Gauntlet

/-- A `route` over the fort and the port. -/
def route : Route := ⟨["Home", "Fort", "Port", "Goal"], by simp⟩

/-- A `scenario` in which the bomber is to fly over one gun and then over another. -/
def scenario : Scenario where
  board := { Sortie.board with
    units := Sortie.board.units ++ [⟨⟨3⟩, "Gun", ⟨"Blues"⟩, 0, 0, false, none⟩]
    territories := [⟨"Home", ⟨"Reds"⟩, [⟨1⟩]⟩, ⟨"Fort", ⟨"Blues"⟩, [⟨2⟩]⟩,
      ⟨"Port", ⟨"Blues"⟩, [⟨3⟩]⟩, ⟨"Goal", ⟨"Reds"⟩, []⟩] }
  player := ⟨"Reds"⟩
  route := some route
  units := [⟨1⟩]

/-- The `host` of the scenario, without remote players. -/
def host : Host ScriptedDice := scenario.host ⟨[0], 0⟩

/-- The scene at the `start` of the move. -/
def start : Scene ScriptedDice := ⟨host, Overflight.freshLedger host [⟨1⟩]⟩

/-- The plans for both guns. -/
def ready : Overflight where
  agenda := ⟨[.plan (.overflight "Fort" [⟨1⟩]), .plan (.overflight "Port" [⟨1⟩])], none⟩
  ledger := start.ledger

/-- The scene after the fire over the fort was planned. -/
def planned : Scene ScriptedDice :=
  ⟨host, (Sortie.plan .returnToHost).opened [Sortie.group .returnToHost] start.ledger⟩

/-- The scene after the gun in the fort has rolled. -/
def struck (outcome : Roll × ScriptedDice) : Scene ScriptedDice :=
  (planned.setDice outcome.2).updateRecord ⟨0⟩ fun record => { record with
    activeFiring := [⟨2⟩]
    validTargets := [⟨1⟩]
    dice := some outcome.1
    phase := .rolled }

/-- What is left to do then. -/
def left : List Step := Sortie.left ++ [.plan (.overflight "Port" [⟨1⟩])]

/-- The scene after the move. The gun in the port has not rolled. -/
def passed : Scene ScriptedDice :=
  ((Agenda.mk left none).run {} (some 3) (struck Sortie.outcome)).2.2

/-- Both guns are foretold to fire, by `firingTerritories`. -/
theorem firingTerritories_eq :
    host.board.firingTerritories host.player route [⟨1⟩] = .ok ["Fort", "Port"] := rfl

/-- The move is `ready` when it was prepared. -/
theorem prepare_eq :
    Overflight.prepare {} host route [⟨1⟩] BoardUnit.leastMovementFirst = .ok ready := by
  have hmoving : host.board.findUnits [⟨1⟩] = .ok [Sortie.bomber] := rfl
  rw [Overflight.prepare_eq_ok rfl firingTerritories_eq hmoving
    (List.mergeSort_singleton Sortie.bomber)]
  rfl

/-- Over the fort the bomber is killed, and for the port nobody is left. -/
theorem advances : Advances {} 5 (ready.progress host) ⟨[], passed⟩ := by
  have hgroups : (Sortie.plan .returnToHost).groupsOn start =
      .ok [Sortie.group .returnToHost] := by
    show Except.ok (host.board.muster (host.board.overflightMuster ⟨"Reds"⟩
      ⟨"Fort", ⟨"Blues"⟩, [⟨2⟩]⟩ "Fort" [⟨1⟩])) = _
    rw [Board.muster_singleton rfl rfl]
    rfl
  -- Over the fort there is one group, and it rolls. All that follows is run.
  have hplan : (Step.perform {} (.plan (Sortie.plan .returnToHost))).onScene start =
      (.ok (Step.allOf ⟨0⟩), planned) := by
    rw [Step.perform_plan_onScene, Plan.carryOut_onScene, hgroups]
    rfl
  have hroll : (Step.perform {} (.stage .roll ⟨0⟩)).onScene planned =
      (.ok [], struck Sortie.outcome) := by
    rw [← Sortie.fire_eq, Step.perform_stage_onScene, Stage.perform,
      Engine.rollDice_onScene rfl rfl]
    rfl
  have hrest : (Agenda.mk left none).run {} (some 3) (struck Sortie.outcome) =
      (.ok 3, {}, passed) := rfl
  exact .step hplan (.step hroll (Agenda.advances_of_run hrest))

/-- The move ends as `passed`, with the bomber dead. -/
theorem fireAlong_eq :
    ({} : Overflight).fireAlong host route [⟨1⟩] BoardUnit.leastMovementFirst {} =
      (.ok [⟨1⟩], ⟨{}, {}, passed.ledger⟩, ⟨some (undoReason "Flak")⟩, passed.host) :=
  Overflight.fireAlong_of_advances prepare_eq advances

/-- The report has both guns in `firedIn`. -/
theorem runWith_eq : ∃ report, scenario.runWith {} (⟨[0], 0⟩ : ScriptedDice) = .ok report ∧
    report.firedIn = ["Fort", "Port"] ∧ report.casualties = [⟨1⟩] := by
  have hmove : scenario.runMove {} host = .ok (
      { firedIn := ["Fort", "Port"], casualties := [⟨1⟩], cantUndo := some (undoReason "Flak")
        groups := passed.ledger.groups.map GroupRecord.summary }, passed.host) := by
    have hroute : scenario.route = some route := rfl
    have hunits : scenario.units = [⟨1⟩] := rfl
    simp only [Scenario.runMove, hroute, hunits, firingTerritories_eq, fireAlong_eq]
    rfl
  have hhost : scenario.host (⟨[0], 0⟩ : ScriptedDice) = host := rfl
  rw [Scenario.runWith, hhost, hmove]
  exact ⟨_, rfl, rfl, rfl⟩

end Gauntlet

namespace Scenario

/-- In the `Gauntlet` the gun in the fort has fired, as it was foretold. -/
theorem firedIn_of_runWith_gauntlet :
    ∃ report fire handle last,
      Gauntlet.scenario.runWith {} (⟨[0], 0⟩ : ScriptedDice) = .ok report ∧
      ({} : Overflight).fireAlong (Gauntlet.scenario.host (⟨[0], 0⟩ : ScriptedDice)) Gauntlet.route
        [⟨1⟩] BoardUnit.leastMovementFirst {} = (.ok report.casualties, fire, handle, last) ∧
      fire.ledger.FiredIn "Fort" := by
  obtain ⟨report, hreport, hforetold, -⟩ := Gauntlet.runWith_eq
  obtain ⟨fire, handle, last, hfire, -, -, hfired⟩ := firedIn_of_runWith rfl hreport
  refine ⟨report, fire, handle, last, hreport, hfire,
    hfired ⟨⟨1⟩, List.mem_cons_self, Sortie.bomber, rfl, rfl⟩ ?_ [] "Fort" ["Port"] hforetold
      (by simp)⟩
  intro id hid
  obtain rfl := List.mem_singleton.1 hid
  exact ⟨_, rfl, rfl⟩

/-- What a report has in `firedIn` can name a territory in which nothing has fired. -/
theorem not_firedIn_of_report :
    ¬ ∀ (scenario : Scenario) (timing : Timing) (dice : ScriptedDice) (route : Route)
        (report : Report) (fire : Overflight) (handle : MoveHandle) (last : Host ScriptedDice),
        scenario.route = some route → scenario.runWith timing dice = .ok report →
        ({ timing } : Overflight).fireAlong (scenario.host dice) route scenario.units
          BoardUnit.leastMovementFirst {} = (.ok report.casualties, fire, handle, last) →
        ∀ name, name ∈ report.firedIn ↔ fire.ledger.FiredIn name := by
  intro hall
  obtain ⟨report, hreport, hforetold, hkilled⟩ := Gauntlet.runWith_eq
  have hfire : ({} : Overflight).fireAlong Gauntlet.host Gauntlet.route [⟨1⟩]
      BoardUnit.leastMovementFirst {} = (.ok report.casualties, ⟨{}, {}, Gauntlet.passed.ledger⟩,
        ⟨some (undoReason "Flak")⟩, Gauntlet.passed.host) := by
    rw [hkilled]
    exact Gauntlet.fireAlong_eq
  obtain ⟨record, hrecord, hname, hdice⟩ :=
    (hall Gauntlet.scenario {} ⟨[0], 0⟩ Gauntlet.route report _ _ _ rfl hreport hfire "Port").1
      (by simp [hforetold])
  have hnone : Gauntlet.passed.ledger.groups.any (fun record =>
      record.group.territory = "Port" && record.dice.isSome) = false := rfl
  exact absurd (List.any_eq_false.1 hnone record hrecord) (by simp [hname, hdice])

end Scenario

end Flak
