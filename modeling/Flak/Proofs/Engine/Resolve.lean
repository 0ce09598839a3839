import Flak.Engine.Resolve
import Flak.Proofs.Board.Changes
import Flak.Proofs.Engine.Exchange
import Flak.Proofs.Losses.Check

namespace Flak

/-!
# What each stage of a group does

One equation for each of the three stages, so that nothing later opens them:

* `Engine.rollDice_onScene` — the roll;
* `Engine.selectCasualties_onScene`, `Engine.chooseLosses_onScene`, `Engine.commitLosses_onScene` —
  the selection; what it writes is `Scene.commit`;
* `Engine.notifyCasualties_onScene`, `Engine.finish_onScene` — the notice; what it takes off the
  board is `Board.cleared`.

A stage whose work is not due leaves the scene as it is.
-/

variable {ρ : Type} {id : GroupId} {scene : Scene ρ} {record : GroupRecord}

/-- A `report` goes out or not; the board is the same. -/
theorem Host.report_board (player : PlayerId) (message title : String) (host : Host ρ) :
    (host.report player message title).board = host.board := by
  rw [report]
  split <;> rfl

/-- A `report` goes out or not; the history is the same. -/
theorem Host.report_history (player : PlayerId) (message title : String) (host : Host ρ) :
    (host.report player message title).history = host.history := by
  rw [report]
  split <;> rfl

namespace Scene

/-- The `scene` after something was rolled, with the `dice` as they are then. -/
def setDice (dice : ρ) (scene : Scene ρ) : Scene ρ :=
  { scene with host := { scene.host with dice } }

/-- The `scene` with another `board`. -/
def setBoard (board : Board) (scene : Scene ρ) : Scene ρ :=
  { scene with host := { scene.host with board } }

/-- The `scene` with a `change` made to the record of a group. -/
def updateRecord (id : GroupId) (change : GroupRecord → GroupRecord) (scene : Scene ρ) : Scene ρ :=
  { scene with ledger := scene.ledger.updateRecord id change }

/-- The losses proposed for the group on `record` that has scored `hits`, and the dice after
    them. -/
def proposal [RandomSource ρ] (record : GroupRecord) (targets : List Target) (hits : Nat)
    (scene : Scene ρ) : Losses × ρ :=
  Losses.select scene.host.board.rules.casualtyMode targets hits
    s!"{record.group.kind} casualties in {record.group.territory}" scene.host.dice

/-- The host after the `losses` of the `group` were marked and reported. -/
def commitHost (group : FiringGroup) (hits : Nat) (losses : Losses) (scene : Scene ρ) : Host ρ :=
  let host := scene.host.report scene.ledger.player (Engine.hitReport group hits losses) group.kind
  let host := { host with board := (Board.markDamaged losses.damaged host.board).2 }
  if losses.killed.isEmpty then host
  else host.addHistory s!"{host.board.censusText losses.killed} lost in {group.territory}"
    losses.killed

/-- The `scene` after the `losses` of the `group` were selected. -/
def commit (id : GroupId) (group : FiringGroup) (hits : Nat) (losses : Losses) (scene : Scene ρ) :
    Scene ρ where
  host := scene.commitHost group hits losses
  ledger := (scene.ledger.recordKilled losses.killed).updateRecord id fun record =>
    { record with losses := some losses, phase := .casualtiesSelected }

/-- The board of `commitHost` has taken the damage of the `losses`, and nothing else. -/
theorem commitHost_board (group : FiringGroup) (hits : Nat) (losses : Losses) (scene : Scene ρ) :
    (scene.commitHost group hits losses).board =
      (Board.markDamaged losses.damaged scene.host.board).2 := by
  unfold commitHost
  cases losses.killed.isEmpty <;> simp [Host.addHistory, Host.report_board]

/-- By `commitHost`, the dead enter the history together, if there are any. -/
theorem commitHost_history (group : FiringGroup) (hits : Nat) (losses : Losses) (scene : Scene ρ) :
    ∃ entries, (scene.commitHost group hits losses).history = scene.host.history ++ entries ∧
      entries.map HistoryEntry.units = if losses.killed.isEmpty then [] else [losses.killed] := by
  unfold commitHost
  cases losses.killed.isEmpty with
  | true => exact ⟨[], by simp [Host.report_history], rfl⟩
  | false => exact ⟨[⟨_, losses.killed⟩], by simp [Host.addHistory, Host.report_history]; rfl, rfl⟩

end Scene

namespace Board

/-- The `board` after the dead of a group were taken off, if they go at once; the group is the one
    on `record`. -/
def withoutDead (record : GroupRecord) (losses : Losses) (board : Board) : Board :=
  if record.group.removal = .removeFromBoard ∧ !losses.killed.isEmpty then
    (board.removeUnits record.group.territory losses.killed).2
  else board

/-- The `board` after the guns of the group on `record` that were spent on its hits were taken
    off. -/
def withoutSpent (record : GroupRecord) (board : Board) : Board :=
  if (record.group.suicideOnHit ∧ 0 < record.hits) ∧
      !(Engine.spentGuns board record).isEmpty then
    (board.removeUnits record.group.territory (Engine.spentGuns board record)).2
  else board

/-- The `board` after the `losses` of a group were confirmed: without its dead, and then without its
    spent guns. -/
def cleared (record : GroupRecord) (losses : Losses) (board : Board) : Board :=
  (board.withoutDead record losses).withoutSpent record

/-- The rules stay on a board that is `cleared`. -/
theorem cleared_rules (record : GroupRecord) (losses : Losses) (board : Board) :
    (board.cleared record losses).rules = board.rules := by
  have hdead : (board.withoutDead record losses).rules = board.rules := by
    unfold withoutDead
    split
    · exact removeUnits_rules _ _ _
    · rfl
  rw [← hdead, cleared, withoutSpent]
  split
  · exact removeUnits_rules _ _ _
  · rfl

/-- Whether the dead of the group on `record` have to be taken out of a territory that does not
    exist. -/
def CannotClear (record : GroupRecord) (losses : Losses) (board : Board) : Prop :=
  (record.group.removal = .removeFromBoard ∧ !losses.killed.isEmpty) ∧
    board.territory? record.group.territory = none

/-- A unit stands in known territories only, as `standsIn` looks it up there. -/
theorem territory?_isSome_of_standsIn {board : Board} {unit : UnitId} {territory : String}
    (h : board.standsIn unit territory) : ∃ found, board.territory? territory = some found := by
  cases hfound : board.territory? territory with
  | none => simp [standsIn, hfound] at h
  | some found => exact ⟨found, rfl⟩

/-- The `spentGuns` stand in a known territory, so that taking them off cannot fail. -/
theorem removeUnits_spentGuns {record : GroupRecord} {board : Board}
    (h : (Engine.spentGuns board record).isEmpty = false) :
    (board.removeUnits record.group.territory (Engine.spentGuns board record)).1 = .ok () := by
  -- One spent gun is enough to know the territory by.
  obtain ⟨unit, hunit⟩ := List.exists_mem_of_ne_nil _ (by simpa using h)
  have hstands := (List.mem_filter.1 (List.mem_of_mem_take hunit)).2
  obtain ⟨found, hfound⟩ := territory?_isSome_of_standsIn hstands
  exact removeUnits_eq_ok hfound _

end Board

namespace Engine

/-! ### Whether a stage is due -/

/-- The work of a step is `due` in the phase that it expects. -/
theorem due_eq_true (h : record.phase = expected) : due record expected = .ok true := by
  simp [due, h]

/-- The first stage is `due` or over. -/
theorem due_pendingRoll (h : record.phase ≠ .pendingRoll) :
    due record .pendingRoll = .ok false := by
  have hrank : Phase.rank .pendingRoll < record.phase.rank := by
    cases hphase : record.phase with
    | pendingRoll => exact absurd hphase h
    | _ => decide
  rw [due, if_neg h, if_pos hrank]

/-! ### Roll -/

/-- A roll that is over does nothing: `rollDice` in a later phase. -/
theorem rollDice_onScene_past [RandomSource ρ] (hrecord : scene.ledger.record id = .ok record)
    (hphase : record.phase ≠ .pendingRoll) :
    (rollDice id).onScene scene = (.ok (), scene) := by
  simp [rollDice, onScene_bind, hrecord, due_pendingRoll hphase]

/-- The roll of a group that is due, by `rollDice`. It fails only if a gun is of no known type. -/
theorem rollDice_onScene [RandomSource ρ] (hrecord : scene.ledger.record id = .ok record)
    (hphase : record.phase = .pendingRoll) :
    (rollDice id).onScene scene =
      match gunsIn scene.host.board record.group.territory record.group.firingUnits with
      | .error fault => (.error fault, scene)
      | .ok guns =>
          let targets := openTargets scene record.group
          if targets.isEmpty || guns.isEmpty then
            (.ok (), scene.updateRecord id fun record => { record with phase := .done })
          else
            let shooters := guns.map fun gun => Shooter.ofAbility gun.1 gun.2
            let fire := Roll.fire shooters targets.length (sidesOf scene.host.board.rules guns)
              scene.host.board.rules.lowLuck
              s!"Roll {record.group.kind} in {record.group.territory}" scene.host.dice
            (.ok (), (scene.setDice fire.2).updateRecord id fun record => { record with
              activeFiring := shooters.map Shooter.unit
              validTargets := targets
              dice := some fire.1
              phase := .rolled }) := by
  cases hguns : gunsIn scene.host.board record.group.territory record.group.firingUnits with
  | error fault => simp [rollDice, onScene_bind, hrecord, due_eq_true hphase, hguns]
  | ok guns =>
    simp only [rollDice, onScene_bind, onScene_record, hrecord, due_eq_true hphase, hguns,
      onScene_of, onScene_get, if_true]
    split
    · rfl
    · simp only [onScene_bind, onScene_withDice, onScene_changeLedger]
      rfl

/-- The `guns` that fire are among the firing `units`, in their order, and stand in the
    `territory`. -/
theorem gunsIn_eq_ok {board : Board} {territory : String} {units : List UnitId}
    {guns : List (UnitId × AntiAir)} (h : gunsIn board territory units = .ok guns) :
    (guns.map Prod.fst).Sublist units ∧
      ∀ unit ∈ guns.map Prod.fst, board.standsIn unit territory := by
  -- By induction on the units, as the look-up goes through them.
  induction units generalizing guns with
  | nil =>
    obtain rfl : [] = guns := by simpa [gunsIn] using h
    simp
  | cons unit rest ih =>
    rw [gunsIn] at h
    split at h
    · rename_i hstands
      obtain ⟨⟨_, type⟩, -, hothers⟩ := Fault.exists_of_bind h
      obtain ⟨others, hrest, hguns⟩ := Fault.exists_of_bind hothers
      obtain rfl := Except.ok.inj hguns
      obtain ⟨hsublist, hall⟩ := ih hrest
      -- A unit without anti-air has no gun and is passed over.
      cases type.aa with
      | none => exact ⟨hsublist.cons unit, hall⟩
      | some aa =>
        refine ⟨hsublist.cons_cons unit, fun other hother => ?_⟩
        rcases List.mem_cons.1 hother with rfl | hother
        · exact hstands
        · exact hall other hother
    · obtain ⟨hsublist, hall⟩ := ih h
      exact ⟨hsublist.cons unit, hall⟩

/-- There are never more hits from `Roll.fire` than `targets`. -/
theorem hits_fire_le [RandomSource ρ] (shooters : List Shooter) (targets sides : Nat)
    (lowLuck : Bool) (purpose : String) (dice : ρ) :
    (Roll.fire shooters targets sides lowLuck purpose dice).1.hits ≤ targets := by
  unfold Roll.fire
  dsimp only
  split
  · exact Nat.zero_le _
  · exact Nat.min_le_right _ _

/-! ### Select -/

/-- The work of `selectCasualties` that is not due. -/
theorem selectCasualties_onScene_not_due [RandomSource ρ] (timing : Timing)
    (hrecord : scene.ledger.record id = .ok record) (hphase : record.phase ≠ .rolled) :
    (selectCasualties timing id).onScene scene =
      ((due record .rolled).map fun _ => (), scene) := by
  -- Both a fault and a stage that is past end the selection here.
  have hdue : due record .rolled ≠ .ok true := by
    rw [due, if_neg hphase]
    split <;> simp
  rcases h : due record .rolled with fault | _ | _
  · simp [selectCasualties, onScene_bind, hrecord, h, Except.map]
  · simp [selectCasualties, onScene_bind, hrecord, h, Except.map]
  · exact absurd h hdue

/-- The selection of a group that has rolled, by `selectCasualties`. -/
theorem selectCasualties_onScene [RandomSource ρ] (timing : Timing)
    (hrecord : scene.ledger.record id = .ok record) (hphase : record.phase = .rolled) :
    (selectCasualties timing id).onScene scene =
      match scene.host.board.targets record.validTargets with
      | .error fault => (.error fault, scene)
      | .ok targets =>
          ((if (record.dice.getD {}).hits = 0 then pure {}
            else chooseLosses timing record id (record.dice.getD {}) targets) >>=
            commitLosses id record.group (record.dice.getD {}).hits).onScene scene := by
  cases htargets : scene.host.board.targets record.validTargets with
  | error fault =>
    simp [selectCasualties, onScene_bind, hrecord, due_eq_true hphase, htargets]
  | ok targets =>
    simp only [selectCasualties, onScene_bind, onScene_record, hrecord, due_eq_true hphase,
      htargets, onScene_of, onScene_get, if_true]
    split
    · rw [onScene_bind_ok (onScene_pure _ _), onScene_pure]
    · rw [onScene_bind]

/-- The choice of losses by `chooseLosses`: the proposal is checked before anybody is asked. -/
theorem chooseLosses_onScene [RandomSource ρ] (timing : Timing) (record : GroupRecord)
    (id : GroupId) (roll : Roll) (targets : List Target) (scene : Scene ρ) :
    (chooseLosses timing record id roll targets).onScene scene =
      let proposal := scene.proposal record targets roll.hits
      match proposal.1.check targets roll.hits with
      | .error fault => (.error fault, scene.setDice proposal.2)
      | .ok () =>
          if scene.host.board.rules.casualtyMode = .interactive ∧ !scene.ledger.headless then
            match (askForLosses timing id record.group.hitPlayer
              (requestOf scene.ledger record.group roll targets proposal.1)).onScene
                (scene.setDice proposal.2) with
            | (.ok choice, after) => (.ok (ruling targets roll.hits proposal.1 choice), after)
            | (.error fault, after) => (.error fault, after)
          else (.ok proposal.1, scene.setDice proposal.2) := by
  have hproposal : Losses.select scene.host.board.rules.casualtyMode targets roll.hits
      s!"{record.group.kind} casualties in {record.group.territory}" scene.host.dice =
        scene.proposal record targets roll.hits := rfl
  simp only [chooseLosses, onScene_bind, onScene_get, onScene_withDice, onScene_of, hproposal]
  generalize scene.proposal record targets roll.hits = proposal
  cases hcheck : proposal.1.check targets roll.hits with
  | error fault => rfl
  | ok _ =>
    dsimp only
    -- Somebody is asked only if the rules say so and somebody takes part.
    split
    · rcases h : (askForLosses timing id record.group.hitPlayer
        (requestOf scene.ledger record.group roll targets proposal.1)).onScene
          (scene.setDice proposal.2) with ⟨fault | choice, after⟩
      · exact onScene_bind_error h
      · exact onScene_bind_ok h
    · rfl

/-- The `losses` on known units can be written, and `commit` is what is written. -/
theorem commitLosses_onScene (id : GroupId) (group : FiringGroup) (hits : Nat) {losses : Losses}
    {scene : Scene ρ} (hknown : ∀ entry ∈ losses.damaged, scene.host.board.hasUnit entry.1) :
    (commitLosses id group hits losses).onScene scene =
      (.ok (), scene.commit id group hits losses) := by
  have hmark : (Board.markDamaged losses.damaged scene.host.board).1 = .ok () :=
    Board.markDamaged_eq_ok hknown
  have hboard : (scene.host.report scene.ledger.player (hitReport group hits losses)
      group.kind).board = scene.host.board := Host.report_board _ _ _ _
  simp only [commitLosses, onScene_bind, onScene_get, onScene_changeHost, onScene_changeBoard,
    hboard, hmark]
  cases hkilled : losses.killed.isEmpty <;>
    simp [Scene.commit, Scene.commitHost, hkilled, hboard, onScene_bind]

/-- Without hits nobody is lost by `selectCasualties`. -/
theorem selectCasualties_onScene_no_hits [RandomSource ρ] {timing : Timing} {targets : List Target}
    (hrecord : scene.ledger.record id = .ok record) (hphase : record.phase = .rolled)
    (htargets : scene.host.board.targets record.validTargets = .ok targets)
    (hhits : (record.dice.getD {}).hits = 0) :
    (selectCasualties timing id).onScene scene = (.ok (), scene.commit id record.group 0 {}) := by
  rw [selectCasualties_onScene timing hrecord hphase, htargets]
  dsimp only
  rw [hhits, if_pos rfl, onScene_bind_ok (onScene_pure _ _), commitLosses_onScene]
  simp

/-- With hits, `selectCasualties` gives them out as `chooseLosses` says. -/
theorem selectCasualties_onScene_hits [RandomSource ρ] {timing : Timing} {targets : List Target}
    (hrecord : scene.ledger.record id = .ok record) (hphase : record.phase = .rolled)
    (htargets : scene.host.board.targets record.validTargets = .ok targets)
    (hhits : (record.dice.getD {}).hits ≠ 0) :
    (selectCasualties timing id).onScene scene =
      (chooseLosses timing record id (record.dice.getD {}) targets >>=
        commitLosses id record.group (record.dice.getD {}).hits).onScene scene := by
  rw [selectCasualties_onScene timing hrecord hphase, htargets]
  dsimp only
  rw [if_neg hhits]

/-- What was accepted damages known units only, where `losses` are `Valid`. -/
theorem hasUnit_of_damaged {board : Board} {units : List UnitId} {targets : List Target}
    (htargets : board.targets units = .ok targets) {losses : Losses}
    (hvalid : losses.Valid targets) : ∀ entry ∈ losses.damaged, board.hasUnit entry.1 := by
  intro entry hentry
  obtain ⟨target, htarget, hunit, -⟩ := hvalid.damaged entry hentry
  refine Board.hasUnit_of_targets htargets _ ?_
  have hmem : target.unit ∈ targets.map Target.unit := List.mem_map_of_mem htarget
  exact (Board.map_unit_targets_sublist htargets).subset (hunit ▸ hmem)

/-- A `ruling` on a default that is accepted is accepted. -/
theorem check_ruling {targets : List Target} {hits : Nat} {default : Losses}
    (h : default.check targets hits = .ok ()) (choice : Option Losses) :
    (ruling targets hits default choice).check targets hits = .ok () := by
  cases choice with
  | none => exact h
  | some losses =>
    rw [ruling]
    cases hcheck : losses.check targets hits with
    | error fault => exact h
    | ok _ => exact hcheck

/-- A choice by `chooseLosses` that comes about is accepted; dice apart, only letters were exchanged
    for it. -/
theorem chooseLosses_cases [RandomSource ρ] (timing : Timing) (record : GroupRecord)
    (id : GroupId) (roll : Roll) (targets : List Target) (scene : Scene ρ) :
    (∃ dice, Consulted id (scene.setDice dice)
        ((chooseLosses timing record id roll targets).onScene scene).2) ∧
      ∀ losses, ((chooseLosses timing record id roll targets).onScene scene).1 = .ok losses →
        losses.check targets roll.hits = .ok () := by
  rw [chooseLosses_onScene]
  generalize scene.proposal record targets roll.hits = proposal
  dsimp only
  cases hcheck : proposal.1.check targets roll.hits with
  | error fault => exact ⟨⟨_, .refl id _⟩, by simp⟩
  | ok _ =>
    dsimp only
    -- Either the answer of the player is checked, or the proposal stands, which was checked before.
    split
    · rename_i hinteractive
      have hsomebody : scene.ledger.headless = false := by simpa using hinteractive.2
      have hasked := (askForLosses_exchanges id record.group.hitPlayer timing
        (requestOf scene.ledger record.group roll targets proposal.1)
          (scene.setDice proposal.2)).1.consulted hsomebody
      rcases hanswer : (askForLosses timing id record.group.hitPlayer
        (requestOf scene.ledger record.group roll targets proposal.1)).onScene
          (scene.setDice proposal.2) with ⟨fault | choice, after⟩
      · rw [hanswer] at hasked
        exact ⟨⟨_, hasked⟩, by simp⟩
      · rw [hanswer] at hasked
        refine ⟨⟨_, hasked⟩, fun losses hlosses => ?_⟩
        obtain rfl : ruling targets roll.hits proposal.1 choice = losses := by simpa using hlosses
        exact check_ruling hcheck choice
    · refine ⟨⟨_, .refl id _⟩, fun losses hlosses => ?_⟩
      obtain rfl : proposal.1 = losses := by simpa using hlosses
      exact hcheck

/-- Hits that cannot be given out end the selection with the `fault` of the choice. -/
theorem selectCasualties_onScene_unchosen [RandomSource ρ] {timing : Timing}
    {targets : List Target} {fault : Fault} {mid : Scene ρ}
    (hrecord : scene.ledger.record id = .ok record) (hphase : record.phase = .rolled)
    (htargets : scene.host.board.targets record.validTargets = .ok targets)
    (hhits : (record.dice.getD {}).hits ≠ 0)
    (hchosen : (chooseLosses timing record id (record.dice.getD {}) targets).onScene scene =
      (.error fault, mid)) :
    (selectCasualties timing id).onScene scene = (.error fault, mid) := by
  rw [selectCasualties_onScene_hits hrecord hphase htargets hhits]
  exact onScene_bind_error hchosen

/-- The `losses` that were chosen are written without fail. -/
theorem selectCasualties_onScene_chosen [RandomSource ρ] {timing : Timing}
    {targets : List Target} {losses : Losses} {mid : Scene ρ}
    (hrecord : scene.ledger.record id = .ok record) (hphase : record.phase = .rolled)
    (htargets : scene.host.board.targets record.validTargets = .ok targets)
    (hhits : (record.dice.getD {}).hits ≠ 0)
    (hchosen : (chooseLosses timing record id (record.dice.getD {}) targets).onScene scene =
      (.ok losses, mid)) :
    (selectCasualties timing id).onScene scene =
      (.ok (), mid.commit id record.group (record.dice.getD {}).hits losses) := by
  obtain ⟨⟨dice, hmid⟩, hchecked⟩ :=
    chooseLosses_cases timing record id (record.dice.getD {}) targets scene
  rw [hchosen] at hmid hchecked
  have hvalid := Losses.valid_of_check (hchecked losses rfl)
  -- Letters leave the board alone, so that the units are still known when losses are written.
  have hboard : mid.host.board = scene.host.board := hmid.board
  rw [selectCasualties_onScene_hits hrecord hphase htargets hhits, onScene_bind_ok hchosen,
    commitLosses_onScene]
  rw [hboard]
  exact hasUnit_of_damaged htargets hvalid

/-- What `selectCasualties` comes to when it is due: it fails and, dice apart, only letters were
    exchanged, or losses were selected that the check accepts. -/
theorem selectCasualties_cases [RandomSource ρ] (timing : Timing)
    (hrecord : scene.ledger.record id = .ok record) (hphase : record.phase = .rolled) :
    (∃ fault after dice, (selectCasualties timing id).onScene scene = (.error fault, after) ∧
        Consulted id (scene.setDice dice) after) ∨
      ∃ targets losses mid dice, scene.host.board.targets record.validTargets = .ok targets ∧
        Consulted id (scene.setDice dice) mid ∧
        losses.check targets (record.dice.getD {}).hits = .ok () ∧
        (selectCasualties timing id).onScene scene =
          (.ok (), mid.commit id record.group (record.dice.getD {}).hits losses) := by
  cases htargets : scene.host.board.targets record.validTargets with
  | error fault =>
    rw [selectCasualties_onScene timing hrecord hphase, htargets]
    exact .inl ⟨fault, scene, scene.host.dice, rfl, .refl id _⟩
  | ok targets =>
    -- Without hits nobody chooses, and no losses at all are accepted.
    by_cases hhits : (record.dice.getD {}).hits = 0
    · refine .inr ⟨targets, {}, scene, scene.host.dice, rfl, .refl id _, ?_, ?_⟩
      · rw [hhits]
        exact Losses.check_empty targets
      · rw [selectCasualties_onScene_no_hits hrecord hphase htargets hhits, hhits]
    · obtain ⟨⟨dice, hmid⟩, hchecked⟩ :=
        chooseLosses_cases timing record id (record.dice.getD {}) targets scene
      rcases hchosen : (chooseLosses timing record id (record.dice.getD {}) targets).onScene scene
        with ⟨fault | losses, mid⟩
      · rw [hchosen] at hmid
        exact .inl ⟨fault, mid, dice,
          selectCasualties_onScene_unchosen hrecord hphase htargets hhits hchosen, hmid⟩
      · rw [hchosen] at hmid hchecked
        exact .inr ⟨targets, losses, mid, dice, rfl, hmid, hchecked losses rfl,
          selectCasualties_onScene_chosen hrecord hphase htargets hhits hchosen⟩

/-! ### Clearing the board -/

/-- The dead of a group are taken off by `clearDead` unless their territory does not exist. -/
theorem clearDead_onScene (record : GroupRecord) (losses : Losses) (scene : Scene ρ) :
    (¬ Board.CannotClear record losses scene.host.board ∧
        (clearDead record losses).onScene scene =
          (.ok (), scene.setBoard (scene.host.board.withoutDead record losses))) ∨
      Board.CannotClear record losses scene.host.board ∧
        (clearDead record losses).onScene scene =
          (.error (.unknownTerritory record.group.territory), scene) := by
  by_cases hdead : record.group.removal = .removeFromBoard ∧ !losses.killed.isEmpty
  · rw [clearDead, if_pos hdead, onScene_changeBoard]
    cases hfound : scene.host.board.territory? record.group.territory with
    | none =>
      refine .inr ⟨⟨hdead, hfound⟩, ?_⟩
      rw [Board.removeUnits_of_unknown hfound]
    | some found =>
      refine .inl ⟨fun h => by simp [h.2] at hfound, ?_⟩
      rw [Board.withoutDead, if_pos hdead]
      exact Prod.ext (Board.removeUnits_eq_ok hfound losses.killed) rfl
  · refine .inl ⟨fun h => hdead h.1, ?_⟩
    rw [clearDead, if_neg hdead, Board.withoutDead, if_neg hdead]
    rfl

/-- The spent guns of a group are taken off by `clearSpent` without fail. -/
theorem clearSpent_onScene (record : GroupRecord) (scene : Scene ρ) :
    (clearSpent record).onScene scene =
      (.ok (), scene.setBoard (scene.host.board.withoutSpent record)) := by
  by_cases hsuicide : record.group.suicideOnHit ∧ 0 < record.hits
  · rw [clearSpent, if_pos hsuicide, onScene_bind_ok (onScene_get scene)]
    cases hspent : (spentGuns scene.host.board record).isEmpty with
    | true => simp [Board.withoutSpent, hspent, Scene.setBoard]
    | false =>
      have hok := Board.removeUnits_spentGuns hspent
      simp only [Bool.not_false, if_true, Board.withoutSpent, hspent, hsuicide, and_self]
      exact Prod.ext hok rfl
  · rw [clearSpent, if_neg hsuicide, Board.withoutSpent, if_neg fun h => hsuicide h.1]
    rfl

/-- The board is cleared by `clearBoard`, or `CannotClear` it; it fails before it changes
    anything. -/
theorem clearBoard_onScene (record : GroupRecord) (losses : Losses) (scene : Scene ρ) :
    (¬ Board.CannotClear record losses scene.host.board ∧
        (clearBoard record losses).onScene scene =
          (.ok (), scene.setBoard (scene.host.board.cleared record losses))) ∨
      Board.CannotClear record losses scene.host.board ∧
        (clearBoard record losses).onScene scene =
          (.error (.unknownTerritory record.group.territory), scene) := by
  rcases clearDead_onScene record losses scene with ⟨hcan, hdead⟩ | ⟨hcannot, hdead⟩
  · refine .inl ⟨hcan, ?_⟩
    rw [clearBoard, onScene_bind_ok hdead, clearSpent_onScene]
    rfl
  · exact .inr ⟨hcannot, onScene_bind_error hdead⟩

/-! ### Notify -/

/-- The work of `notifyCasualties` that is not due: the group is done already, or it has no losses
    to confirm yet. -/
theorem notifyCasualties_onScene_not_due (hrecord : scene.ledger.record id = .ok record)
    (hselected : record.phase ≠ .casualtiesSelected) (hconfirmed : record.phase ≠ .confirmed) :
    (notifyCasualties id).onScene scene =
      ((due record .casualtiesSelected).map fun _ => (), scene) := by
  rw [notifyCasualties, onScene_bind_ok (by rw [onScene_record, hrecord])]
  cases hphase : record.phase with
  | casualtiesSelected => exact absurd hphase hselected
  | confirmed => exact absurd hphase hconfirmed
  | done => simp [due, hphase, Phase.rank, Except.map]
  | pendingRoll => simp [due, hphase, Phase.rank, Except.map, onScene_bind]
  | rolled => simp [due, hphase, Phase.rank, Except.map, onScene_bind]

/-- For a group whose losses are confirmed, `notifyCasualties` does nothing but `finish`. -/
theorem notifyCasualties_onScene_confirmed (hrecord : scene.ledger.record id = .ok record)
    (hphase : record.phase = .confirmed) :
    (notifyCasualties id).onScene scene =
      (finish id record (record.losses.getD {})).onScene scene := by
  rw [notifyCasualties, onScene_bind_ok (by rw [onScene_record, hrecord])]
  simp only [hphase]

/-- For a group whose losses are selected, `notifyCasualties` has them confirmed and goes on to
    `finish`. -/
theorem notifyCasualties_onScene (hrecord : scene.ledger.record id = .ok record)
    (hphase : record.phase = .casualtiesSelected) :
    (notifyCasualties id).onScene scene =
      (confirm id record (record.losses.getD {}) >>= fun _ =>
        finish id record (record.losses.getD {})).onScene scene := by
  rw [notifyCasualties, onScene_bind_ok (by rw [onScene_record, hrecord])]
  simp only [hphase, due_eq_true hphase]
  rfl

/-- To `confirm` losses exchanges letters, if anybody takes part, and enters the phase. -/
theorem confirm_cases (id : GroupId) (record : GroupRecord) (losses : Losses) (scene : Scene ρ) :
    ∃ (result : Except Fault Unit) (mid : Scene ρ), Consulted id scene mid ∧
      (confirm id record losses).onScene scene =
        match result with
        | .error fault => (.error fault, mid)
        | .ok () =>
            (.ok (), mid.updateRecord id fun record => { record with phase := .confirmed }) := by
  cases hheadless : scene.ledger.headless with
  | true =>
    refine ⟨.ok (), scene, .refl id scene, ?_⟩
    simp [confirm, onScene_bind, hheadless, Scene.updateRecord]
  | false =>
    have hexchanged := (confirmLosses_exchanges id record.group
      (noticeOf scene.ledger record losses) scene).1.consulted hheadless
    rcases h : (confirmLosses id record.group (noticeOf scene.ledger record losses)).onScene scene
      with ⟨result, mid⟩
    rw [h] at hexchanged
    refine ⟨result, mid, hexchanged, ?_⟩
    cases result with
    | error fault => simp [confirm, onScene_bind, hheadless, h]
    | ok _ => simp [confirm, onScene_bind, hheadless, h, Scene.updateRecord]

/-- The end of a group, `finish`: it fails without a change, or the board is cleared and the group
    done. -/
theorem finish_onScene (id : GroupId) (record : GroupRecord) (losses : Losses) (scene : Scene ρ) :
    (¬ Board.CannotClear record losses scene.host.board ∧
        (finish id record losses).onScene scene =
          (.ok (), (scene.setBoard (scene.host.board.cleared record losses)).updateRecord id
            fun record => { record with phase := .done })) ∨
      Board.CannotClear record losses scene.host.board ∧
        (finish id record losses).onScene scene =
          (.error (.unknownTerritory record.group.territory), scene) := by
  rcases clearBoard_onScene record losses scene with ⟨hcan, hclear⟩ | ⟨hcannot, hclear⟩
  · refine .inl ⟨hcan, ?_⟩
    rw [finish, onScene_bind_ok hclear]
    rfl
  · exact .inr ⟨hcannot, onScene_bind_error hclear⟩

end Engine

end Flak
