import Flak.Proofs.Board.Consistency
import Flak.Proofs.Fire.Additions
import Mathlib

namespace Flak

/-!
# Fire on a consistent board

Groups take units off the board, and out of the list of the territory that they fire in. Guns that
are spent stand in this territory; the dead of a battle need not.

* `Ledger.TakenOff`, `Ledger.Astray` — the dead that groups have taken off, and those of them that
  may still be listed in another territory;
* `Tidy`, `Tidy.attempt`, `Proceeds.tidy` — what an attempt at a step keeps of a consistent board,
  and so at any time;
* `consistent_under_fire` — a move keeps a board consistent, and a firing in a battle does if none
  of its targets is listed in another territory;
* `not_consistent_after_battle` — a bomber that stays listed.
-/

variable {ρ : Type} {scene after : Scene ρ} {id : GroupId} {record : GroupRecord} {first : Nat}

/-! ### The dead that are taken off -/

/-- Whether a group of the `ledger` from a position on that is done has killed the `unit` and taken
    it off the board, out of the territory of this `name`. -/
def Ledger.TakenOff (first : Nat) (ledger : Ledger) (name : String) (unit : UnitId) : Prop :=
  ∃ (index : Nat) (record : GroupRecord), first ≤ index ∧ ledger.groups[index]? = some record ∧
    record.phase = .done ∧ record.group.removal = .removeFromBoard ∧
    record.group.territory = name ∧ unit ∈ record.killed

/-- Whether the `unit` was taken off out of another territory than the one of this `name`. -/
def Ledger.Astray (first : Nat) (ledger : Ledger) (name : String) (unit : UnitId) : Prop :=
  ∃ other, name ≠ other ∧ ledger.TakenOff first other unit

/-- Those who were `TakenOff` stay so. -/
theorem Ledger.TakenOff.attempt [RandomSource ρ] {name : String} {unit : UnitId}
    (h : scene.ledger.TakenOff first name unit) (timing : Timing) (step : Step)
    (rest : List Step) :
    (Progress.attempt timing ⟨step :: rest, scene⟩).scene.ledger.TakenOff first name unit := by
  obtain ⟨index, was, hle, hwas, hdone, hremoval, hname, hunit⟩ := h
  obtain ⟨is, his, hchange⟩ := Progress.attempt_record hwas timing step rest
  obtain ⟨hphase, hlosses⟩ := hchange.stands_of_done hdone
  refine ⟨index, is, hle, his, hphase, ?_, ?_, ?_⟩
  · rw [hchange.group]
    exact hremoval
  · rw [hchange.group]
    exact hname
  · rw [GroupRecord.killed, hlosses]
    exact hunit

/-- Whom a board does not have, it does not have when it is `Worn` either. -/
theorem Board.Worn.hasUnit_eq_false {before after : Board} (h : before.Worn after) {unit : UnitId}
    (hgone : before.hasUnit unit = false) : after.hasUnit unit = false := by
  rcases h.unit? unit with hnone | ⟨was, _, hwas, -⟩
  · simp [hasUnit, hnone]
  · simp [hasUnit, hwas] at hgone

/-- The dead of a group whose territory is known are gone after they were taken off by `cleared`. -/
theorem Board.hasUnit_cleared_of_killed {board : Board} {losses : Losses} {unit : UnitId}
    (hremoval : record.group.removal = .removeFromBoard)
    (hknown : board.Knows record.group.territory) (hunit : unit ∈ losses.killed) :
    (board.cleared record losses).hasUnit unit = false := by
  have hsome : losses.killed.isEmpty = false := by
    rw [List.isEmpty_eq_false_iff_exists_mem]
    exact ⟨unit, hunit⟩
  refine (worn_withoutSpent record _).hasUnit_eq_false ?_
  rw [withoutDead, if_pos ⟨hremoval, by simp [hsome]⟩, hasUnit, unit?_removeUnits hknown,
    if_pos hunit]
  rfl

/-- Those `killed` are those of the losses, if there are any. -/
theorem GroupRecord.killed_eq (record : GroupRecord) :
    record.killed = (record.losses.getD {}).killed := by
  cases hlosses : record.losses <;> simp [killed, hlosses]

namespace StageDone

variable {stage : Stage} {stray : String → UnitId → Prop}

/-- The `stage` keeps a board `ConsistentBut` for those whom its group then has taken off. -/
theorem consistentBut (hrecord : scene.ledger.record id = .ok record)
    (h : StageDone id record scene stage after) (hboard : scene.host.board.ConsistentBut stray)
    (hdead : ∀ name unit, name ≠ record.group.territory →
      after.ledger.TakenOff id.index record.group.territory unit → stray name unit) :
    after.host.board.ConsistentBut stray := by
  cases h with
  | past => exact hboard
  | idle => exact hboard
  | rolled => exact hboard
  | @selected _ _ _ mid losses _ hletters _ =>
    have hmid : mid.host.board = scene.host.board := hletters.board
    show (mid.commitHost record.group (record.dice.getD {}).hits losses).board.ConsistentBut stray
    rw [Scene.commitHost_board, hmid]
    exact hboard.markDamaged losses.damaged
  | @finished hphase mid hletters =>
    -- Who is listed elsewhere is dead of this group, which is done and takes its dead off.
    refine hboard.cleared fun hremoval name hname unit hunit => hdead name unit hname ?_
    have hdone : StageDone id record scene .notify _ := .finished hphase hletters
    have hlt : id.index < scene.ledger.groups.length :=
      (List.getElem?_eq_some_iff.1 (Ledger.record_eq_ok.1 hrecord)).1
    have his := List.getElem?_eq_getElem (hdone.length ▸ hlt)
    obtain ⟨told, hsame⟩ := GroupRecord.exists_of_finish hrecord hletters.toExchanged his
    refine ⟨id.index, _, Nat.le_refl _, his, ?_, ?_, ?_, ?_⟩
    · rw [hsame]
    · rw [hsame]
      exact hremoval
    · rw [hsame]
      rfl
    · rw [hsame, GroupRecord.killed_eq]
      exact hunit

/-- No `stage` enters anybody in a list. -/
theorem lists (h : StageDone id record scene stage after) {name : String} {unit : UnitId}
    (hlists : after.host.board.Lists name unit) : scene.host.board.Lists name unit := by
  cases h with
  | past => exact hlists
  | idle => exact hlists
  | rolled => exact hlists
  | @selected _ _ _ mid losses _ hletters _ =>
    have hmid : mid.host.board = scene.host.board := hletters.board
    change (mid.commitHost record.group (record.dice.getD {}).hits losses).board.Lists name unit
      at hlists
    rw [Scene.commitHost_board, hmid] at hlists
    exact (Board.lists_markDamaged losses.damaged).1 hlists
  | finished => exact Board.lists_of_cleared hlists

end StageDone

/-! ### What is kept of a consistent board -/

/-- What fire keeps of a board that was consistent, as `origin`, when the groups from a position on
    began to fire. -/
structure Tidy (first : Nat) (origin : Board) (scene : Scene ρ) : Prop where
  consistentBut : scene.host.board.ConsistentBut (scene.ledger.Astray first)
  lists : ∀ name unit, scene.host.board.Lists name unit → origin.Lists name unit
  gone : ∀ name unit, scene.ledger.TakenOff first name unit → scene.host.board.Knows name →
    scene.host.board.hasUnit unit = false

namespace Tidy

variable {origin : Board}

/-- Before there are groups nobody was taken off, so that a `Consistent` board is `Tidy`. -/
theorem of_consistent (h : scene.host.board.Consistent) :
    Tidy scene.ledger.groups.length scene.host.board scene where
  consistentBut := h.weaken fun _ _ _ => False.elim
  lists _ _ hlists := hlists
  gone := by
    rintro name unit ⟨index, record, hle, hrecord, -⟩
    rw [List.getElem?_eq_none hle] at hrecord
    simp at hrecord

/-- In an `Interlude` a board stays `Tidy`. -/
theorem interlude (h : Tidy first origin scene) (hpause : Interlude scene after) :
    Tidy first origin after := by
  -- The board and the records are as before, and so is who was taken off.
  have htaken (name : String) (unit : UnitId) :
      after.ledger.TakenOff first name unit ↔ scene.ledger.TakenOff first name unit := by
    simp only [Ledger.TakenOff, hpause.groups]
  refine ⟨?_, ?_, ?_⟩
  · rw [hpause.board]
    refine h.consistentBut.weaken fun name unit _ => ?_
    rintro ⟨other, hother, htakenOff⟩
    exact ⟨other, hother, (htaken other unit).2 htakenOff⟩
  · rw [hpause.board]
    exact h.lists
  · intro name unit htakenOff
    rw [hpause.board]
    exact h.gone name unit ((htaken name unit).1 htakenOff)

variable [RandomSource ρ] {timing : Timing} {step : Step} {rest : List Step}

/-- Those who were `TakenOff` in a known territory are gone, since then or just now. -/
theorem gone_attempt (h : Tidy first origin scene) (hsound : scene.ledger.SoundFrom first)
    {name : String} {unit : UnitId}
    (htaken : (Progress.attempt timing ⟨step :: rest, scene⟩).scene.ledger.TakenOff first name unit)
    (hknown : (Progress.attempt timing ⟨step :: rest, scene⟩).scene.host.board.Knows name) :
    (Progress.attempt timing ⟨step :: rest, scene⟩).scene.host.board.hasUnit unit = false := by
  have hworn := Progress.attempt_worn timing step rest scene
  have hknew : scene.host.board.Knows name := (hworn.territory? name).symm.trans hknown
  obtain ⟨index, is, hle, his, hdone, hremoval, hname, hunit⟩ := htaken
  rcases Progress.record_of_attempt his with ⟨-, hfresh⟩ | ⟨was, hwas, hchange⟩
  · rw [hfresh] at hdone
    simp at hdone
  rw [hchange.group] at hremoval hname
  rcases hchange.done_or_notified (hsound index was hle hwas) hdone hunit with
    hbefore | ⟨rfl, hphase⟩
  · refine hworn.hasUnit_eq_false (h.gone name unit ?_ hknew)
    rw [GroupRecord.killed, (hchange.stands_of_done hbefore).2] at hunit
    exact ⟨index, was, hle, hwas, hbefore, hremoval, hname, hunit⟩
  · have hattempted := Progress.attempted timing (.stage .notify ⟨index⟩) rest scene
    generalize Progress.attempt timing ⟨.stage .notify ⟨index⟩ :: rest, scene⟩ = progress
      at hattempted his ⊢
    cases hattempted with
    | failed hkept =>
      -- A notice that fails has not ended the group.
      rcases (hkept.groups index was is hwas his).phase with hsame | ⟨-, -, hconfirmed, -⟩
      · rw [hdone] at hsame
        simp [← hsame] at hphase
      · simp [hdone] at hconfirmed
    | staged hrecord hnotified =>
      obtain rfl := Ledger.eq_of_record hrecord hwas
      cases hnotified with
      | past _ _ _ hnotify => simp [hnotify rfl] at hphase
      | finished _ hletters =>
        subst hname
        refine Board.hasUnit_cleared_of_killed hremoval hknew ?_
        rw [GroupRecord.killed, hchange.losses_eq (by simp)] at hunit
        rw [← GroupRecord.killed_eq]
        exact hunit

/-- An `attempt` at a `step` that spares older groups keeps a board `Tidy`. -/
theorem attempt (timing : Timing) (h : Tidy first origin scene) (hspares : step.Spares first)
    (hsound : scene.ledger.SoundFrom first) :
    Tidy first origin (Progress.attempt timing ⟨step :: rest, scene⟩).scene := by
  -- Whoever was astray stays so.
  have hbefore : scene.host.board.ConsistentBut
      ((Progress.attempt timing ⟨step :: rest, scene⟩).scene.ledger.Astray first) := by
    refine h.consistentBut.weaken fun name unit _ => ?_
    rintro ⟨other, hother, htaken⟩
    exact ⟨other, hother, htaken.attempt timing step rest⟩
  refine ⟨?_, ?_, fun name unit htaken hknown => h.gone_attempt hsound htaken hknown⟩
  · have hattempted := Progress.attempted timing step rest scene
    generalize Progress.attempt timing ⟨step :: rest, scene⟩ = progress at hattempted hbefore ⊢
    cases hattempted with
    | failed hkept =>
      rw [hkept.board]
      exact hbefore
    | planned => exact hbefore
    | staged hrecord hdone =>
      refine hdone.consistentBut hrecord hbefore fun name unit hname htaken => ?_
      obtain ⟨index, is, hle, htaken⟩ := htaken
      exact ⟨_, hname, index, is, Nat.le_trans hspares hle, htaken⟩
  · intro name unit hlists
    refine h.lists name unit ?_
    have hattempted := Progress.attempted timing step rest scene
    generalize Progress.attempt timing ⟨step :: rest, scene⟩ = progress at hattempted hlists
    cases hattempted with
    | failed hkept => exact hkept.board ▸ hlists
    | planned => exact hlists
    | staged _ hdone => exact hdone.lists hlists

end Tidy

/-! ### Runs -/

variable [RandomSource ρ] {Turns : List Step → List Step → Prop}

/-- However an action `Proceeds` that takes up plans only, it keeps a board `Tidy`. -/
theorem Proceeds.tidy {start now : Progress ρ} {count : Nat} {before : Ledger} {origin : Board}
    (hadds : Adds before start) (hstart : Tidy before.groups.length origin start.scene)
    (hturns : ∀ left next, Turns left next → ∀ step ∈ next, step.isPlan = true)
    (h : Proceeds Interlude Turns start count now) :
    Tidy before.groups.length origin now.scene := by
  refine @preserves_on_way ρ _ Interlude Turns start now count (fun progress =>
    Tidy before.groups.length origin progress.scene) hstart ?_ ?_ ?_ h
  · intro count timing step rest scene hway htidy
    have hhere := hway.adds hadds hturns
    exact htidy.attempt timing (hhere.spares step List.mem_cons_self) hhere.sound
  · exact fun pending before after hpause htidy => htidy.interlude hpause
  · exact fun left next scene _ htidy => htidy

/-- Where only plans are left at first, a `Consistent` board is `Tidy` from then on. -/
theorem Proceeds.tidy_of_plans {steps : List Step} {now : Progress ρ} {count : Nat}
    (hplans : ∀ step ∈ steps, step.isPlan = true) (hboard : scene.host.board.Consistent)
    (h : Proceeds Interlude Stays ⟨steps, scene⟩ count now) :
    Tidy scene.ledger.groups.length scene.host.board now.scene :=
  h.tidy (.of_plans hplans scene) (.of_consistent hboard) fun _ _ hturn => hturn.elim

/-- The groups of a `BattleFire` fire in its territory, which is there, and at its targets. -/
theorem BattleFire.group_of_proceeds {fire : BattleFire} {start : Scene ρ} {now : Progress ρ}
    {count : Nat} (h : Proceeds Interlude Stays ⟨[.plan (.battle fire)], start⟩ count now)
    {index : Nat} {record : GroupRecord} (hnew : start.ledger.groups.length ≤ index)
    (hrecord : now.scene.ledger.groups[index]? = some record) :
    record.group.territory = fire.territory ∧ now.scene.host.board.Knows fire.territory ∧
      ∀ unit ∈ record.group.targets, unit ∈ fire.targets := by
  obtain ⟨scene, hplanned, hthere, hformed⟩ := exists_formed h hnew hrecord
  obtain ⟨earlier, rest, hway⟩ := hplanned.proceeds
  refine ⟨hformed.territory, ?_, fun unit hunit => ?_⟩
  · have hsame := (hway.worn.territory? fire.territory).symm.trans hthere
    exact (h.worn.territory? fire.territory).trans hsame
  · exact (List.mem_filter.1 (hformed.mem_candidates hunit)).1

/-- A move keeps a `Consistent` board consistent at any time, however it proceeds. So does a firing
    in a battle, but for the dead whom it has `TakenOff`: they are gone, and a territory that is not
    the firing's may still list them. If none of its targets is listed there, the board stays
    consistent. -/
theorem consistent_under_fire :
    (∀ (fire ready : Overflight) (host : Host ρ) (route : Route) (units : List UnitId)
        (ordering : BoardUnit → BoardUnit → Ordering) (count : Nat) (now : Progress ρ),
      host.board.Consistent → fire.agenda.isEmpty = true →
      fire.prepare host route units ordering = .ok ready →
      Proceeds Interlude Stays (ready.progress host) count now →
        now.scene.host.board.Consistent) ∧
    ∀ (fire : BattleFire) (start : Scene ρ) (count : Nat) (now : Progress ρ),
      start.host.board.Consistent →
      Proceeds Interlude Stays ⟨[.plan (.battle fire)], start⟩ count now →
        now.scene.host.board.ConsistentBut (fun name unit => name ≠ fire.territory ∧
          now.scene.ledger.TakenOff start.ledger.groups.length fire.territory unit) ∧
        (∀ unit, now.scene.ledger.TakenOff start.ledger.groups.length fire.territory unit →
          now.scene.host.board.hasUnit unit = false) ∧
        ((∀ unit ∈ fire.targets, ∀ name, start.host.board.Lists name unit →
            name = fire.territory) →
          now.scene.host.board.Consistent) := by
  constructor
  · intro fire ready host route units ordering count now hboard hnew hready hproceeds
    obtain ⟨territories, moving, -, hmoving, -, hstart⟩ := Overflight.prepare_ok hnew hready
    have hplans : ∀ step ∈ (ready.progress host).pending, step.isPlan = true := by
      rw [hstart]
      intro step hstep
      obtain ⟨name, -, rfl⟩ := List.mem_map.1 hstep
      rfl
    have hscene : (ready.progress host).scene.host.board = host.board := by rw [hstart]
    have htidy := hproceeds.tidy_of_plans hplans (hscene ▸ hboard)
    refine htidy.consistentBut.weaken fun name unit _ => ?_
    rintro ⟨other, -, index, record, -, hrecord, -, hremoval, -⟩
    -- In a move the dead are left to the host.
    obtain ⟨scene, -, -, territory, hformed⟩ :=
      Overflight.exists_formed hnew hready hmoving hproceeds hrecord
    rw [hformed.removal] at hremoval
    simp [Board.overflightMuster] at hremoval
  · intro fire start count now hboard hproceeds
    have hplans : ∀ step ∈ [Step.plan (.battle fire)], step.isPlan = true := by simp [Step.isPlan]
    have htidy := hproceeds.tidy_of_plans hplans hboard
    have hadds : Adds start.ledger now :=
      hproceeds.adds (.of_plans hplans start) fun _ _ hturn => hturn.elim
    have hbut : now.scene.host.board.ConsistentBut (fun name unit => name ≠ fire.territory ∧
        now.scene.ledger.TakenOff start.ledger.groups.length fire.territory unit) := by
      refine htidy.consistentBut.weaken fun name unit _ => ?_
      rintro ⟨other, hother, index, record, hle, hrecord, hdone, hremoval, hname, hunit⟩
      obtain ⟨hterritory, -⟩ := BattleFire.group_of_proceeds hproceeds hle hrecord
      obtain rfl : fire.territory = other := hterritory.symm.trans hname
      exact ⟨hother, index, record, hle, hrecord, hdone, hremoval, hname, hunit⟩
    refine ⟨hbut, fun unit htaken => ?_, fun htargets => ?_⟩
    · refine htidy.gone fire.territory unit htaken ?_
      obtain ⟨index, record, hle, hrecord, -⟩ := htaken
      exact (BattleFire.group_of_proceeds hproceeds hle hrecord).2.1
    · refine hbut.weaken fun name unit hlists => ?_
      rintro ⟨hname, index, record, hle, hrecord, -, -, -, hunit⟩
      -- Whoever was killed was a target, and was listed before.
      have haimed := (hadds.sound index record hle hrecord).targets_of_killed hunit
      have htarget := (BattleFire.group_of_proceeds hproceeds hle hrecord).2.2 unit haimed
      exact hname (htargets unit htarget name (htidy.lists name unit hlists))

/-- In its `Course` a firing proceeds from where its plan was all there was. -/
theorem Engagement.Course.proceeds_from {Permits : Timing → Step → Scene ρ → Prop}
    {fire : BattleFire} {start there : Scene ρ} {now : Engagement}
    (h : Course Permits fire start now there) :
    ∃ count, Proceeds Interlude Stays ⟨[.plan (.battle fire)], start⟩ count
      (now.progress fire there) := by
  refine (@preserves ρ _ Permits (fun progress => ∃ count,
    Proceeds Interlude Stays ⟨[.plan (.battle fire)], start⟩ count progress) _ _ _ _ ?_ ?_ ?_ h).2
  · rintro timing step rest mid - ⟨count, hmid⟩
    exact hmid.attempt timing
  · rintro pending before after hpause ⟨count, hbefore⟩
    exact ⟨count, hbefore.paused hpause⟩
  · exact ⟨0, .here⟩

/-! ### A bomber in a port -/

namespace Raid

/-- A `board` with the gun of the sortie, and the bomber in a port of its own. -/
def board : Board :=
  { Sortie.board with
    territories := [⟨"Fort", ⟨"Blues"⟩, [⟨2⟩]⟩, ⟨"Port", ⟨"Reds"⟩, [⟨1⟩]⟩] }

/-- A scene of a battle in which nobody has fired. -/
def start : Scene ScriptedDice where
  host := { board, player := ⟨"Reds"⟩, headless := true, dice := ⟨[0], 0⟩ }
  ledger := { battle := ⟨1⟩, player := ⟨"Reds"⟩, headless := true }

/-- What the firing at the bomber comes to. -/
def fired : Except Fault (List UnitId) × Engagement × Scene ScriptedDice :=
  ({} : Engagement).fire {} Sortie.volley start

/-- The firing at the bomber proceeds to where it has `fired`. -/
theorem proceeds : ∃ count, Proceeds Interlude Stays ⟨[.plan (.battle Sortie.volley)], start⟩ count
    (fired.2.1.progress Sortie.volley fired.2.2) := by
  have hcourse : Engagement.Course Step.Unrestricted Sortie.volley start fired.2.1 fired.2.2 :=
    .fired .planned {} Sortie.volley (fun _ => rfl) (fun _ _ _ => trivial) rfl
  exact hcourse.proceeds_from

/-- The gun kills the bomber, which is taken off out of the fort. -/
theorem takenOff : fired.2.2.ledger.TakenOff 0 "Fort" ⟨1⟩ := by
  have hgroups : fired.2.2.ledger.groups.map (fun record =>
      (record.phase, record.group.removal, record.group.territory, record.killed)) =
        [(.done, .removeFromBoard, "Fort", [⟨1⟩])] := by cbv
  obtain ⟨record, hrecord, hsame⟩ := List.map_eq_singleton_iff.1 hgroups
  simp only [Prod.mk.injEq] at hsame
  obtain ⟨hdone, hremoval, hname, hkilled⟩ := hsame
  refine ⟨0, record, Nat.le_refl _, ?_, hdone, hremoval, hname, ?_⟩
  · rw [hrecord]
    rfl
  · rw [hkilled]
    exact List.mem_singleton_self _

/-- The port lists the bomber when the firing is over. -/
theorem lists_port : fired.2.2.host.board.Lists "Port" ⟨1⟩ := by
  have hterritories : fired.2.2.host.board.territories = board.territories := by cbv
  refine ⟨⟨"Port", ⟨"Reds"⟩, [⟨1⟩]⟩, ?_, rfl, List.mem_singleton_self _⟩
  rw [hterritories]
  decide

end Raid

/-- The `Sortie` over the gun keeps the board consistent, and so does the volley at the bomber when
    it is over the gun. After the volley at the bomber in the port it is gone, and it is still
    listed there. -/
theorem consistent_under_fire_sortie :
    (∃ count now, Proceeds Interlude Stays ((Sortie.ready true).progress (Sortie.host true)) count
        now ∧ now.scene.ledger.groups ≠ [] ∧ now.scene.host.board.Consistent) ∧
    (∃ count now, Proceeds Interlude Stays
        ⟨[.plan (.battle Sortie.volley)], Sortie.start true .removeFromBoard⟩ count now ∧
      now.scene.host.board.hasUnit ⟨1⟩ = false ∧ now.scene.host.board.Consistent) ∧
    (∃ count now, Proceeds Interlude Stays ⟨[.plan (.battle Sortie.volley)], Raid.start⟩ count now ∧
      now.scene.host.board.hasUnit ⟨1⟩ = false ∧ now.scene.host.board.Lists "Port" ⟨1⟩) := by
  refine ⟨?_, ?_, ?_⟩
  · obtain ⟨count, hproceeds, -⟩ := Overflight.run_proceeds (Sortie.run_eq true)
    refine ⟨count, _, hproceeds, ?_, ?_⟩
    · exact List.cons_ne_nil _ _
    · exact consistent_under_fire.1 {} _ (Sortie.host true) Sortie.route [⟨1⟩]
        BoardUnit.leastMovementFirst count _ (by decide) rfl (Sortie.prepare_eq true) hproceeds
  · obtain ⟨last, hfirings, -, hgone⟩ :=
      @Sortie.firings_volley Step.Unrestricted true fun _ _ _ => trivial
    cases hfirings with
    | next hcourse hfinished hrest =>
      cases hrest
      obtain ⟨count, hproceeds⟩ := hcourse.proceeds_from
      refine ⟨count, _, hproceeds, hgone, ?_⟩
      refine (consistent_under_fire.2 Sortie.volley (Sortie.start true .removeFromBoard) count _
        (by decide) hproceeds).2.2 ?_
      -- There is one territory.
      rintro unit - name ⟨territory, hterritory, rfl, -⟩
      rw [List.mem_singleton.1 hterritory]
      rfl
  · obtain ⟨count, hproceeds⟩ := Raid.proceeds
    have hgone := (consistent_under_fire.2 Sortie.volley Raid.start count _ (by decide)
      hproceeds).2.1 ⟨1⟩ Raid.takenOff
    exact ⟨count, _, hproceeds, hgone, Raid.lists_port⟩

/-- A firing does not always keep a `Consistent` board consistent. -/
theorem not_consistent_after_battle :
    ¬ ∀ (fire : BattleFire) (start : Scene ScriptedDice) (count : Nat)
      (now : Progress ScriptedDice), start.host.board.Consistent →
        Proceeds Interlude Stays ⟨[.plan (.battle fire)], start⟩ count now →
        now.scene.host.board.Consistent := by
  intro hall
  obtain ⟨count, hproceeds⟩ := Raid.proceeds
  have hconsistent := hall Sortie.volley Raid.start count _ (by decide) hproceeds
  have hgone : Raid.fired.2.2.host.board.hasUnit ⟨1⟩ = false := by cbv
  rcases hconsistent.known "Port" ⟨1⟩ Raid.lists_port with hthere | hstray
  · exact absurd (hthere.symm.trans hgone) (by decide)
  · exact hstray

end Flak
