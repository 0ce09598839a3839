import Flak.Proofs.Fire.Effects
import Flak.Proofs.Fire.Proceeds

namespace Flak

/-!
# What stands in the records

The records of an action are sound at any time, and what has been written to one of them stands:

* `GroupRecord.Sound` — what a record holds in which phase, and that it fits its group;
* `GroupRecord.Follows` — a record that a group may have later;
* `RecordChange.sound`, `RecordChange.follows` — an attempt at a step keeps records sound, and what
  it makes of them follows;
* `SelectedOn` — a scene on which the losses of a group were selected on the way;
* `SelectedOn.exact` — the losses on record were exact on any such scene;
* `ledger_sound` — so records are sound at any time, and those with losses have had this moment.
-/

variable {ρ : Type} {scene : Scene ρ}

/-! ### Records -/

/-- A `record` that holds what belongs to its phase: its dice once it has rolled and its losses once
    they were selected. Who fires and who may be hit is taken from its group, and its losses are
    units that may be hit, each once. -/
structure GroupRecord.Sound (record : GroupRecord) : Prop where
  shape : match record.phase with
    | .pendingRoll => record.dice = none ∧ record.losses = none
    | .rolled => record.dice.isSome ∧ record.losses = none
    | .casualtiesSelected | .confirmed => record.dice.isSome ∧ record.losses.isSome
    | .done => record.dice.isSome = record.losses.isSome
  validTargets : record.validTargets.Sublist record.group.targets
  activeFiring : record.activeFiring.Sublist record.group.firingUnits
  hits : ∀ dice, record.dice = some dice → dice.hits ≤ record.validTargets.length
  distinct : ∀ losses, record.losses = some losses →
    (losses.killed ++ losses.damaged.map Prod.fst).Nodup
  targeted : ∀ losses, record.losses = some losses →
    ∀ unit ∈ losses.killed ++ losses.damaged.map Prod.fst, unit ∈ record.validTargets

/-- The record `is` one that the group of `was` may have later: the phase has not gone back, and
    what was there stands. -/
structure GroupRecord.Follows (was is : GroupRecord) : Prop where
  id : is.id = was.id
  group : is.group = was.group
  phase : was.phase.rank ≤ is.phase.rank
  roll : ∀ dice, was.dice = some dice → is.dice = some dice ∧
    is.validTargets = was.validTargets ∧ is.activeFiring = was.activeFiring
  losses : ∀ losses, was.losses = some losses → is.losses = some losses

namespace GroupRecord

variable {record was is : GroupRecord}

/-- A record of a `group` that was just entered is sound. -/
theorem Sound.fresh (id : GroupId) (group : FiringGroup) : Sound { id, group } where
  shape := ⟨rfl, rfl⟩
  validTargets := List.nil_sublist _
  activeFiring := List.nil_sublist _
  hits := by simp
  distinct := by simp
  targeted := by simp

/-- By a `Sound` record, a group has killed nobody but whom it may hit. -/
theorem Sound.targets_of_killed (h : record.Sound) {unit : UnitId} (hunit : unit ∈ record.killed) :
    unit ∈ record.group.targets := by
  cases hlosses : record.losses with
  | none => simp [killed, hlosses] at hunit
  | some losses =>
    have hmem : unit ∈ losses.killed := by simpa [killed, hlosses] using hunit
    exact h.validTargets.subset (h.targeted losses hlosses unit (List.mem_append_left _ hmem))

/-- A `record` follows itself. -/
theorem Follows.refl (record : GroupRecord) : record.Follows record :=
  ⟨rfl, rfl, Nat.le_refl _, fun _ h => ⟨h, rfl, rfl⟩, fun _ h => h⟩

/-- What `Follows` a record is followed by what follows it. -/
theorem Follows.trans {later : GroupRecord} (h : was.Follows is) (h' : is.Follows later) :
    was.Follows later where
  id := h'.id.trans h.id
  group := h'.group.trans h.group
  phase := Nat.le_trans h.phase h'.phase
  roll dice hdice := by
    obtain ⟨hsame, htargets, hfiring⟩ := h.roll dice hdice
    obtain ⟨hsame', htargets', hfiring'⟩ := h'.roll dice hsame
    exact ⟨hsame', htargets'.trans htargets, hfiring'.trans hfiring⟩
  losses losses hlosses := h'.losses losses (h.losses losses hlosses)

end GroupRecord

namespace RecordChange

variable {step : Step} {index : Nat} {was is : GroupRecord}

/-- An attempt at a `step` keeps a record `Sound`. -/
theorem sound (h : RecordChange scene step index was is) (hwas : was.Sound) : is.Sound := by
  have hshape := hwas.shape
  cases h with
  | kept told => exact ⟨hshape, hwas.2, hwas.3, hwas.4, hwas.5, hwas.6⟩
  | idle _ hphase =>
    rw [hphase] at hshape
    refine ⟨?_, hwas.2, hwas.3, hwas.4, hwas.5, hwas.6⟩
    show was.dice.isSome = was.losses.isSome
    rw [hshape.1, hshape.2]
    rfl
  | rolled _ hphase hshooters _ hhits =>
    rw [hphase] at hshape
    have hnone : was.losses = none := hshape.2
    refine ⟨⟨rfl, hnone⟩, List.filter_sublist, hshooters, ?_, ?_, ?_⟩
    · rintro _ ⟨⟩
      exact hhits
    · simp [hnone]
    · simp [hnone]
  | @selected _ hphase told targets losses htargets hcheck =>
    rw [hphase] at hshape
    have hvalid := Losses.valid_of_check hcheck
    -- What was found on the board are valid targets.
    have hunits {unit : UnitId} (h : unit ∈ targets.map Target.unit) : unit ∈ was.validTargets :=
      (Board.map_unit_targets_sublist htargets).subset h
    refine ⟨⟨hshape.1, rfl⟩, hwas.2, hwas.3, hwas.4, ?_, ?_⟩
    · rintro _ ⟨⟩
      exact hvalid.nodup
    · rintro _ ⟨⟩ unit hunit
      rcases List.mem_append.1 hunit with hkilled | hdamaged
      · exact hunits (hvalid.killed unit hkilled)
      · obtain ⟨entry, hentry, rfl⟩ := List.mem_map.1 hdamaged
        obtain ⟨target, htarget, hunit, -⟩ := hvalid.damaged entry hentry
        exact hunits (hunit ▸ List.mem_map_of_mem htarget)
  | @notified _ hphase told phase hnext =>
    have hboth : was.dice.isSome ∧ was.losses.isSome := by
      rcases hphase with hphase | hphase
      · rw [hphase] at hshape
        exact hshape
      · rw [hphase] at hshape
        exact hshape
    refine ⟨?_, hwas.2, hwas.3, hwas.4, hwas.5, hwas.6⟩
    rcases hnext with rfl | rfl
    · exact hboth
    · exact hboth.1.trans hboth.2.symm

/-- What an attempt at a `step` makes of a sound record `Follows` it. -/
theorem follows (h : RecordChange scene step index was is) (hwas : was.Sound) :
    was.Follows is := by
  have hshape := hwas.shape
  cases h with
  | kept told => exact ⟨rfl, rfl, Nat.le_refl _, fun _ h => ⟨h, rfl, rfl⟩, fun _ h => h⟩
  | idle _ hphase =>
    refine ⟨rfl, rfl, ?_, fun _ h => ⟨h, rfl, rfl⟩, fun _ h => h⟩
    rw [hphase]
    exact Nat.zero_le _
  | rolled _ hphase _ _ _ =>
    -- No dice were there before.
    rw [hphase] at hshape
    refine ⟨rfl, rfl, ?_, by simp [hshape.1], fun _ h => h⟩
    rw [hphase]
    exact Nat.zero_le _
  | selected _ hphase told _ _ =>
    rw [hphase] at hshape
    refine ⟨rfl, rfl, ?_, fun _ h => ⟨h, rfl, rfl⟩, by simp [hshape.2]⟩
    rw [hphase]
    exact Nat.le_succ 1
  | @notified _ hphase told phase hnext =>
    refine ⟨rfl, rfl, ?_, fun _ h => ⟨h, rfl, rfl⟩, fun _ h => h⟩
    rcases hphase with hphase | hphase <;> rcases hnext with rfl | rfl <;>
      simp [hphase, Phase.rank]

/-- The `losses` of a record come from a selection. -/
theorem eq_select_of_losses {losses : Losses} (h : RecordChange scene step index was is)
    (hnone : was.losses = none) (hlosses : is.losses = some losses) :
    step = .stage .select ⟨index⟩ ∧ was.phase = .rolled ∧
      losses.Exact scene.host.board was.validTargets (was.dice.getD {}).hits := by
  have hkept : was.losses = some losses → False := by simp [hnone]
  cases h with
  | kept told => exact (hkept hlosses).elim
  | idle => exact (hkept hlosses).elim
  | rolled => exact (hkept hlosses).elim
  | selected hstep hphase told htargets hcheck =>
    obtain rfl := Option.some.inj hlosses
    exact ⟨hstep, hphase, Losses.exact_of_check htargets hcheck⟩
  | notified => exact (hkept hlosses).elim

/-- The phase and the losses of a group that is `done` stand. -/
theorem stands_of_done (h : RecordChange scene step index was is) (hdone : was.phase = .done) :
    is.phase = .done ∧ is.losses = was.losses := by
  cases h with
  | kept told => exact ⟨hdone, rfl⟩
  | idle _ hpending => simp [hdone] at hpending
  | rolled _ hpending => simp [hdone] at hpending
  | selected _ hrolled => simp [hdone] at hrolled
  | notified _ hleft => simp [hdone] at hleft

/-- A group that is `done` and has killed somebody was done before, or its losses were confirmed. -/
theorem done_or_notified {unit : UnitId} (h : RecordChange scene step index was is)
    (hwas : was.Sound) (hdone : is.phase = .done) (hunit : unit ∈ is.killed) :
    was.phase = .done ∨ step = .stage .notify ⟨index⟩ ∧
      (was.phase = .casualtiesSelected ∨ was.phase = .confirmed) := by
  cases h with
  | kept told => exact .inl hdone
  | idle _ hphase =>
    -- Who has not begun has killed nobody.
    have hshape := hwas.shape
    rw [hphase] at hshape
    simp [GroupRecord.killed, hshape.2] at hunit
  | rolled => simp at hdone
  | selected => simp at hdone
  | notified hstep hphase => exact .inr ⟨hstep, hphase⟩

end RecordChange

/-! ### Runs -/

variable [RandomSource ρ]

/-- In an action that began without groups, all records are `Sound`. -/
theorem Proceeds.sound {start now : Progress ρ} {count : Nat}
    (hstart : start.scene.ledger.groups = []) (h : Proceeds Interlude Freely start count now)
    {index : Nat} {record : GroupRecord}
    (hrecord : now.scene.ledger.groups[index]? = some record) : record.Sound := by
  refine @preserves ρ _ Interlude Freely start now count (fun progress =>
    ∀ (index : Nat) (record : GroupRecord), progress.scene.ledger.groups[index]? = some record →
      record.Sound) ?_ ?_ ?_ ?_ h index record hrecord
  · simp [hstart]
  · intro timing step rest scene hsound index is his
    rcases Progress.record_of_attempt his with ⟨-, hfresh⟩ | ⟨was, hwas, hchange⟩
    · rw [hfresh]
      exact .fresh _ _
    · exact hchange.sound (hsound index was hwas)
  · intro pending before after hpause hsound index is his
    rw [hpause.groups] at his
    exact hsound index is his
  · exact fun left next scene _ hsound => hsound

/-- From a sound record on, the record of the group `Follows` it. -/
theorem Proceeds.follows {now later : Progress ρ} {more : Nat} {index : Nat} {was : GroupRecord}
    (hsound : was.Sound) (hwas : now.scene.ledger.groups[index]? = some was)
    (h : Proceeds Interlude Freely now more later) :
    ∃ is, later.scene.ledger.groups[index]? = some is ∧ is.Sound ∧ was.Follows is := by
  refine @preserves ρ _ Interlude Freely now later more (fun progress =>
    ∃ is, progress.scene.ledger.groups[index]? = some is ∧ is.Sound ∧ was.Follows is)
    ⟨was, hwas, hsound, .refl was⟩ ?_ ?_ ?_ h
  · rintro timing step rest scene ⟨mid, hmid, hsound, hfollows⟩
    obtain ⟨is, his, hchange⟩ := Progress.attempt_record hmid timing step rest
    exact ⟨is, his, hchange.sound hsound, hfollows.trans (hchange.follows hsound)⟩
  · rintro pending before after hpause ⟨is, his, hholds⟩
    refine ⟨is, ?_, hholds⟩
    rw [hpause.groups]
    exact his
  · exact fun left next scene _ hholds => hholds

/-- The phase and the losses of a group that is `done` stand wherever the action proceeds. -/
theorem Proceeds.stands_of_done {Turns : List Step → List Step → Prop} {now later : Progress ρ}
    {more : Nat} {index : Nat} {was : GroupRecord}
    (hwas : now.scene.ledger.groups[index]? = some was) (hdone : was.phase = .done)
    (h : Proceeds Interlude Turns now more later) :
    ∃ is, later.scene.ledger.groups[index]? = some is ∧ is.phase = .done ∧
      is.losses = was.losses := by
  refine @preserves ρ _ Interlude Turns now later more (fun progress =>
    ∃ is, progress.scene.ledger.groups[index]? = some is ∧ is.phase = .done ∧
      is.losses = was.losses) ⟨was, hwas, hdone, rfl⟩ ?_ ?_ ?_ h
  · rintro timing step rest scene ⟨mid, hmid, hphase, hlosses⟩
    obtain ⟨is, his, hchange⟩ := Progress.attempt_record hmid timing step rest
    obtain ⟨hphase', hlosses'⟩ := hchange.stands_of_done hphase
    exact ⟨is, his, hphase', hlosses'.trans hlosses⟩
  · rintro pending before after hpause ⟨is, his, hholds⟩
    refine ⟨is, ?_, hholds⟩
    rw [hpause.groups]
    exact his
  · exact fun left next scene _ hholds => hholds

/-- On the way from `start` to `now` the group with the number `index` had rolled, and its selection
    succeeded on this `scene`. -/
def SelectedOn (Turns : List Step → List Step → Prop) (start now : Progress ρ) (index : Nat)
    (scene : Scene ρ) : Prop :=
  ∃ count more timing rest after was,
    Proceeds Interlude Turns start count ⟨.stage .select ⟨index⟩ :: rest, scene⟩ ∧
    scene.ledger.groups[index]? = some was ∧ was.phase = .rolled ∧
    (Step.perform timing (.stage .select ⟨index⟩)).onScene scene = (.ok [], after) ∧
    Proceeds Interlude Turns ⟨rest, after⟩ more now

variable {Turns : List Step → List Step → Prop}

/-- What was `SelectedOn` a scene on the way to a place was so on the way to a later one. -/
theorem SelectedOn.proceeds {start mid now : Progress ρ} {index count : Nat}
    (h : SelectedOn Turns start mid index scene) (hmore : Proceeds Interlude Turns mid count now) :
    SelectedOn Turns start now index scene := by
  obtain ⟨before, more, timing, rest, after, was, hbefore, hwas, hphase, hdone, hmid⟩ := h
  exact ⟨before, more + count, timing, rest, after, was, hbefore, hwas, hphase, hdone,
    hmid.trans hmore⟩

/-- For losses on record there is a scene that they were `SelectedOn`. -/
theorem Proceeds.exists_selectedOn {start now : Progress ρ} {count : Nat}
    (hstart : start.scene.ledger.groups = []) (h : Proceeds Interlude Turns start count now)
    {index : Nat} {is : GroupRecord} (his : now.scene.ledger.groups[index]? = some is)
    (hlosses : is.losses.isSome) : ∃ scene, SelectedOn Turns start now index scene := by
  induction h generalizing is with
  | here => simp [hstart] at his
  | @done count timing step rest next scene after earlier hdone ih =>
    rw [← Progress.attempt_ok hdone] at his
    rcases Progress.record_of_attempt his with ⟨-, hfresh⟩ | ⟨was, hwas, hchange⟩
    · rw [hfresh] at hlosses
      simp at hlosses
    cases hbefore : was.losses with
    | some losses =>
      obtain ⟨there, hthere⟩ := ih hwas (by simp [hbefore])
      exact ⟨there, hthere.proceeds (Proceeds.here.done hdone)⟩
    | none =>
      -- This is the moment.
      obtain ⟨losses, hlosses⟩ := Option.isSome_iff_exists.1 hlosses
      obtain ⟨rfl, hphase, -⟩ := hchange.eq_select_of_losses hbefore hlosses
      obtain ⟨rfl, -⟩ := Step.perform_stage_ok hdone
      exact ⟨scene, count, 0, timing, rest, after, was, earlier, hwas, hphase, hdone, .here⟩
  | @failed count timing step rest scene after fault earlier hfailed ih =>
    have hkept := Step.uncommitted_of_error hfailed
    obtain ⟨was, hwas, -⟩ := hkept.recordChange his
    have hbefore : was.losses.isSome := by
      rw [(hkept.groups index was is hwas his).same] at hlosses
      exact hlosses
    obtain ⟨there, hthere⟩ := ih hwas hbefore
    exact ⟨there, hthere.proceeds (Proceeds.here.failed hfailed)⟩
  | @paused count pending before after earlier hpause ih =>
    rw [hpause.groups] at his
    obtain ⟨there, hthere⟩ := ih his hlosses
    exact ⟨there, hthere.proceeds (Proceeds.here.paused hpause)⟩
  | turned earlier hturn ih =>
    obtain ⟨there, hthere⟩ := ih his hlosses
    exact ⟨there, hthere.proceeds (Proceeds.here.turned hturn)⟩

/-- What a group has on record was accepted by `check` on any scene that it was `SelectedOn`. -/
theorem SelectedOn.exists_check {start now : Progress ρ} (hstart : start.scene.ledger.groups = [])
    {index : Nat} (h : SelectedOn Turns start now index scene) {is : GroupRecord}
    (his : now.scene.ledger.groups[index]? = some is) :
    ∃ was losses targets, scene.ledger.groups[index]? = some was ∧ was.Sound ∧
      was.phase = .rolled ∧ was.Follows is ∧ is.losses = some losses ∧
      scene.host.board.targets was.validTargets = .ok targets ∧
      losses.check targets (was.dice.getD {}).hits = .ok () := by
  obtain ⟨before, more, timing, rest, after, was, hbefore, hwas, hphase, hdone, hmore⟩ := h
  have hsound : was.Sound := hbefore.freely.sound hstart hwas
  obtain ⟨later, hlater, -, hfollows⟩ :=
    ((Proceeds.here.done hdone).trans hmore).freely.follows hsound hwas
  obtain rfl : later = is := Option.some.inj (hlater.symm.trans his)
  obtain ⟨-, record, hrecord, hstage⟩ := Step.perform_stage_ok hdone
  obtain rfl := Ledger.eq_of_record hrecord hwas
  obtain ⟨told, losses, targets, htargets, hcheck, -, hgroups⟩ := hstage.of_rolled hphase
  have hselected := hgroups index
  rw [hwas, Option.map_some, if_pos rfl] at hselected
  -- Losses that are on record stand.
  obtain ⟨later', hlater', -, hfollows'⟩ :=
    hmore.freely.follows ((hbefore.done hdone).freely.sound hstart hselected) hselected
  obtain rfl : later' = later := Option.some.inj (hlater'.symm.trans his)
  exact ⟨record, losses, targets, hwas, hsound, hphase, hfollows, hfollows'.losses losses rfl,
    htargets, hcheck⟩

/-- Wherever a group selected its `losses`, they were `Exact` on the board of that moment: for the
    units that it may hit and the hits of its dice, as these still stand in its record. -/
theorem SelectedOn.exact {start now : Progress ρ} (hstart : start.scene.ledger.groups = [])
    {index : Nat} (h : SelectedOn Turns start now index scene) {is : GroupRecord}
    (his : now.scene.ledger.groups[index]? = some is) {losses : Losses}
    (hlosses : is.losses = some losses) :
    ∃ was dice, scene.ledger.groups[index]? = some was ∧ was.Follows is ∧ is.dice = some dice ∧
      losses.Exact scene.host.board is.validTargets dice.hits := by
  obtain ⟨was, losses', targets, hwas, hsound, hphase, hfollows, hlosses', htargets, hcheck⟩ :=
    h.exists_check hstart his
  obtain rfl : losses = losses' := Option.some.inj (hlosses.symm.trans hlosses')
  have hshape := hsound.shape
  rw [hphase] at hshape
  obtain ⟨dice, hdice⟩ := Option.isSome_iff_exists.1 hshape.1
  obtain ⟨hdice', htargets', -⟩ := hfollows.roll dice hdice
  have hexact := Losses.exact_of_check htargets hcheck
  rw [hdice, ← htargets'] at hexact
  exact ⟨was, dice, hwas, hfollows, hdice', hexact⟩

/-- However an action `Proceeds`, its records are `Sound`. Losses on record were selected on a scene
    on the way, and on every scene on which their group has selected they were `Exact`: they used up
    the hits or the hit points that its targets had on the board of that moment. From then on each
    record follows what it was. -/
theorem ledger_sound {start now : Progress ρ} {count : Nat} (hbegins : Begins start)
    (hproceeds : Proceeds Interlude Freely start count now) :
    (∀ (index : Nat) (record : GroupRecord), now.scene.ledger.groups[index]? = some record →
      record.Sound ∧
        ∀ losses, record.losses = some losses →
          (∃ scene, SelectedOn Freely start now index scene) ∧
            ∀ scene, SelectedOn Freely start now index scene →
              ∃ was dice, scene.ledger.groups[index]? = some was ∧ was.Follows record ∧
                record.dice = some dice ∧
                losses.Exact scene.host.board record.validTargets dice.hits) ∧
    ∀ (later : Progress ρ) (more : Nat), Proceeds Interlude Freely now more later →
      ∀ (index : Nat) (was : GroupRecord), now.scene.ledger.groups[index]? = some was →
        ∃ is, later.scene.ledger.groups[index]? = some is ∧ was.Follows is := by
  have hsound {index : Nat} {record : GroupRecord}
      (hrecord : now.scene.ledger.groups[index]? = some record) : record.Sound :=
    hproceeds.sound hbegins.groups hrecord
  constructor
  · intro index record hrecord
    refine ⟨hsound hrecord, fun losses hlosses => ⟨?_, fun scene hscene => ?_⟩⟩
    · exact hproceeds.exists_selectedOn hbegins.groups hrecord (by simp [hlosses])
    · exact hscene.exact hbegins.groups hrecord hlosses
  · intro later more hmore index was hwas
    obtain ⟨is, his, -, hfollows⟩ := hmore.follows (hsound hwas) hwas
    exact ⟨is, his, hfollows⟩

/-- A bomber that is dead but not confirmed was killed by the one hit there was, on every scene on
    which the group was `SelectedOn`, and its record will stand. -/
theorem ledger_sound_sortie :
    ∃ later last record scene dice, (Sortie.fired true).run (some 1)
        (Sortie.rolled true .returnToHost Sortie.outcome).host = (.ok 1, later, last) ∧
      later.ledger.groups[0]? = some record ∧ record.losses = some { killed := [⟨1⟩] } ∧
      record.Sound ∧
      SelectedOn Freely ((Sortie.ready true).progress (Sortie.host true)) (later.progress last) 0
        scene ∧
      record.dice = some dice ∧
      Losses.Exact { killed := [⟨1⟩] } scene.host.board record.validTargets dice.hits ∧
      ∃ is, later.ledger.groups[0]? = some is ∧ record.Follows is := by
  have hbegins := Begins.move rfl (Sortie.prepare_eq true)
  have hrun : ∃ later last record, (Sortie.fired true).run (some 1)
      (Sortie.rolled true .returnToHost Sortie.outcome).host = (.ok 1, later, last) ∧
        later.ledger.groups[0]? = some record ∧ record.losses = some { killed := [⟨1⟩] } :=
    ⟨_, _, _, rfl, rfl, rfl⟩
  obtain ⟨later, last, record, hlater, hrecord, hlosses⟩ := hrun
  obtain ⟨_, hfired, -⟩ := Overflight.run_proceeds (Sortie.run_eq true)
  obtain ⟨_, hselected, -⟩ := Overflight.run_proceeds hlater
  obtain ⟨hsound, hfollows⟩ := ledger_sound hbegins (hfired.trans hselected)
  obtain ⟨hrecordSound, hmoments⟩ := hsound 0 record hrecord
  obtain ⟨⟨scene, hscene⟩, hexact⟩ := hmoments _ hlosses
  obtain ⟨_, dice, -, -, hdice, hlost⟩ := hexact scene hscene
  exact ⟨later, last, record, scene, dice, hlater, hrecord, hlosses, hrecordSound, hscene, hdice,
    hlost, hfollows _ 0 .here 0 record hrecord⟩

end Flak
