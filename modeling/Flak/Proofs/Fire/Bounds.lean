import Flak.Proofs.Fire.Course
import Flak.Proofs.Fire.Underway
import Flak.Proofs.Save.Reload

namespace Flak

/-!
# What is in bounds with what comes of it

Numbers are saved with a bound. If what an action has come to is in bounds, so is the action on its
way there:

* `Schema.ledger_inBounds_iff`, `Schema.groupRecord_inBounds_iff` — which parts of a ledger and of a
  record are bounded;
* `Ledger.Grows.inBounds` — a ledger is in bounds if one is that it grows to;
* `Overflight.inBounds_of_underway` — and then so is the fire at a move, with what is left of it.
-/

namespace Schema

/-! ### What is bounded -/

/-- A `record` is in bounds if all the parts of it are that have bounds. -/
theorem groupRecord_inBounds_iff (record : GroupRecord) :
    groupRecord.inBounds record = true ↔ groupId.inBounds record.id = true ∧
      firingGroup.inBounds record.group = true ∧ units.inBounds record.activeFiring = true ∧
      units.inBounds record.validTargets = true ∧ record.dice.all roll.inBounds = true ∧
      record.losses.all losses.inBounds = true := by
  have hphase : phase.inBounds record.phase = true := by cases record.phase <;> rfl
  have hrecord : groupRecord.inBounds record = (groupId.inBounds record.id &&
      (firingGroup.inBounds record.group && (phase.inBounds record.phase &&
        (units.inBounds record.activeFiring && (units.inBounds record.validTargets &&
          (record.dice.all roll.inBounds && (record.losses.all losses.inBounds &&
            (true && true)))))))) := rfl
  rw [hrecord, hphase]
  simp

/-- A ledger is in bounds, by `inBounds`, if all the parts of it are that have bounds. -/
theorem ledger_inBounds_iff (l : Ledger) :
    ledger.inBounds l = true ↔ battleId.inBounds l.battle = true ∧
      (∀ record ∈ l.groups, groupRecord.inBounds record = true) ∧
      units.inBounds l.targets = true ∧ ∀ unit ∈ l.casualties, unitId.inBounds unit = true := by
  have hnote : l.cantUndo.all (fun _ => true) = true := by cases l.cantUndo <;> rfl
  have hledger : ledger.inBounds l = (battleId.inBounds l.battle && (true && (true &&
      (l.groups.all groupRecord.inBounds && (units.inBounds l.targets &&
        (l.casualties.all unitId.inBounds && (l.cantUndo.all (fun _ => true) && true))))))) := rfl
  rw [hledger, hnote]
  simp [List.all_eq_true]

/-- The `fire` at a move is in bounds if all the parts of it are that have bounds. -/
theorem overflight_inBounds_iff (fire : Overflight) :
    overflight.inBounds fire = true ↔ timing.inBounds fire.timing = true ∧
      (∀ s ∈ fire.agenda.queued, step.inBounds s = true) ∧
      fire.agenda.current.all step.inBounds = true ∧ ledger.inBounds fire.ledger = true := by
  have hfire : overflight.inBounds fire = (timing.inBounds fire.timing &&
      ((fire.agenda.queued.reverse.all step.inBounds && (fire.agenda.current.all step.inBounds &&
        true)) && (ledger.inBounds fire.ledger && true))) := rfl
  rw [hfire]
  simp [List.all_eq_true, and_assoc]

end Schema

/-! ### On the way to something in bounds -/

/-- What is `lacking` is in bounds, and so is what is kept of something in bounds. -/
theorem inBounds_of_lacking_or_kept {α : Type} {bounded : α → Bool} {lacking was is : α}
    (h : was = lacking ∨ is = was) (hlacking : bounded lacking = true) (his : bounded is = true) :
    bounded was = true := by
  rcases h with rfl | rfl
  · exact hlacking
  · exact his

/-- A record that `Grows` to one in bounds was in bounds. -/
theorem GroupRecord.Grows.inBounds {was is : GroupRecord} (h : was.Grows is)
    (hbounds : Schema.groupRecord.inBounds is = true) :
    Schema.groupRecord.inBounds was = true := by
  rw [Schema.groupRecord_inBounds_iff] at hbounds ⊢
  obtain ⟨hid, hgroup, hactive, hvalid, hdice, hlosses⟩ := hbounds
  rw [h.id] at hid
  rw [h.group] at hgroup
  refine ⟨hid, hgroup, ?_, ?_, ?_, ?_⟩
  · exact inBounds_of_lacking_or_kept h.activeFiring rfl hactive
  · exact inBounds_of_lacking_or_kept h.validTargets rfl hvalid
  · exact inBounds_of_lacking_or_kept h.dice rfl hdice
  · exact inBounds_of_lacking_or_kept h.losses rfl hlosses

/-- A ledger that `Grows` to one in bounds was in bounds. -/
theorem Ledger.Grows.inBounds {was is : Ledger} (h : was.Grows is)
    (hbounds : Schema.ledger.inBounds is = true) : Schema.ledger.inBounds was = true := by
  rw [Schema.ledger_inBounds_iff] at hbounds ⊢
  obtain ⟨hbattle, hgroups, htargets, hcasualties⟩ := hbounds
  rw [h.battle] at hbattle
  rw [h.targets] at htargets
  refine ⟨hbattle, ?_, htargets, fun unit hunit => hcasualties unit (h.casualties unit hunit)⟩
  intro record hrecord
  obtain ⟨index, hindex⟩ := List.mem_iff_getElem?.1 hrecord
  obtain ⟨later, hlater, hgrows⟩ := h.groups index record hindex
  exact hgrows.inBounds (hgroups later (List.mem_of_getElem? hlater))

/-- A `step` that fits a `ledger` in bounds is in bounds: its group is in the ledger, and so are the
    targets of its plan. -/
theorem Step.Fits.inBounds {step : Step} {ledger : Ledger} (h : step.Fits ledger)
    (hnumbered : ledger.Numbered) (hbounds : Schema.ledger.inBounds ledger = true) :
    Schema.step.inBounds step = true := by
  obtain ⟨-, hgroups, htargets, -⟩ := (Schema.ledger_inBounds_iff ledger).1 hbounds
  cases h with
  | plan territory =>
    show (true && (Schema.units.inBounds ledger.targets && true)) = true
    rw [htargets]
    rfl
  | @stage stage id hid =>
    -- The number of the step is the number of the record at that position.
    have hrecord := List.getElem?_eq_getElem hid
    have hbounded := hgroups _ (List.mem_of_getElem? hrecord)
    have hfirst := ((Schema.groupRecord_inBounds_iff _).1 hbounded).1
    rw [hnumbered id.index _ hrecord] at hfirst
    cases stage with
    | roll => exact hfirst
    | select => exact hfirst
    | notify => exact hfirst

/-- The `fire` at a move that is `Underway` to something in bounds is in bounds. -/
theorem Overflight.inBounds_of_underway {ρ : Type} {fire : Overflight} {host : Host ρ}
    {last : Ledger} (h : Underway (fire.progress host)) (hgrows : fire.ledger.Grows last)
    (htiming : Schema.timing.inBounds fire.timing = true)
    (hbounds : Schema.ledger.inBounds last = true) : Schema.overflight.inBounds fire = true := by
  have hledger := hgrows.inBounds hbounds
  have hsteps : ∀ step ∈ fire.agenda.pending, Schema.step.inBounds step = true :=
    fun step hstep => (h.steps step hstep).inBounds h.numbered hledger
  rw [Schema.overflight_inBounds_iff]
  -- A step that was put back after a failure is among those that are left.
  refine ⟨htiming, ?_, ?_, hledger⟩
  · exact fun step hstep => hsteps step (List.mem_append_right _ hstep)
  · cases hcurrent : fire.agenda.current with
    | none => rfl
    | some step => exact hsteps step (List.mem_append_left _ (by simp [hcurrent]))

end Flak
