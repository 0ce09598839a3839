import Flak.Proofs.Scenario.Casualties

namespace Flak

/-!
# Firings on one agenda

The firings of a battle run in two ways: one after the other, each on an agenda of its own, or all
of them on one agenda of the host, where the later ones lie beneath the steps of the first.

* `Advances.beneath` — steps that succeed leave alone what lies beneath them;
* `Agenda.pushBattles` — firings queued one by one, the last one first;
* `Scenario.runBattles_advances` — firings one after the other are steps on one agenda;
* `Scenario.runBattles_eq_ok_iff`, `Scenario.runBattles_eq_error_iff` — so that the two ways come to
  the same.
-/

variable {ρ : Type}

/-- The plans of firings, which are `fires`, in their order. -/
def BattleFire.plans (fires : List BattleFire) : List Step :=
  fires.map fun fire => .plan (.battle fire)

/-! ### Queueing -/

namespace Agenda

/-- Firings queued one by one on the `agenda`, the last of them first, so that the first of them
    runs first. -/
def pushBattles (fires : List BattleFire) (agenda : Agenda Step) : Agenda Step :=
  fires.foldr (fun fire agenda => agenda.push (.plan (.battle fire))) agenda

/-- To queue them by `pushBattles` is the same as to queue them all at once. -/
theorem pushBattles_eq_pushAll (fires : List BattleFire) (agenda : Agenda Step) :
    agenda.pushBattles fires = agenda.pushAll (BattleFire.plans fires) := by
  unfold pushBattles
  induction fires with
  | nil => rfl
  | cons fire rest ih =>
    rw [List.foldr_cons, ih]
    rfl

/-- What is pending after `pushAll` on an agenda that was empty is what was pushed. -/
theorem pending_pushAll (steps : List Step) :
    (({} : Agenda Step).pushAll steps).pending = steps := by
  show [] ++ (steps ++ []) = steps
  rw [List.nil_append, List.append_nil]

end Agenda

variable [RandomSource ρ] {timing : Timing} {scene last : Scene ρ}

/-! ### What lies beneath -/

/-- Whatever lies `below` the steps that succeed stays as it is and changes nothing for them. -/
theorem Advances.beneath {count : Nat} {first last : Progress ρ} (below : List Step)
    (h : Advances timing count first last) :
    Advances timing count ⟨first.pending ++ below, first.scene⟩
      ⟨last.pending ++ below, last.scene⟩ := by
  induction h with
  | refl progress => apply Advances.refl
  | @step count step rest next scene mid last done _ ih =>
    apply Advances.step done
    -- What comes of a step goes on top of what was left of the agenda.
    show Advances timing count ⟨next ++ (rest ++ below), mid⟩ _
    rw [← List.append_assoc]
    exact ih

namespace Engagement

variable {fire : BattleFire} {firing : Engagement}

/-- A firing that succeeds in `fire` is steps that lead to the end of its agenda. -/
theorem advances_of_fire {killed : List UnitId}
    (h : ({} : Engagement).fire timing fire scene = (.ok killed, firing, last)) :
    ∃ count, Advances timing count ⟨[.plan (.battle fire)], scene⟩ ⟨[], last⟩ := by
  unfold Engagement.fire resume at h
  rcases hrun : (({} : Engagement).started fire scene.ledger).agenda.run timing none scene with
    ⟨result, agenda, after⟩
  simp only [hrun, Prod.mk.injEq] at h
  obtain ⟨hresult, -, rfl⟩ := h
  obtain ⟨count, rfl, -⟩ := Fault.exists_of_map hresult
  obtain ⟨⟨pending, after⟩, hadvances, hreaches, -, rfl⟩ := Agenda.run_ok hrun
  obtain rfl : pending = [] := hreaches
  exact ⟨count, hadvances⟩

/-- A firing that fails in `fire` is steps that lead to one that fails. -/
theorem advances_of_fire_error {fault : Fault}
    (h : ({} : Engagement).fire timing fire scene = (.error fault, firing, last)) :
    ∃ count step rest mid,
      Advances timing count ⟨[.plan (.battle fire)], scene⟩ ⟨step :: rest, mid⟩ ∧
      (step.perform timing).onScene mid = (.error fault, last) := by
  unfold Engagement.fire resume at h
  rcases hrun : (({} : Engagement).started fire scene.ledger).agenda.run timing none scene with
    ⟨result, agenda, after⟩
  simp only [hrun, Prod.mk.injEq] at h
  obtain ⟨hresult, -, rfl⟩ := h
  obtain rfl : result = .error fault := by
    cases result with
    | error fault' => simpa [Except.map] using hresult
    | ok count => simp [Except.map] at hresult
  obtain ⟨count, step, rest, mid, hadvances, -, herror, -⟩ := Agenda.run_error hrun
  exact ⟨count, step, rest, mid, hadvances, herror⟩

end Engagement

/-! ### Firings one after the other -/

namespace Scenario

variable {fires : List BattleFire} {killed : List UnitId}

/-- Firings one after the other, by `runBattles`, are the steps of one agenda on which they were all
    queued: they lead to its end, or to a step that fails as the firings do. -/
theorem runBattles_advances (timing : Timing) (fires : List BattleFire) (scene : Scene ρ) :
    (∃ killed last count, runBattles timing fires scene = .ok (killed, last) ∧
      Advances timing count ⟨BattleFire.plans fires, scene⟩ ⟨[], last⟩) ∨
    ∃ fault count step rest mid after, runBattles timing fires scene = .error fault ∧
      Advances timing count ⟨BattleFire.plans fires, scene⟩ ⟨step :: rest, mid⟩ ∧
      (step.perform timing).onScene mid = (.error fault, after) := by
  induction fires generalizing scene with
  | nil => exact .inl ⟨[], scene, 0, rfl, .refl _⟩
  | cons fire rest ih =>
    rcases hfire : ({} : Engagement).fire timing fire scene with ⟨_ | dead, firing, mid⟩
    case error fault =>
      obtain ⟨count, step, left, there, hsteps, herror⟩ := Engagement.advances_of_fire_error hfire
      refine .inr ⟨fault, count, step, left ++ BattleFire.plans rest, there, mid, ?_, ?_, herror⟩
      · rw [runBattles, hfire]
        rfl
      · exact hsteps.beneath (BattleFire.plans rest)
    case ok =>
      obtain ⟨count, hsteps⟩ := Engagement.advances_of_fire hfire
      have hfirst : Advances timing count ⟨BattleFire.plans (fire :: rest), scene⟩
          ⟨BattleFire.plans rest, mid⟩ := hsteps.beneath (BattleFire.plans rest)
      -- The others see the scene that the first one has left, on either agenda.
      rcases ih mid with ⟨others, last, more, hothers, hmore⟩ |
        ⟨fault, more, step, left, there, after, hothers, hmore, herror⟩
      · refine .inl ⟨dead ++ others, last, count + more, ?_, hfirst.trans hmore⟩
        rw [runBattles, hfire]
        show (runBattles timing rest mid >>= _) = _
        rw [hothers]
        rfl
      · refine .inr ⟨fault, count + more, step, left, there, after, ?_, hfirst.trans hmore, herror⟩
        rw [runBattles, hfire]
        show (runBattles timing rest mid >>= _) = _
        rw [hothers]
        rfl

/-- So the agenda has a `run` to its end, or it fails as the firings do. -/
theorem runBattles_run (timing : Timing) (fires : List BattleFire) (scene : Scene ρ) :
    (∃ killed last count, runBattles timing fires scene = .ok (killed, last) ∧
      (({} : Agenda Step).pushAll (BattleFire.plans fires)).run timing none scene =
        (.ok count, {}, last)) ∨
    ∃ fault agenda last, runBattles timing fires scene = .error fault ∧
      (({} : Agenda Step).pushAll (BattleFire.plans fires)).run timing none scene =
        (.error fault, agenda, last) := by
  have hpending := Agenda.pending_pushAll (BattleFire.plans fires)
  rcases runBattles_advances timing fires scene with ⟨killed, last, count, hruns, hsteps⟩ |
    ⟨fault, count, step, rest, mid, after, hruns, hsteps, herror⟩
  · rw [← hpending] at hsteps
    have hreaches : Reaches none count [] := rfl
    exact .inl ⟨killed, last, count, hruns, Agenda.run_eq_ok hsteps hreaches⟩
  · rw [← hpending] at hsteps
    have hon : GoesOn none count := by simp [GoesOn]
    exact .inr ⟨fault, _, after, hruns, Agenda.run_eq_error hsteps hon herror⟩

/-- Firings one after the other, by `runBattles`, succeed just if one agenda does on which they were
    queued, all at once or one by one with the last one first. It leads to the same scene, and to
    the casualties that were there it has added those that the firings reported, in their order. -/
theorem runBattles_eq_ok_iff :
    runBattles timing fires scene = .ok (killed, last) ↔
      (∃ count, (({} : Agenda Step).pushAll (BattleFire.plans fires)).run timing none scene =
          (.ok count, {}, last) ∧
        (({} : Agenda Step).pushBattles fires).run timing none scene = (.ok count, {}, last)) ∧
      last.ledger.casualties = scene.ledger.casualties ++ killed := by
  rw [Agenda.pushBattles_eq_pushAll]
  -- Both succeed or both fail, and what is known of one end determines the other.
  rcases runBattles_run timing fires scene with ⟨killed', last', count, hruns, hqueue⟩ |
    ⟨fault, agenda, after, hruns, hqueue⟩
  · obtain ⟨-, hdead⟩ := runBattles_ok hruns
    constructor
    · intro h
      obtain ⟨rfl, rfl⟩ := Prod.mk.inj (Except.ok.inj (hruns.symm.trans h))
      exact ⟨⟨count, hqueue, hqueue⟩, hdead⟩
    · rintro ⟨⟨count', hrun, -⟩, hdead'⟩
      obtain rfl : last' = last := congrArg (fun result => result.2.2) (hqueue.symm.trans hrun)
      obtain rfl : killed' = killed := List.append_cancel_left (hdead.symm.trans hdead')
      exact hruns
  · constructor
    · intro h
      simp [hruns] at h
    · rintro ⟨⟨count', hrun, -⟩, -⟩
      simp [hqueue] at hrun

/-- They fail just if the agenda does, and with the same `fault`. -/
theorem runBattles_eq_error_iff {fault : Fault} :
    runBattles timing fires scene = .error fault ↔
      ∃ agenda last, (({} : Agenda Step).pushAll (BattleFire.plans fires)).run timing none scene =
        (.error fault, agenda, last) := by
  rcases runBattles_run timing fires scene with ⟨killed', last', count, hruns, hqueue⟩ |
    ⟨fault', agenda, after, hruns, hqueue⟩
  · simp [hruns, hqueue]
  · simp [hruns, hqueue]

end Scenario

end Flak
