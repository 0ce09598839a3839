import Flak.Proofs.Fire.Bounds

namespace Flak

/-!
# Fire that is interrupted and resumed

The fire at a move does not depend on how it is cut into calls, nor on whether it is saved and
loaded between them, if nobody takes part who could be asked:

* `Leg`, `Overflight.travel` — calls one after the other, each for a number of steps and each with
  or without saving and loading before it;
* `Overflight.Heads` — the fire at a move on its way to where an uninterrupted run ends;
* `Overflight.Heads.run`, `Overflight.Heads.reload` — a call leaves it on its way, and so does
  saving and loading;
* `Overflight.travel_eq` — so that all calls together end where the uninterrupted run does.
-/

variable {ρ : Type}

/-- One call: whether the fire is saved and loaded before it, as `reload` says, and how many steps
    it may run. -/
structure Leg where
  reload : Bool
  limit : Option Nat

namespace Overflight

/-- The `fire` at a move, saved as text and loaded again. -/
def reloaded? (fire : Overflight) : Option Overflight :=
  Schema.overflight.parse? (Json.compact (Schema.overflight.write fire))

/-- The `fire` as it is when the call of a `leg` begins. -/
def before? (leg : Leg) (fire : Overflight) : Option Overflight :=
  if leg.reload then fire.reloaded? else some fire

/-- What calls one after the other, a `Leg` each, come to, if everything can be loaded and none of
    them fails. -/
def travel [RandomSource ρ] : List Leg → Overflight → Host ρ → Option (Overflight × Host ρ)
  | [], fire, host => some (fire, host)
  | leg :: rest, fire, host =>
      match fire.before? leg with
      | none => none
      | some fire =>
          match fire.run leg.limit host with
          | (.ok _, fire, host) => travel rest fire host
          | (.error _, _, _) => none

/-- The `fire` at a move is on its way to where a run without limit ends, `whole`. -/
structure Heads [RandomSource ρ] (fire : Overflight) (host : Host ρ) (whole : Overflight)
    (last : Host ρ) : Prop where
  underway : Underway (fire.progress host)
  timing : whole.timing = fire.timing
  advances : ∃ count, Advances fire.timing count (fire.progress host) (whole.progress last)
  ended : whole.agenda = {}

namespace Heads

variable [RandomSource ρ] {fire whole : Overflight} {host last : Host ρ}

/-- Saving and loading loses nothing of what `Heads` to an end that can be saved. -/
theorem reload (h : Heads fire host whole last)
    (hbounds : Schema.overflight.inBounds whole = true) : fire.reloaded? = some fire := by
  obtain ⟨count, hadvances⟩ := h.advances
  obtain ⟨htiming, -, -, hledger⟩ := (Schema.overflight_inBounds_iff whole).1 hbounds
  have hgrows := (hadvances.underway h.underway).2
  rw [h.timing] at htiming
  -- The end has all that there is now, so that what is in bounds there is in bounds here.
  have hfire := inBounds_of_underway h.underway hgrows htiming hledger
  have hparked : fire.ledger.unparked = fire.ledger := by
    have hnone : fire.ledger.parked = ∅ := h.underway.parked
    rw [Ledger.unparked, ← hnone]
  rw [reloaded?, Schema.parse?_overflight, if_pos hfire, hparked]

/-- A `leg` begins where the last one left off, reloaded or not. -/
theorem before?_eq (h : Heads fire host whole last)
    (hbounds : Schema.overflight.inBounds whole = true) (leg : Leg) :
    fire.before? leg = some fire := by
  unfold before?
  split
  · exact h.reload hbounds
  · rfl

/-- The part of the way that a call with this `limit` covers. -/
theorem exists_part (limit : Option Nat) {timing : Timing} {count : Nat}
    {first : Progress ρ} {scene : Scene ρ} (h : Advances timing count first ⟨[], scene⟩) :
    ∃ few rest mid, Advances timing few first mid ∧ Advances timing rest mid ⟨[], scene⟩ ∧
      Reaches limit few mid.pending := by
  have hwhole (hreaches : Reaches limit count []) : ∃ few rest mid, Advances timing few first mid ∧
      Advances timing rest mid ⟨[], scene⟩ ∧ Reaches limit few mid.pending :=
    ⟨count, 0, _, h, .refl _, hreaches⟩
  cases limit with
  | none => exact hwhole rfl
  | some limit =>
    by_cases hle : count ≤ limit
    · exact hwhole ⟨hle, fun _ => rfl⟩
    · obtain ⟨extra, rfl⟩ := Nat.exists_eq_add_of_le (Nat.le_of_not_le hle)
      obtain ⟨mid, hfew, hrest⟩ := h.exists_of_add
      exact ⟨limit, extra, mid, hfew, hrest, Nat.le_refl _, fun hlt => absurd hlt (Nat.lt_irrefl _)⟩

/-- A call succeeds and leaves the `fire` on its way; a call without `limit` ends it. -/
theorem run (h : Heads fire host whole last) (limit : Option Nat) :
    ∃ count later there, fire.run limit host = (.ok count, later, there) ∧
      Heads later there whole last ∧ (limit = none → later = whole ∧ there = last) := by
  obtain ⟨total, hadvances⟩ := h.advances
  have hend : whole.progress last = ⟨[], ⟨last, whole.ledger⟩⟩ := by
    rw [progress, h.ended]
    rfl
  rw [hend] at hadvances
  obtain ⟨few, rest, mid, hfew, hrest, hreaches⟩ := exists_part limit hadvances
  obtain ⟨pending, ⟨there, ledger⟩⟩ := mid
  have hrun : fire.agenda.run fire.timing limit ⟨host, fire.ledger⟩ =
      (.ok few, ⟨pending, none⟩, ⟨there, ledger⟩) := Agenda.run_eq_ok hfew hreaches
  refine ⟨few, { fire with agenda := ⟨pending, none⟩, ledger }, there, ?_, ?_, ?_⟩
  · simp only [Overflight.run, hrun]
  · refine ⟨(hfew.underway h.underway).1, h.timing, ⟨rest, ?_⟩, h.ended⟩
    rw [hend]
    exact hrest
  · rintro rfl
    -- Nothing is left after a run without limit, and nothing follows it.
    obtain rfl : pending = [] := hreaches
    obtain rfl : rest = 0 := by
      cases rest with
      | zero => rfl
      | succ rest => exact absurd rfl hrest.pending_ne_nil
    cases hrest
    have htiming := h.timing
    have hended := h.ended
    obtain ⟨timing, agenda, ledger⟩ := whole
    obtain rfl : timing = fire.timing := htiming
    obtain rfl : agenda = {} := hended
    exact ⟨rfl, rfl⟩

/-- All calls of `travel` together end where the uninterrupted run does. -/
theorem travel (h : Heads fire host whole last) (hbounds : Schema.overflight.inBounds whole = true)
    (legs : List Leg) (reload : Bool) :
    fire.travel (legs ++ [⟨reload, none⟩]) host = some (whole, last) := by
  induction legs generalizing fire host with
  | nil =>
    -- The last call has no limit.
    obtain ⟨count, later, there, hrun, -, hwhole⟩ := h.run none
    obtain ⟨rfl, rfl⟩ := hwhole rfl
    have hload := h.before?_eq hbounds ⟨reload, none⟩
    simp only [List.nil_append, Overflight.travel, hload, hrun]
  | cons leg rest ih =>
    obtain ⟨count, later, there, hrun, hlater, -⟩ := h.run leg.limit
    have hload := h.before?_eq hbounds leg
    simp only [List.cons_append, Overflight.travel, hload, hrun]
    exact ih hlater

end Heads

/-! ### From the start -/

variable {fire ready whole : Overflight} {host last : Host ρ} {route : Route} {units : List UnitId}
  {ordering : BoardUnit → BoardUnit → Ordering}

/-- What `prepare` makes ready without attendance is `Underway`. -/
theorem underway_of_prepare (hnew : fire.agenda.isEmpty = true) (hquiet : host.headless = true)
    (h : fire.prepare host route units ordering = .ok ready) : Underway (ready.progress host) := by
  obtain ⟨territories, moving, -, -, -, hstart⟩ := prepare_ok hnew h
  rw [hstart]
  refine ⟨hquiet, rfl, ?_, ?_, ?_⟩
  · intro index record hrecord
    simp [freshLedger] at hrecord
  · intro index record hrecord
    simp [freshLedger] at hrecord
  · intro step hstep
    obtain ⟨territory, -, rfl⟩ := List.mem_map.1 hstep
    exact .plan territory

/-- What is prepared without attendance `Heads` to where a run without limit ends. -/
theorem heads_of_run [RandomSource ρ] {count : Nat} (hunderway : Underway (ready.progress host))
    (h : ready.run none host = (.ok count, whole, last)) : Heads ready host whole last := by
  have htiming : whole.timing = ready.timing := by
    rw [Overflight.run] at h
    exact (congrArg (fun result => result.2.1.timing) h).symm
  obtain ⟨⟨pending, scene⟩, hadvances, hreaches, hagenda, hscene⟩ := Agenda.run_ok (run_eq h)
  obtain rfl : pending = [] := hreaches
  refine ⟨hunderway, htiming, ⟨count, ?_⟩, hagenda⟩
  rw [progress, progress, hagenda, hscene]
  exact hadvances

/-- If `fireAlong` succeeds without attendance, it comes to the same when the `fire` is prepared and
    then run in calls that are cut short anywhere, saved and loaded between any two of them, and
    resumed at last: the same action, with all its groups and casualties, on the same board, with
    the same history and dice. What is saved has to be in bounds, which it is if the outcome is. -/
theorem travel_eq [RandomSource ρ] {killed : List UnitId} {handle handle' : MoveHandle}
    (hnew : fire.agenda.isEmpty = true) (hquiet : host.headless = true)
    (hfire : fire.fireAlong host route units ordering handle = (.ok killed, whole, handle', last))
    (hbounds : Schema.overflight.inBounds whole = true) (legs : List Leg) (reload : Bool) :
    ∃ ready, fire.prepare host route units ordering = .ok ready ∧
      ready.travel (legs ++ [⟨reload, none⟩]) host = some (whole, last) ∧
      whole.agenda.isEmpty = true ∧ whole.ledger.casualties = killed := by
  rw [fireAlong] at hfire
  cases hready : fire.prepare host route units ordering with
  | error fault => simp [hready] at hfire
  | ok ready =>
    rcases hrun : ready.run none host with ⟨result, later, there⟩
    simp only [hready, hrun, Prod.mk.injEq] at hfire
    obtain ⟨hresult, rfl, -, rfl⟩ := hfire
    cases result with
    | error fault => simp [Except.map] at hresult
    | ok count =>
      have hheads := heads_of_run (underway_of_prepare hnew hquiet hready) hrun
      refine ⟨ready, rfl, hheads.travel hbounds legs reload, ?_, Except.ok.inj hresult⟩
      rw [hheads.ended]
      rfl

/-- By `fireAlong`, the uninterrupted sortie costs the bomber. -/
theorem fireAlong_sortie : ∃ whole last,
    fireAlong {} (Sortie.host true) Sortie.route [⟨1⟩] BoardUnit.leastMovementFirst {} =
      (.ok [⟨1⟩], whole, ⟨some (undoReason "Flak")⟩, last) ∧
        Schema.overflight.inBounds whole = true := by
  have hbounds : Schema.ledger.inBounds Sortie.flown.ledger = true := rfl
  exact ⟨_, _, Sortie.fireAlong_eq,
    (Schema.overflight_inBounds_iff _).2 ⟨rfl, by simp, rfl, hbounds⟩⟩

/-- The `Sortie` is saved and loaded before it is planned, cut short after its roll, saved and
    loaded again, and resumed. -/
theorem travel_eq_sortie : ∃ whole last,
    fireAlong {} (Sortie.host true) Sortie.route [⟨1⟩] BoardUnit.leastMovementFirst {} =
      (.ok [⟨1⟩], whole, ⟨some (undoReason "Flak")⟩, last) ∧
    ∃ ready, prepare {} (Sortie.host true) Sortie.route [⟨1⟩] BoardUnit.leastMovementFirst =
        .ok ready ∧
      ready.travel ([⟨true, some 2⟩] ++ [⟨true, none⟩]) (Sortie.host true) = some (whole, last) ∧
      whole.agenda.isEmpty = true ∧ whole.ledger.casualties = [⟨1⟩] := by
  obtain ⟨whole, last, hfire, hbounds⟩ := fireAlong_sortie
  exact ⟨whole, last, hfire, travel_eq rfl rfl hfire hbounds [⟨true, some 2⟩] true⟩

end Overflight

end Flak
