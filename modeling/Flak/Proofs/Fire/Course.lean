import Flak.Fire.Engagement
import Flak.Fire.Overflight
import Flak.Proofs.Fire.Performed
import Flak.Proofs.Save.Reload

namespace Flak

/-!
# Courses of an action

How an action can go on over several calls, some of which fail, with all that may happen between
them:

* `Interlude` — what remote players and parked requests do while no step runs.
* `Overflight.Course`, `Overflight.fireAlong_ok` — the fire at one move, which an uninterrupted call
  brings to its end.
* `Overflight.advances_of_fireAlong`, `Overflight.fireAlong_of_advances` — such a call is steps that
  succeed until nothing is left.
* `Engagement.Course`, `Firings` — one firing in a battle, and firings one after the other.
* `Overflight.Course.preserves`, `Engagement.Course.preserves` — what every attempt at a step and
  every interlude preserve, a course does.

Courses take a condition that every step attempted has to meet.
-/

variable {ρ : Type}

/-- While no step runs, `before` and `after`, remote players come and go, waits are called off or
    allowed again, and the calls behind parked requests go on or are dropped. -/
structure Interlude (before after : Scene ρ) : Prop where
  host : ∃ remotes cancelled cancelComing,
    after.host = { before.host with remotes, cancelled, cancelComing }
  ledger : ∃ parked, after.ledger = { before.ledger with parked }

/-- The board does not change in an `Interlude`. -/
theorem Interlude.board {before after : Scene ρ} (h : Interlude before after) :
    after.host.board = before.host.board := by
  obtain ⟨_, _, _, hhost⟩ := h.host
  rw [hhost]

/-- No record changes in an `Interlude`. -/
theorem Interlude.groups {before after : Scene ρ} (h : Interlude before after) :
    after.ledger.groups = before.ledger.groups := by
  obtain ⟨_, hledger⟩ := h.ledger
  rw [hledger]

/-- Nobody dies in an `Interlude`. -/
theorem Interlude.casualties {before after : Scene ρ} (h : Interlude before after) :
    after.ledger.casualties = before.ledger.casualties := by
  obtain ⟨_, hledger⟩ := h.ledger
  rw [hledger]

/-- Nothing is said in an `Interlude`. -/
theorem Interlude.correspondence {before after : Scene ρ} (h : Interlude before after) :
    after.host.correspondence = before.host.correspondence := by
  obtain ⟨_, _, _, hhost⟩ := h.host
  rw [hhost]

/-- Neither the rules change in an `Interlude` nor what action this is. -/
theorem Interlude.steady {before after : Scene ρ} (h : Interlude before after) :
    Steady before after := by
  obtain ⟨remotes, cancelled, cancelComing, hhost⟩ := h.host
  obtain ⟨parked, hledger⟩ := h.ledger
  exact ⟨by rw [hhost], by rw [hledger], by rw [hledger], by rw [hledger], by rw [hledger]⟩

/-- Saving and loading the `ledger` drops its requests, which is an `Interlude`. -/
theorem Interlude.reload (host : Host ρ) (ledger : Ledger) :
    Interlude ⟨host, ledger⟩ ⟨host, ledger.unparked⟩ :=
  ⟨⟨host.remotes, host.cancelled, host.cancelComing, rfl⟩, ⟨∅, rfl⟩⟩

/-- So does saving the `ledger` as text and loading the text. -/
theorem Interlude.loaded {host : Host ρ} {ledger loaded : Ledger}
    (h : Schema.ledger.parse? (Json.compact (Schema.ledger.write ledger)) = some loaded) :
    Interlude ⟨host, ledger⟩ ⟨host, loaded⟩ := by
  rw [Schema.parse?_ledger] at h
  split at h
  · obtain rfl := Option.some.inj h
    exact .reload host ledger
  · simp at h

/-- A step that may do anything; a course of `Unrestricted` steps is any course. -/
def Step.Unrestricted (_ : Timing) (_ : Step) (_ : Scene ρ) : Prop := True

/-- What every attempt at a step preserves that `Permits` allows, a run of permitted steps does. -/
theorem Agenda.run_preserves_permitted [RandomSource ρ]
    {Permits : Timing → Step → Scene ρ → Prop} {Holds : Progress ρ → Prop} {timing : Timing}
    {limit : Option Nat} {agenda agenda' : Agenda Step} {scene scene' : Scene ρ}
    {result : Except Fault Nat}
    (hattempt : ∀ timing step rest mid, Permits timing step mid → Holds ⟨step :: rest, mid⟩ →
      Holds (Progress.attempt timing ⟨step :: rest, mid⟩))
    (hpermits : ∀ step mid, agenda.Tries timing limit scene step mid → Permits timing step mid)
    (hstart : Holds ⟨agenda.pending, scene⟩)
    (hrun : agenda.run timing limit scene = (result, agenda', scene')) :
    Holds ⟨agenda'.pending, scene'⟩ := by
  refine Agenda.run_preserves ?_ hstart hrun
  intro step rest mid htried
  exact hattempt timing step rest mid (hpermits step mid htried)

/-! ### Moves -/

/-- An `agenda` that is empty has neither steps nor a current one. -/
theorem Agenda.eq_of_isEmpty {agenda : Agenda Step} (h : agenda.isEmpty = true) :
    agenda = ⟨[], none⟩ := by
  obtain ⟨queued, current⟩ := agenda
  simpa [isEmpty] using h

namespace Overflight

/-- How far the `fire` at a move has come. -/
def progress (fire : Overflight) (host : Host ρ) : Progress ρ :=
  ⟨fire.agenda.pending, ⟨host, fire.ledger⟩⟩

/-- What `prepare` comes to when nothing is left of an earlier call. -/
theorem prepare_ok {fire ready : Overflight} {host : Host ρ} {route : Route} {units : List UnitId}
    {ordering : BoardUnit → BoardUnit → Ordering} (hnew : fire.agenda.isEmpty = true)
    (h : fire.prepare host route units ordering = .ok ready) :
    ∃ territories moving, host.board.firingTerritories host.player route units = .ok territories ∧
      host.board.findUnits units = .ok moving ∧ ready.timing = fire.timing ∧
      let targets := (inOrder ordering moving).map BoardUnit.id
      ready.progress host =
        ⟨territories.map fun territory => .plan (.overflight territory targets),
          ⟨host, freshLedger host targets⟩⟩ := by
  have hempty : fire.agenda = ⟨[], none⟩ := Agenda.eq_of_isEmpty hnew
  rw [prepare, if_pos hnew] at h
  obtain ⟨territories, hterritories, hrest⟩ := Fault.exists_of_bind h
  obtain ⟨moving, hmoving, hready⟩ := Fault.exists_of_bind hrest
  obtain rfl := Except.ok.inj hready
  refine ⟨territories, moving, hterritories, hmoving, rfl, ?_⟩
  simp [progress, Agenda.pushAll, Agenda.pending, hempty]

/-- Units that are found and put in order are what the plans for the `territories` aim at: so
    `prepare` succeeds. -/
theorem prepare_eq_ok {fire : Overflight} {host : Host ρ} {route : Route} {units : List UnitId}
    {ordering : BoardUnit → BoardUnit → Ordering} {territories : List String}
    {moving ordered : List BoardUnit} (hnew : fire.agenda.isEmpty = true)
    (hterritories : host.board.firingTerritories host.player route units = .ok territories)
    (hmoving : host.board.findUnits units = .ok moving)
    (horder : inOrder ordering moving = ordered) :
    fire.prepare host route units ordering = .ok { fire with
      ledger := freshLedger host (ordered.map BoardUnit.id)
      agenda := ⟨territories.map fun territory =>
        .plan (.overflight territory (ordered.map BoardUnit.id)), none⟩ } := by
  have hempty : fire.agenda = ⟨[], none⟩ := Agenda.eq_of_isEmpty hnew
  rw [prepare, if_pos hnew, hterritories, hmoving, hempty, ← horder]
  show Except.ok _ = _
  rw [Agenda.pushAll, List.append_nil]

/-- What `prepare` makes ready asks nobody just if the host is headless. -/
theorem prepare_headless {fire ready : Overflight} {host : Host ρ} {route : Route}
    {units : List UnitId} {ordering : BoardUnit → BoardUnit → Ordering}
    (hnew : fire.agenda.isEmpty = true)
    (h : fire.prepare host route units ordering = .ok ready) :
    ready.ledger.headless = host.headless := by
  obtain ⟨territories, moving, -, -, -, hstart⟩ := prepare_ok hnew h
  exact congrArg (fun progress => progress.scene.ledger.headless) hstart

/-- What `prepare` makes ready belongs to the player of the host. -/
theorem prepare_player {fire ready : Overflight} {host : Host ρ} {route : Route}
    {units : List UnitId} {ordering : BoardUnit → BoardUnit → Ordering}
    (hnew : fire.agenda.isEmpty = true)
    (h : fire.prepare host route units ordering = .ok ready) :
    ready.ledger.player = host.player := by
  obtain ⟨territories, moving, -, -, -, hstart⟩ := prepare_ok hnew h
  exact congrArg (fun progress => progress.scene.ledger.player) hstart

/-- Of a `fire` whose agenda is empty nothing is pending. -/
theorem pending_of_isEmpty {fire : Overflight} (host : Host ρ) (h : fire.agenda.isEmpty = true) :
    (fire.progress host).pending = [] := by
  rw [progress, Agenda.eq_of_isEmpty h]
  rfl

variable [RandomSource ρ]

/-- What can become of the `fire` at a move after it was prepared. `fireAlong` prepares it and runs
    all of it; while steps are left, a further call of `fireAlong` runs them, whatever it is called
    with. -/
inductive Course (Permits : Timing → Step → Scene ρ → Prop) (fire : Overflight) (host : Host ρ)
    (route : Route) (units : List UnitId) (ordering : BoardUnit → BoardUnit → Ordering) :
    Overflight → Host ρ → Prop
  | prepared {ready : Overflight} (hnew : fire.agenda.isEmpty = true)
      (hready : fire.prepare host route units ordering = .ok ready) :
      Course Permits fire host route units ordering ready host
  | ran {now later : Overflight} {there last : Host ρ} {result : Except Fault Nat}
      (earlier : Course Permits fire host route units ordering now there) (limit : Option Nat)
      (hpermits : ∀ step mid, now.agenda.Tries now.timing limit ⟨there, now.ledger⟩ step mid →
        Permits now.timing step mid)
      (hrun : now.run limit there = (result, later, last)) :
      Course Permits fire host route units ordering later last
  | fired {now later : Overflight} {there last : Host ρ} {result : Except Fault (List UnitId)}
      {handle handle' : MoveHandle}
      (earlier : Course Permits fire host route units ordering now there)
      (hleft : now.agenda.isEmpty = false) (route' : Route) (units' : List UnitId)
      (ordering' : BoardUnit → BoardUnit → Ordering)
      (hpermits : ∀ step mid, now.agenda.Tries now.timing none ⟨there, now.ledger⟩ step mid →
        Permits now.timing step mid)
      (hfire : now.fireAlong there route' units' ordering' handle =
        (result, later, handle', last)) :
      Course Permits fire host route units ordering later last
  | reloaded {now later : Overflight} {there : Host ρ}
      (earlier : Course Permits fire host route units ordering now there)
      (hload : Schema.overflight.parse? (Json.compact (Schema.overflight.write now)) = some later) :
      Course Permits fire host route units ordering later there
  | paused {now : Overflight} {there last : Host ρ} {ledger : Ledger}
      (earlier : Course Permits fire host route units ordering now there)
      (hpause : Interlude ⟨there, now.ledger⟩ ⟨last, ledger⟩) :
      Course Permits fire host route units ordering { now with ledger } last

/-- Every `Course` of fire at a move begins with what `prepare` made ready. -/
theorem Course.exists_prepared {Permits : Timing → Step → Scene ρ → Prop} {fire now : Overflight}
    {host there : Host ρ} {route : Route} {units : List UnitId}
    {ordering : BoardUnit → BoardUnit → Ordering}
    (h : Course Permits fire host route units ordering now there) :
    ∃ ready, fire.agenda.isEmpty = true ∧ fire.prepare host route units ordering = .ok ready := by
  induction h with
  | prepared hnew hready => exact ⟨_, hnew, hready⟩
  | ran _ _ _ _ ih => exact ih
  | fired _ _ _ _ _ _ _ ih => exact ih
  | reloaded _ _ ih => exact ih
  | paused _ _ ih => exact ih

/-- What a `run` does to the `fire` at a move is what one of its agenda does. -/
theorem run_eq {fire later : Overflight} {limit : Option Nat} {host last : Host ρ}
    {result : Except Fault Nat} (h : fire.run limit host = (result, later, last)) :
    fire.agenda.run fire.timing limit ⟨host, fire.ledger⟩ =
      (result, later.agenda, ⟨last, later.ledger⟩) := by
  rcases hrun : fire.agenda.run fire.timing limit ⟨host, fire.ledger⟩ with ⟨result', agenda, scene⟩
  simp only [run, hrun, Prod.mk.injEq] at h
  obtain ⟨rfl, rfl, rfl⟩ := h
  rfl

/-- By `fireAlong`, firing again while steps are left runs them. -/
theorem run_of_fireAlong {fire later : Overflight} {host last : Host ρ} {route : Route}
    {units : List UnitId} {ordering : BoardUnit → BoardUnit → Ordering}
    {handle handle' : MoveHandle} {result : Except Fault (List UnitId)}
    (hleft : fire.agenda.isEmpty = false)
    (h : fire.fireAlong host route units ordering handle = (result, later, handle', last)) :
    ∃ count, fire.run none host = (count, later, last) := by
  have hprepare : fire.prepare host route units ordering = .ok fire := by
    simp [prepare, hleft]
  -- The first part of firing does nothing then, and the last part is about the move alone.
  rcases hrun : fire.run none host with ⟨count, later', last'⟩
  simp only [fireAlong, hprepare, hrun, Prod.mk.injEq] at h
  obtain ⟨-, rfl, -, rfl⟩ := h
  exact ⟨count, rfl⟩

/-- A `fireAlong` that succeeds has run its course, and it reports its dead. -/
theorem fireAlong_ok {fire later : Overflight} {host last : Host ρ} {route : Route}
    {units : List UnitId} {ordering : BoardUnit → BoardUnit → Ordering}
    {handle handle' : MoveHandle} {killed : List UnitId} (hnew : fire.agenda.isEmpty = true)
    (h : fire.fireAlong host route units ordering handle = (.ok killed, later, handle', last)) :
    Course Step.Unrestricted fire host route units ordering later last ∧
      later.ledger.casualties = killed := by
  rw [fireAlong] at h
  cases hready : fire.prepare host route units ordering with
  | error fault => simp [hready] at h
  | ok ready =>
    rcases hrun : ready.run none host with ⟨result, later', there⟩
    simp only [hready, hrun, Prod.mk.injEq] at h
    obtain ⟨hresult, rfl, -, rfl⟩ := h
    obtain ⟨count, rfl, hkilled⟩ := Fault.exists_of_map hresult
    exact ⟨.ran (.prepared hnew hready) none (fun _ _ _ => trivial) hrun, hkilled⟩

/-- A `fireAlong` that succeeds is steps that lead from where the fire was prepared to its end. -/
theorem advances_of_fireAlong {fire later : Overflight} {host last : Host ρ} {route : Route}
    {units : List UnitId} {ordering : BoardUnit → BoardUnit → Ordering}
    {handle handle' : MoveHandle} {killed : List UnitId}
    (h : fire.fireAlong host route units ordering handle = (.ok killed, later, handle', last)) :
    ∃ ready count, fire.prepare host route units ordering = .ok ready ∧
      Advances ready.timing count (ready.progress host) ⟨[], ⟨last, later.ledger⟩⟩ ∧
      handle' = later.settle handle := by
  rw [fireAlong] at h
  cases hready : fire.prepare host route units ordering with
  | error fault => simp [hready] at h
  | ok ready =>
    rcases hrun : ready.run none host with ⟨result, later', there⟩
    simp only [hready, hrun, Prod.mk.injEq] at h
    obtain ⟨hresult, rfl, hhandle, rfl⟩ := h
    obtain ⟨count, rfl, -⟩ := Fault.exists_of_map hresult
    obtain ⟨⟨pending, scene⟩, hadvances, hreaches, -, hscene⟩ := Agenda.run_ok (run_eq hrun)
    obtain rfl : pending = [] := hreaches
    obtain rfl : ⟨there, later'.ledger⟩ = scene := hscene
    exact ⟨ready, count, rfl, hadvances, hhandle.symm⟩

/-- Steps that lead to the end of what was prepared are a `fireAlong` that succeeds. -/
theorem fireAlong_of_advances {fire ready : Overflight} {host : Host ρ} {route : Route}
    {units : List UnitId} {ordering : BoardUnit → BoardUnit → Ordering} {handle : MoveHandle}
    {count : Nat} {last : Scene ρ} (hready : fire.prepare host route units ordering = .ok ready)
    (h : Advances ready.timing count (ready.progress host) ⟨[], last⟩) :
    let later := { ready with agenda := {}, ledger := last.ledger }
    fire.fireAlong host route units ordering handle =
      (.ok last.ledger.casualties, later, later.settle handle, last.host) := by
  have hreaches : Reaches none count (Progress.mk [] last).pending := rfl
  have hrun : ready.agenda.run ready.timing none ⟨host, ready.ledger⟩ = (.ok count, {}, last) :=
    Agenda.run_eq_ok h hreaches
  simp only [fireAlong, hready, run, hrun, Except.map]

/-- What every attempt at a permitted step and every `Interlude` preserve holds over a course. -/
theorem Course.preserves {Permits : Timing → Step → Scene ρ → Prop} {Holds : Progress ρ → Prop}
    {fire now : Overflight} {host there : Host ρ} {route : Route} {units : List UnitId}
    {ordering : BoardUnit → BoardUnit → Ordering}
    (hattempt : ∀ timing step rest mid, Permits timing step mid → Holds ⟨step :: rest, mid⟩ →
      Holds (Progress.attempt timing ⟨step :: rest, mid⟩))
    (hpause : ∀ pending before after, Interlude before after → Holds ⟨pending, before⟩ →
      Holds ⟨pending, after⟩)
    (hstart : ∀ ready, fire.agenda.isEmpty = true →
      fire.prepare host route units ordering = .ok ready → Holds (ready.progress host))
    (h : Course Permits fire host route units ordering now there) : Holds (now.progress there) := by
  induction h with
  | prepared hnew hready => exact hstart _ hnew hready
  | ran earlier limit hpermits hrun ih =>
    exact Agenda.run_preserves_permitted hattempt hpermits ih (run_eq hrun)
  | fired earlier hleft route' units' ordering' hpermits hfire ih =>
    obtain ⟨count, hrun⟩ := run_of_fireAlong hleft hfire
    exact Agenda.run_preserves_permitted hattempt hpermits ih (run_eq hrun)
  | @reloaded now later there earlier hload ih =>
    -- Loading drops the parked requests, as an interlude may.
    rw [Schema.parse?_overflight] at hload
    split at hload
    · obtain rfl := Option.some.inj hload
      exact hpause _ _ _ (.reload there now.ledger) ih
    · simp at hload
  | paused earlier hbetween ih => exact hpause _ _ _ hbetween ih

end Overflight

/-! ### Battles -/

namespace Engagement

/-- How far the `firing` has come: one that has not started has its plan before it. -/
def progress (firing : Engagement) (fire : BattleFire) (scene : Scene ρ) : Progress ρ :=
  ⟨match firing.firstCasualty with
    | some _ => firing.agenda.pending
    | none => firing.agenda.pending ++ [.plan (.battle fire)], scene⟩

/-- The steps of a `firing` that are run, or those of one that is started and run. -/
theorem started_pending {firing : Engagement} {fire fire' : BattleFire} (scene : Scene ρ)
    (hfirst : firing.firstCasualty = none → fire' = fire)
    (hnew : firing.firstCasualty = none → firing.agenda.pending = []) :
    (firing.started fire' scene.ledger).agenda.pending = (firing.progress fire scene).pending := by
  cases hcount : firing.firstCasualty with
  | some first => simp [started, progress, hcount]
  | none =>
    obtain rfl := hfirst hcount
    have hempty : firing.agenda.pending = [] := hnew hcount
    simp only [Agenda.pending, List.append_eq_nil_iff, Option.toList_eq_nil_iff] at hempty
    simp [started, progress, hcount, Agenda.pending, Agenda.push, hempty]

/-- Of a `firing` that is finished nothing is pending. -/
theorem pending_of_isFinished {firing : Engagement} (fire : BattleFire) (scene : Scene ρ)
    (h : firing.isFinished = true) : (firing.progress fire scene).pending = [] := by
  obtain ⟨hstarted, hempty⟩ : firing.firstCasualty.isSome = true ∧
      firing.agenda.isEmpty = true := by
    simpa [isFinished] using h
  obtain ⟨first, hfirst⟩ := Option.isSome_iff_exists.1 hstarted
  simp only [progress, hfirst, Agenda.eq_of_isEmpty hempty]
  rfl

/-- A `firing` that has started knows where its casualties begin. -/
theorem started_firstCasualty (firing : Engagement) (fire : BattleFire) (ledger : Ledger) :
    (firing.started fire ledger).firstCasualty ≠ none := by
  unfold started
  cases hfirst : firing.firstCasualty <;> simp [hfirst]

variable [RandomSource ρ]

/-- What can become of one firing in a battle, from before it starts on the scene `start`. What it
    is called with matters to the call that starts it. -/
inductive Course (Permits : Timing → Step → Scene ρ → Prop) (fire : BattleFire)
    (start : Scene ρ) : Engagement → Scene ρ → Prop
  | planned : Course Permits fire start {} start
  | fired {now later : Engagement} {there last : Scene ρ} {result : Except Fault (List UnitId)}
      (earlier : Course Permits fire start now there) (timing : Timing) (fire' : BattleFire)
      (hfirst : now.firstCasualty = none → fire' = fire)
      (hpermits : ∀ step mid,
        (now.started fire' there.ledger).agenda.Tries timing none there step mid →
          Permits timing step mid)
      (hfire : now.fire timing fire' there = (result, later, last)) :
      Course Permits fire start later last
  | resumed {now later : Engagement} {there last : Scene ρ} {result : Except Fault (List UnitId)}
      (earlier : Course Permits fire start now there) (timing : Timing)
      (hpermits : ∀ step mid, now.agenda.Tries timing none there step mid →
        Permits timing step mid)
      (hresume : now.resume timing there = (result, later, last)) :
      Course Permits fire start later last
  | reloaded {now later : Engagement} {there : Scene ρ}
      (earlier : Course Permits fire start now there)
      (hload : Schema.engagement.parse? (Json.compact (Schema.engagement.write now)) =
        some later) :
      Course Permits fire start later there
  | ledgerReloaded {now : Engagement} {there : Scene ρ} {ledger : Ledger}
      (earlier : Course Permits fire start now there)
      (hload : Schema.ledger.parse? (Json.compact (Schema.ledger.write there.ledger)) =
        some ledger) :
      Course Permits fire start now ⟨there.host, ledger⟩
  | paused {now : Engagement} {there last : Scene ρ}
      (earlier : Course Permits fire start now there) (hpause : Interlude there last) :
      Course Permits fire start now last

/-- What `resume` does to the `firing` is what a run of its agenda does. -/
theorem resume_eq {firing later : Engagement} {timing : Timing} {scene last : Scene ρ}
    {result : Except Fault (List UnitId)} (h : firing.resume timing scene = (result, later, last)) :
    ∃ count, firing.agenda.run timing none scene = (count, later.agenda, last) ∧
      later.firstCasualty = firing.firstCasualty := by
  rcases hrun : firing.agenda.run timing none scene with ⟨count, agenda, after⟩
  simp only [resume, hrun, Prod.mk.injEq] at h
  obtain ⟨-, rfl, rfl⟩ := h
  exact ⟨count, rfl, rfl⟩

/-- What every attempt at a permitted step and every `Interlude` preserve holds over a course. -/
theorem Course.preserves {Permits : Timing → Step → Scene ρ → Prop} {Holds : Progress ρ → Prop}
    {fire : BattleFire} {start there : Scene ρ} {now : Engagement}
    (hattempt : ∀ timing step rest mid, Permits timing step mid → Holds ⟨step :: rest, mid⟩ →
      Holds (Progress.attempt timing ⟨step :: rest, mid⟩))
    (hpause : ∀ pending before after, Interlude before after → Holds ⟨pending, before⟩ →
      Holds ⟨pending, after⟩)
    (hstart : Holds ⟨[.plan (.battle fire)], start⟩)
    (h : Course Permits fire start now there) :
    (now.firstCasualty = none → now.agenda.pending = []) ∧ Holds (now.progress fire there) := by
  induction h with
  | planned => exact ⟨fun _ => rfl, hstart⟩
  | @fired now later there last result earlier timing fire' hfirst hpermits hfire ih =>
    -- Starting puts the plan where `progress` has it already.
    obtain ⟨hnew, hholds⟩ := ih
    obtain ⟨count, hrun, hsame⟩ := resume_eq hfire
    have hsome : later.firstCasualty ≠ none := by
      rw [hsame]
      exact started_firstCasualty now fire' there.ledger
    have hbegin : Holds ⟨(now.started fire' there.ledger).agenda.pending, there⟩ := by
      rw [started_pending there hfirst hnew]
      exact hholds
    have hend : Holds ⟨later.agenda.pending, last⟩ :=
      Agenda.run_preserves_permitted hattempt hpermits hbegin hrun
    refine ⟨fun hnone => absurd hnone hsome, ?_⟩
    cases hlater : later.firstCasualty with
    | none => exact absurd hlater hsome
    | some first => simpa [progress, hlater] using hend
  | @resumed now later there last result earlier timing hpermits hresume ih =>
    obtain ⟨hnew, hholds⟩ := ih
    obtain ⟨count, hrun, hsame⟩ := resume_eq hresume
    cases hnow : now.firstCasualty with
    | some first =>
      have hbegin : Holds ⟨now.agenda.pending, there⟩ := by simpa [progress, hnow] using hholds
      have hend : Holds ⟨later.agenda.pending, last⟩ :=
        Agenda.run_preserves_permitted hattempt hpermits hbegin hrun
      have hlater : later.firstCasualty = some first := hsame.trans hnow
      exact ⟨by simp [hlater], by simpa [progress, hlater] using hend⟩
    | none =>
      -- A firing that has not started has nothing to resume.
      have hlater : later.firstCasualty = none := hsame.trans hnow
      have hempty := hnew hnow
      rw [Agenda.run_of_pending_nil none hempty] at hrun
      simp only [Prod.mk.injEq] at hrun
      obtain ⟨-, hagenda, rfl⟩ := hrun
      have hpending : later.agenda.pending = [] := by
        rw [← hagenda]
        rfl
      refine ⟨fun _ => hpending, ?_⟩
      simpa [progress, hnow, hlater, hempty, hpending] using hholds
  | reloaded earlier hload ih =>
    rw [Schema.parse?_engagement] at hload
    split at hload
    · obtain rfl := Option.some.inj hload
      exact ih
    · simp at hload
  | ledgerReloaded earlier hload ih => exact ⟨ih.1, hpause _ _ _ (.loaded hload) ih.2⟩
  | paused earlier hbetween ih => exact ⟨ih.1, hpause _ _ _ hbetween ih.2⟩

/-- In its `Course`, a firing that has not started has nothing queued. -/
theorem Course.pending_of_none {Permits : Timing → Step → Scene ρ → Prop} {fire : BattleFire}
    {start there : Scene ρ} {now : Engagement} (h : Course Permits fire start now there) :
    now.firstCasualty = none → now.agenda.pending = [] :=
  (@preserves ρ _ Permits (fun _ => True) fire start there now (fun _ _ _ _ _ _ => trivial)
    (fun _ _ _ _ _ => trivial) trivial h).1

end Engagement

/-- Firings in a battle, each of which runs its `Course` to the end before the next one starts. -/
inductive Firings [RandomSource ρ] (Permits : Timing → Step → Scene ρ → Prop) :
    List BattleFire → Scene ρ → Scene ρ → Prop
  | none (scene : Scene ρ) : Firings Permits [] scene scene
  | next {fire : BattleFire} {fires : List BattleFire} {start mid last : Scene ρ}
      {firing : Engagement} (hcourse : Engagement.Course Permits fire start firing mid)
      (hfinished : firing.isFinished = true) (hrest : Firings Permits fires mid last) :
      Firings Permits (fire :: fires) start last

/-! ### A sortie over a gun -/

namespace Sortie

/-- The unit of the sortie, a bomber of the Reds that nothing has hit. -/
def bomber : BoardUnit := ⟨⟨1⟩, "Bomber", ⟨"Reds"⟩, 0, 4, true, none⟩

/-- A `bomber` over a gun that hits whatever it rolls. -/
def board : Board where
  unitTypes := [
    ⟨"Gun", 1, false, some ⟨"Flak", 6, none, -1, ["Bomber"], true, false⟩⟩,
    ⟨"Bomber", 1, false, none⟩]
  units := [bomber, ⟨⟨2⟩, "Gun", ⟨"Blues"⟩, 0, 0, false, none⟩]
  territories := [⟨"Fort", ⟨"Blues"⟩, [⟨1⟩, ⟨2⟩]⟩]

/-- The host of the sortie, with dice that show zero; nobody takes part if it is `headless`. -/
def host (headless : Bool) : Host ScriptedDice :=
  { board, player := ⟨"Reds"⟩, headless, dice := ⟨[0], 0⟩ }

/-- The way of the sortie, over the fort where the gun stands. -/
def route : Route := ⟨["Fort"], by simp⟩

/-- The firing when the `bomber` does not fly over but fights. -/
def volley : BattleFire where
  territory := "Fort"
  firingPlayer := ⟨"Blues"⟩
  hitPlayer := ⟨"Reds"⟩
  firingUnits := [⟨2⟩]
  targets := [⟨1⟩]
  defending := true

/-- The plan in which the dead are dealt with by this `Removal`. -/
def plan : Removal → Plan
  | .returnToHost => .overflight "Fort" [⟨1⟩]
  | .removeFromBoard => .battle volley

/-- The scene before the `plan`. In a battle the player who is hit can be reached. -/
def start (headless : Bool) : Removal → Scene ScriptedDice
  | .returnToHost => ⟨host headless, { player := ⟨"Reds"⟩, headless, targets := [⟨1⟩] }⟩
  | .removeFromBoard =>
      ⟨(host headless).connect ⟨"Reds"⟩ { address := "reds" }, { player := ⟨"Reds"⟩, headless }⟩

/-- The one group of the sortie, whose dead are dealt with by this `removal`. -/
def group (removal : Removal) : FiringGroup where
  territory := "Fort"
  kind := "Flak"
  firingPlayer := ⟨"Blues"⟩
  hitPlayer := ⟨"Reds"⟩
  firingUnits := [⟨2⟩]
  targets := [⟨1⟩]
  suicideOnHit := false
  removal

/-- The scene after the gun has rolled, with this `outcome`. -/
def rolled (headless : Bool) (removal : Removal) (outcome : Roll × ScriptedDice) :
    Scene ScriptedDice where
  host := { (start headless removal).host with dice := outcome.2 }
  ledger := { (plan removal).opened [group removal] (start headless removal).ledger with
    groups := [{
      id := ⟨0⟩
      group := group removal
      phase := .rolled
      activeFiring := [⟨2⟩]
      validTargets := [⟨1⟩]
      dice := some outcome.1 }] }

/-- The one die shows zero, which is a hit: the outcome of every roll of the sortie. -/
def outcome : Roll × ScriptedDice :=
  ({ hits := 1, sides := 6, dice := [⟨0, 6, true⟩] }, ⟨[0], 1⟩)

/-- What is left to do once the gun has `rolled`. -/
def left : List Step := [.stage .select ⟨0⟩, .stage .notify ⟨0⟩]

/-- The `plan` of the sortie comes to its one `group`. -/
theorem groupsOn_eq (headless : Bool) (removal : Removal) :
    (plan removal).groupsOn (start headless removal) = .ok [group removal] := by
  cases removal with
  | returnToHost =>
    show Except.ok (board.muster (board.overflightMuster ⟨"Reds"⟩
      ⟨"Fort", ⟨"Blues"⟩, [⟨1⟩, ⟨2⟩]⟩ "Fort" [⟨1⟩])) = _
    rw [Board.muster_singleton rfl rfl]
    rfl
  | removeFromBoard =>
    show Except.ok (board.muster (board.battleMuster volley [⟨1⟩])) = _
    rw [Board.muster_singleton rfl rfl]
    rfl

/-- Dice of which any number was `consumed` go on replaying the zero. -/
theorem fire_eq_of_consumed (consumed : Nat) :
    Roll.fire [⟨⟨2⟩, 6, -1⟩] 1 6 false "Roll Flak in Fort" (⟨[0], consumed⟩ : ScriptedDice) =
      (outcome.1, ⟨[0], consumed + 1⟩) := by
  have horder : Shooter.strongestFirst [⟨⟨2⟩, 6, -1⟩] = [⟨⟨2⟩, 6, -1⟩] :=
    List.mergeSort_singleton _
  have hdice : Shooter.allot [⟨⟨2⟩, 6, -1⟩] 1 = [6] := by
    rw [Shooter.allot, horder]
    rfl
  have hdraw : RandomSource.draw 6 1 "Roll Flak in Fort" (⟨[0], consumed⟩ : ScriptedDice) =
      ([0], ⟨[0], consumed + 1⟩) := by
    simp [RandomSource.draw, ScriptedDice.valueAt, Nat.mod_one]
  have hsides : max 6 1 = 6 := rfl
  simp only [Roll.fire, hdice, hsides, Roll.standard, List.length_singleton, hdraw]
  rfl

/-- The first roll of the sortie has this `outcome`. -/
theorem fire_eq :
    Roll.fire [⟨⟨2⟩, 6, -1⟩] 1 6 false "Roll Flak in Fort" (⟨[0], 0⟩ : ScriptedDice) = outcome :=
  fire_eq_of_consumed 0

/-- The scene after the fire was planned, before anything was `rolled`. -/
def planned (headless : Bool) (removal : Removal) : Scene ScriptedDice :=
  ⟨(start headless removal).host,
    (plan removal).opened [group removal] (start headless removal).ledger⟩

/-- The first step opens the `group`. -/
theorem perform_plan (headless : Bool) (removal : Removal) :
    (Step.perform {} (.plan (plan removal))).onScene (start headless removal) =
      (.ok (Step.allOf ⟨0⟩), planned headless removal) := by
  rw [Step.perform_plan_onScene, Plan.carryOut_onScene, groupsOn_eq]
  cases removal <;> rfl

/-- The second step is the roll, with its `outcome`. -/
theorem perform_roll (headless : Bool) (removal : Removal) :
    (Step.perform {} (.stage .roll ⟨0⟩)).onScene (planned headless removal) =
      (.ok [], rolled headless removal outcome) := by
  rw [← fire_eq, Step.perform_stage_onScene, Stage.perform]
  cases removal with
  | returnToHost =>
    rw [Engine.rollDice_onScene rfl rfl]
    rfl
  | removeFromBoard =>
    rw [Engine.rollDice_onScene rfl rfl]
    rfl

/-- The first two steps plan the fire and roll for it: they lead from `start` to `rolled`. -/
theorem advances (headless : Bool) (removal : Removal) :
    Advances {} 2 ⟨[.plan (plan removal)], start headless removal⟩
      ⟨left, rolled headless removal outcome⟩ :=
  .step (perform_plan headless removal) (.step (perform_roll headless removal) (.refl _))

/-! The sortie as a move. -/

/-- The move once it was prepared, with one `plan` to carry out. -/
def ready (headless : Bool) : Overflight where
  agenda := ⟨[.plan (plan .returnToHost)], none⟩
  ledger := (start headless .returnToHost).ledger

/-- The move once the gun has `rolled`. -/
def fired (headless : Bool) : Overflight where
  agenda := ⟨left, none⟩
  ledger := (rolled headless .returnToHost outcome).ledger

/-- To `prepare` the move of the sortie makes it `ready`. -/
theorem prepare_eq (headless : Bool) :
    Overflight.prepare {} (host headless) route [⟨1⟩] BoardUnit.leastMovementFirst =
      .ok (ready headless) := by
  have horder : Overflight.inOrder BoardUnit.leastMovementFirst [bomber] = [bomber] :=
    List.mergeSort_singleton _
  have hmoving : (host headless).board.findUnits [⟨1⟩] = .ok [bomber] := rfl
  have hfires : (host headless).board.firingTerritories (host headless).player route [⟨1⟩] =
      .ok ["Fort"] := rfl
  rw [Overflight.prepare_eq_ok rfl hfires hmoving horder]
  rfl

/-- Two steps of the `ready` move lead to the one that has `fired`. -/
theorem run_eq (headless : Bool) :
    (ready headless).run (some 2) (host headless) =
      (.ok 2, fired headless, (rolled headless .returnToHost outcome).host) := by
  have hadvances : Advances {} 2
      ⟨(ready headless).agenda.pending, ⟨host headless, (ready headless).ledger⟩⟩
      ⟨left, rolled headless .returnToHost outcome⟩ := advances headless .returnToHost
  have hreaches : Reaches (some 2) 2
      (Progress.mk left (rolled headless .returnToHost outcome)).pending := by simp [Reaches]
  have hrun := Agenda.run_eq_ok hadvances hreaches
  have htiming : (ready headless).timing = {} := rfl
  simp only [Overflight.run, htiming, hrun]
  rfl

/-- The scene after the move. The `bomber` is dead and still there. -/
def flown : Scene ScriptedDice :=
  ((Agenda.mk left none).run {} (some 2) (rolled true .returnToHost outcome)).2.2

/-- By `fireAlong` the sortie ends as `flown`, and it reports the bomber. -/
theorem fireAlong_eq :
    ({} : Overflight).fireAlong (host true) route [⟨1⟩] BoardUnit.leastMovementFirst {} =
      (.ok [⟨1⟩], ⟨{}, {}, flown.ledger⟩, ⟨some (undoReason "Flak")⟩, flown.host) := by
  have hflown : (Agenda.mk left none).run {} (some 2) (rolled true .returnToHost outcome) =
      (.ok 2, {}, flown) := rfl
  have hlast : Advances {} 2 ⟨left, rolled true .returnToHost outcome⟩ ⟨[], flown⟩ :=
    Agenda.advances_of_run hflown
  exact Overflight.fireAlong_of_advances (prepare_eq true)
    ((advances true .returnToHost).trans hlast)

/-! The sortie as a battle. -/

/-- Once it has rolled in a battle without casualties, the gun kills the `bomber`. -/
theorem fire_volley {before struck last : Scene ScriptedDice}
    (hroll : Advances {} 2 ⟨[.plan (plan .removeFromBoard)], before⟩ ⟨left, struck⟩)
    (hnone : before.ledger.casualties = [])
    (hlast : (Agenda.mk left none).run {} (some 2) struck = (.ok 2, {}, last))
    (hdead : last.ledger.casualties = [⟨1⟩]) :
    Engagement.fire {} {} volley before = (.ok [⟨1⟩], ⟨{}, some 0⟩, last) := by
  have hmore : Advances {} 2 ⟨left, struck⟩ ⟨[], last⟩ := Agenda.advances_of_run hlast
  have hreaches : Reaches none 4 (Progress.mk [] last).pending := rfl
  have hstarted : Advances {} 2
      ⟨(Engagement.started {} volley before.ledger).agenda.pending, before⟩ ⟨left, struck⟩ := hroll
  have hrun := Agenda.run_eq_ok (hstarted.trans hmore) hreaches
  rw [Engagement.fire, Engagement.resume, hrun]
  simp only [Except.map, Engagement.started, Engagement.killed, hnone, hdead]
  rfl

/-- The `volley` is a firing that ends with the bomber dead and off the board, whether somebody
    takes part or not. -/
theorem firings_volley {Permits : Timing → Step → Scene ScriptedDice → Prop} (headless : Bool)
    (hpermits : ∀ timing step scene, Permits timing step scene) :
    ∃ last, Firings Permits [volley] (start headless .removeFromBoard) last ∧
      last.ledger.casualties = [⟨1⟩] ∧ last.host.board.hasUnit ⟨1⟩ = false := by
  have hrest : ∃ last, (Agenda.mk left none).run {} (some 2)
      (rolled headless .removeFromBoard outcome) = (.ok 2, {}, last) ∧
        last.ledger.casualties = [⟨1⟩] ∧ last.host.board.hasUnit ⟨1⟩ = false := by
    cases headless with
    | true => exact ⟨_, rfl, rfl, rfl⟩
    | false => exact ⟨_, rfl, rfl, rfl⟩
  obtain ⟨last, hlast, hdead, hgone⟩ := hrest
  have hfire := fire_volley (advances headless .removeFromBoard) rfl hlast hdead
  refine ⟨last, ?_, hdead, hgone⟩
  exact .next (.fired .planned {} volley (fun _ => rfl) (fun _ _ _ => hpermits _ _ _) hfire) rfl
    (.none _)

end Sortie

end Flak
