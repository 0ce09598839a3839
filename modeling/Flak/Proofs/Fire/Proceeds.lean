import Flak.Proofs.Engine.Conversation
import Flak.Proofs.Fire.Course

namespace Flak

/-!
# How an action proceeds

Whatever calls there are, with whatever limits, an action proceeds by attempts at its next step.
Between two attempts remote players come and go, the ledger may be saved and loaded, and in a battle
the next firing is taken up:

* `Meanwhile`, `Lapse` — interludes that leave what is parked alone, or that may drop it;
* `Proceeds` — where attempts lead, with a count of those that succeeded;
* `Begins` — where an action begins;
* `Proceeds.preserves` — what attempts, interludes and turns preserve;
* `Proceeds.steady` — what none of them changes;
* `Agenda.run_proceeds`, `Overflight.run_proceeds` — so does every call proceed, and what it counts
  are the attempts that succeeded;
* `Overflight.Course.proceeds_from`, `Firings.proceeds_among` — so do the courses of an action.
-/

variable {ρ : Type}

/-! ### Between attempts -/

/-- An `Interlude` of a game that goes on running: parked requests stay, though their calls go
    on. -/
structure Meanwhile (before after : Scene ρ) : Prop extends Interlude before after where
  parked : ∀ key, after.ledger.question? key = before.ledger.question? key

/-- An `Interlude` in which parked requests stay or are dropped. -/
structure Lapse (before after : Scene ρ) : Prop extends Interlude before after where
  parked : ∀ key, after.ledger.question? key = before.ledger.question? key ∨
    after.ledger.question? key = none

/-- What happens `Meanwhile` may happen in a lapse. -/
theorem Meanwhile.lapse {before after : Scene ρ} (h : Meanwhile before after) :
    Lapse before after :=
  ⟨h.toInterlude, fun key => .inl (h.parked key)⟩

/-- A `ledger` that is saved and loaded, or copied, drops its requests, which is a `Lapse`. -/
theorem Lapse.reload (host : Host ρ) (ledger : Ledger) :
    Lapse ⟨host, ledger⟩ ⟨host, ledger.unparked⟩ := by
  refine ⟨.reload host ledger, fun key => .inr ?_⟩
  exact Ledger.question?_of_parked_eq_empty rfl key

/-- Nothing is to be done but what is left: there are no `Turns` at all. -/
def Stays (_ _ : List Step) : Prop := False

/-- When nothing is `left`, a firing in a battle is to be done. -/
def FiresNext (left next : List Step) : Prop :=
  left = [] ∧ ∃ fire, next = [.plan (.battle fire)]

/-- What only `Stays` has nothing else to fire next. -/
theorem Stays.firesNext (left next : List Step) (h : Stays left next) : FiresNext left next :=
  h.elim

/-- When nothing is `left`, one of these firings in a battle is to be done. -/
def FiresAmong (fires : List BattleFire) (left next : List Step) : Prop :=
  left = [] ∧ ∃ fire ∈ fires, next = [.plan (.battle fire)]

/-- One of certain `fires` is a firing in a battle. -/
theorem FiresAmong.firesNext {fires : List BattleFire} (left next : List Step)
    (h : FiresAmong fires left next) : FiresNext left next := by
  obtain ⟨hleft, fire, -, hnext⟩ := h
  exact ⟨hleft, fire, hnext⟩

/-- Anything may be to be done next: any `Turns` whatever. -/
def Freely (_ _ : List Step) : Prop := True

/-! ### Beginnings -/

/-- Where an action begins: a move that has just been prepared by `prepare`, or a battle without
    groups. -/
inductive Begins : Progress ρ → Prop
  | move {fire ready : Overflight} {host : Host ρ} {route : Route} {units : List UnitId}
      {ordering : BoardUnit → BoardUnit → Ordering} (hnew : fire.agenda.isEmpty = true)
      (hready : fire.prepare host route units ordering = .ok ready) :
      Begins (ready.progress host)
  | battle {scene : Scene ρ} (hgroups : scene.ledger.groups = [])
      (hcasualties : scene.ledger.casualties = []) (hparked : scene.ledger.parked = ∅) :
      Begins ⟨[], scene⟩

namespace Begins

variable {start : Progress ρ}

/-- At the beginning no group has been formed: where an action `Begins` there are none. -/
theorem groups (h : Begins start) : start.scene.ledger.groups = [] := by
  cases h with
  | move hnew hready =>
    obtain ⟨_, _, -, -, -, hstart⟩ := Overflight.prepare_ok hnew hready
    rw [hstart]
    rfl
  | battle hgroups _ _ => exact hgroups

/-- At the beginning nothing is parked: there is no `question?`. -/
theorem question? (h : Begins start) (key : RequestKey) :
    start.scene.ledger.question? key = none := by
  refine Ledger.question?_of_parked_eq_empty ?_ key
  cases h with
  | move hnew hready =>
    obtain ⟨_, _, -, -, -, hstart⟩ := Overflight.prepare_ok hnew hready
    rw [hstart]
    rfl
  | battle _ _ hparked => exact hparked

end Begins

/-! ### Proceeding -/

variable [RandomSource ρ]

/-- Where an action can have come from `start`, and with how many attempts that succeeded. `Pause`
    says what may happen between two attempts, `Turns` what may then be to be done instead of what
    is left. -/
inductive Proceeds (Pause : Scene ρ → Scene ρ → Prop) (Turns : List Step → List Step → Prop)
    (start : Progress ρ) : Nat → Progress ρ → Prop
  | here : Proceeds Pause Turns start 0 start
  | done {count : Nat} {timing : Timing} {step : Step} {rest next : List Step}
      {scene after : Scene ρ} (earlier : Proceeds Pause Turns start count ⟨step :: rest, scene⟩)
      (hdone : (step.perform timing).onScene scene = (.ok next, after)) :
      Proceeds Pause Turns start (count + 1) ⟨next ++ rest, after⟩
  | failed {count : Nat} {timing : Timing} {step : Step} {rest : List Step} {scene after : Scene ρ}
      {fault : Fault} (earlier : Proceeds Pause Turns start count ⟨step :: rest, scene⟩)
      (hfailed : (step.perform timing).onScene scene = (.error fault, after)) :
      Proceeds Pause Turns start count ⟨step :: rest, after⟩
  | paused {count : Nat} {pending : List Step} {before after : Scene ρ}
      (earlier : Proceeds Pause Turns start count ⟨pending, before⟩) (hpause : Pause before after) :
      Proceeds Pause Turns start count ⟨pending, after⟩
  | turned {count : Nat} {left next : List Step} {scene : Scene ρ}
      (earlier : Proceeds Pause Turns start count ⟨left, scene⟩) (hturn : Turns left next) :
      Proceeds Pause Turns start count ⟨next, scene⟩

variable {Pause Pause' : Scene ρ → Scene ρ → Prop} {Turns Turns' : List Step → List Step → Prop}

namespace Proceeds

variable {start mid last now : Progress ρ} {count more : Nat}

/-- What `Proceeds` to a place and from there to another proceeds to that. -/
theorem trans (h : Proceeds Pause Turns start count mid) (h' : Proceeds Pause Turns mid more last) :
    Proceeds Pause Turns start (count + more) last := by
  induction h' with
  | here => exact h
  | done _ hdone ih => exact .done ih hdone
  | failed _ hfailed ih => exact .failed ih hfailed
  | paused _ hpause ih => exact .paused ih hpause
  | turned _ hturn ih => exact .turned ih hturn

/-- What may happen in between may happen if more may: `Proceeds` is monotone in both. -/
theorem weaken (hpause : ∀ before after, Pause before after → Pause' before after)
    (hturn : ∀ left next, Turns left next → Turns' left next)
    (h : Proceeds Pause Turns start count now) : Proceeds Pause' Turns' start count now := by
  induction h with
  | here => exact .here
  | done _ hdone ih => exact .done ih hdone
  | failed _ hfailed ih => exact .failed ih hfailed
  | paused _ h ih => exact .paused ih (hpause _ _ h)
  | turned _ h ih => exact .turned ih (hturn _ _ h)

/-- However an action proceeds, it does so `Freely`. -/
theorem freely (h : Proceeds Pause Turns start count now) :
    Proceeds Pause Freely start count now :=
  h.weaken (fun _ _ hpause => hpause) fun _ _ _ => trivial

/-- An action whose turns are firings in a battle proceeds with any such firing: it `FiresNext`. -/
theorem firesNext (hturns : ∀ left next, Turns left next → FiresNext left next)
    (h : Proceeds Pause Turns start count now) : Proceeds Pause FiresNext start count now :=
  h.weaken (fun _ _ hpause => hpause) hturns

/-- Where parked requests may be dropped, in a `Lapse`, anything may become of them. -/
theorem interlude (h : Proceeds Lapse Turns start count now) :
    Proceeds Interlude Turns start count now :=
  h.weaken (fun _ _ hlapse => hlapse.toInterlude) fun _ _ hturn => hturn

/-- What every attempt on the way and all that happens in between preserve `Holds` wherever an
    action proceeds. -/
theorem preserves_on_way {Holds : Progress ρ → Prop} (hstart : Holds start)
    (hattempt : ∀ count timing step rest scene,
      Proceeds Pause Turns start count ⟨step :: rest, scene⟩ → Holds ⟨step :: rest, scene⟩ →
      Holds (Progress.attempt timing ⟨step :: rest, scene⟩))
    (hpause : ∀ pending before after, Pause before after → Holds ⟨pending, before⟩ →
      Holds ⟨pending, after⟩)
    (hturn : ∀ left next scene, Turns left next → Holds ⟨left, scene⟩ → Holds ⟨next, scene⟩)
    (h : Proceeds Pause Turns start count now) : Holds now := by
  induction h with
  | here => exact hstart
  | done earlier hdone ih => exact Progress.attempt_ok hdone _ ▸ hattempt _ _ _ _ _ earlier ih
  | failed earlier hfailed ih =>
    exact Progress.attempt_error hfailed _ ▸ hattempt _ _ _ _ _ earlier ih
  | paused _ h ih => exact hpause _ _ _ h ih
  | turned _ h ih => exact hturn _ _ _ h ih

/-- What every attempt and all that happens in between preserve `Holds` wherever an action
    proceeds. -/
theorem preserves {Holds : Progress ρ → Prop} (hstart : Holds start)
    (hattempt : ∀ timing step rest scene, Holds ⟨step :: rest, scene⟩ →
      Holds (Progress.attempt timing ⟨step :: rest, scene⟩))
    (hpause : ∀ pending before after, Pause before after → Holds ⟨pending, before⟩ →
      Holds ⟨pending, after⟩)
    (hturn : ∀ left next scene, Turns left next → Holds ⟨left, scene⟩ → Holds ⟨next, scene⟩)
    (h : Proceeds Pause Turns start count now) : Holds now :=
  h.preserves_on_way hstart (fun _ timing step rest scene _ => hattempt timing step rest scene)
    hpause hturn

/-- However an action `Proceeds`, the rules stay and it stays the same action. -/
theorem steady (h : Proceeds Interlude Turns start count now) :
    Steady start.scene now.scene := by
  refine @preserves ρ _ Interlude Turns start now count (fun progress =>
    Steady start.scene progress.scene) (.refl _) ?_ ?_ ?_ h
  · intro timing step rest scene hsteady
    exact hsteady.trans (Progress.attempt_steady timing step rest scene)
  · exact fun pending before after hpause hsteady => hsteady.trans hpause.steady
  · exact fun left next scene _ hsteady => hsteady

end Proceeds

/-! ### Calls -/

/-- Steps that succeed are attempts that do: what `Advances` proceeds. -/
theorem Advances.proceeds {timing : Timing} {count : Nat} {first last : Progress ρ}
    (h : Advances timing count first last) : Proceeds Pause Turns first count last := by
  induction h with
  | refl progress => exact .here
  | step hdone _ ih =>
    rw [Nat.add_comm]
    exact (Proceeds.here.done hdone).trans ih

/-- A run `Proceeds`, and it counts the attempts that succeed. -/
theorem Agenda.run_proceeds {timing : Timing} {limit : Option Nat} {agenda agenda' : Agenda Step}
    {scene scene' : Scene ρ} {result : Except Fault Nat}
    (h : agenda.run timing limit scene = (result, agenda', scene')) :
    ∃ count, Proceeds Pause Turns ⟨agenda.pending, scene⟩ count ⟨agenda'.pending, scene'⟩ ∧
      ∀ done, result = .ok done → done = count := by
  cases result with
  | ok done =>
    obtain ⟨last, hadvances, -, rfl, rfl⟩ := run_ok h
    refine ⟨done, hadvances.proceeds, fun _ hdone => (Except.ok.inj hdone).symm⟩
  | error fault =>
    -- The attempt that fails comes last, and the step stays the next one.
    obtain ⟨count, step, rest, mid, hadvances, -, herror, rfl⟩ := run_error h
    exact ⟨count, hadvances.proceeds.failed herror, by simp⟩

/-- A run of the `fire` at a move proceeds, and it counts the attempts that succeed. -/
theorem Overflight.run_proceeds {fire later : Overflight} {limit : Option Nat} {host last : Host ρ}
    {result : Except Fault Nat} (h : fire.run limit host = (result, later, last)) :
    ∃ count, Proceeds Pause Turns (fire.progress host) count (later.progress last) ∧
      ∀ done, result = .ok done → done = count :=
  Agenda.run_proceeds (run_eq h)

/-! ### Courses -/

/-- An `attempt` at the next step leads on, whether it succeeds or not. -/
theorem Proceeds.attempt {start : Progress ρ} {count : Nat} {step : Step} {rest : List Step}
    {scene : Scene ρ} (timing : Timing)
    (h : Proceeds Pause Turns start count ⟨step :: rest, scene⟩) :
    ∃ count, Proceeds Pause Turns start count (Progress.attempt timing ⟨step :: rest, scene⟩) := by
  rcases hresult : (step.perform timing).onScene scene with ⟨fault | next, after⟩
  · rw [Progress.attempt_error hresult]
    exact ⟨count, h.failed hresult⟩
  · rw [Progress.attempt_ok hresult]
    exact ⟨count + 1, h.done hresult⟩

/-- In its `Course` the fire at a move proceeds from where it was prepared. -/
theorem Overflight.Course.proceeds_from {Permits : Timing → Step → Scene ρ → Prop}
    {fire ready now : Overflight} {host there : Host ρ} {route : Route} {units : List UnitId}
    {ordering : BoardUnit → BoardUnit → Ordering}
    (hready : fire.prepare host route units ordering = .ok ready)
    (h : Course Permits fire host route units ordering now there) :
    ∃ count, Proceeds Interlude Stays (ready.progress host) count (now.progress there) := by
  refine @preserves ρ _ Permits (fun progress => ∃ count,
    Proceeds Interlude Stays (ready.progress host) count progress) _ _ _ _ _ _ _ ?_ ?_ ?_ h
  · rintro timing step rest mid - ⟨count, hmid⟩
    exact hmid.attempt timing
  · rintro pending before after hpause ⟨count, hbefore⟩
    exact ⟨count, hbefore.paused hpause⟩
  · intro ready' _ hready'
    obtain rfl := Except.ok.inj (hready.symm.trans hready')
    exact ⟨0, .here⟩

/-- In its `Course` the fire at a move proceeds from some beginning. -/
theorem Overflight.Course.proceeds {Permits : Timing → Step → Scene ρ → Prop}
    {fire now : Overflight} {host there : Host ρ} {route : Route} {units : List UnitId}
    {ordering : BoardUnit → BoardUnit → Ordering}
    (h : Course Permits fire host route units ordering now there) :
    ∃ start count, Begins start ∧ Proceeds Interlude Stays start count (now.progress there) := by
  obtain ⟨ready, hnew, hready⟩ := h.exists_prepared
  obtain ⟨count, hproceeds⟩ := h.proceeds_from hready
  exact ⟨_, count, .move hnew hready, hproceeds⟩

/-- In its `Course` a firing in a battle proceeds from where nothing was left to do. -/
theorem Engagement.Course.proceeds_among {Permits : Timing → Step → Scene ρ → Prop}
    {fire : BattleFire} {fires : List BattleFire} (hfire : fire ∈ fires) {start there : Scene ρ}
    {now : Engagement} (h : Course Permits fire start now there) :
    ∃ count, Proceeds Interlude (FiresAmong fires) ⟨[], start⟩ count (now.progress fire there) := by
  refine (@preserves ρ _ Permits (fun progress =>
    ∃ count, Proceeds Interlude (FiresAmong fires) ⟨[], start⟩ count progress)
    _ _ _ _ ?_ ?_ ?_ h).2
  · rintro timing step rest mid - ⟨count, hmid⟩
    exact hmid.attempt timing
  · rintro pending before after hpause ⟨count, hbefore⟩
    exact ⟨count, hbefore.paused hpause⟩
  · exact ⟨0, .turned .here ⟨rfl, fire, hfire, rfl⟩⟩

/-- So do `Firings` one after the other. -/
theorem Firings.proceeds_among {Permits : Timing → Step → Scene ρ → Prop}
    {fires all : List BattleFire} (hfires : ∀ fire ∈ fires, fire ∈ all) {start last : Scene ρ}
    (h : Firings Permits fires start last) :
    ∃ count, Proceeds Interlude (FiresAmong all) ⟨[], start⟩ count ⟨[], last⟩ := by
  induction h with
  | none => exact ⟨0, .here⟩
  | @next fire fires start mid last firing hcourse hfinished hrest ih =>
    obtain ⟨count, hfiring⟩ := hcourse.proceeds_among (hfires fire List.mem_cons_self)
    obtain ⟨more, hothers⟩ := ih fun other hother => hfires other (List.mem_cons_of_mem fire hother)
    have hend : firing.progress fire mid = ⟨[], mid⟩ :=
      congrArg (Progress.mk · mid) (Engagement.pending_of_isFinished fire mid hfinished)
    rw [hend] at hfiring
    exact ⟨count + more, hfiring.trans hothers⟩

/-- Over `Firings` an action proceeds, one firing after the other. -/
theorem Firings.proceeds {Permits : Timing → Step → Scene ρ → Prop} {fires : List BattleFire}
    {start last : Scene ρ} (h : Firings Permits fires start last) :
    ∃ count, Proceeds Interlude FiresNext ⟨[], start⟩ count ⟨[], last⟩ := by
  obtain ⟨count, hproceeds⟩ := h.proceeds_among fun _ hfire => hfire
  exact ⟨count, hproceeds.firesNext FiresAmong.firesNext⟩

end Flak
