import Flak.Proofs.Fire.Attendance
import Flak.Proofs.Fire.Course

namespace Flak

/-!
# Remote players do not decide the outcome

Two actions with the same input end alike, one with remote players who fail, are missed or are
waited for in vain, the other with nobody taking part:

* `Alike` — two scenes that agree on everything but who took part;
* `Unled` — conditions under which no step takes over a choice of the player who is hit;
* `Retraces` — an action has come, as far as it shows without attendance, to where attempts lead
  that are made without attendance;
* `outcome_alike` — moves and battles that end have ended alike.

The attempts that fail are lost on the way: in what is left without attendance they change nothing.
-/

variable {ρ : Type}

/-- The scenes `first` and `second` have the same game and the same action, up to who takes part,
    whether the firing players were told, and what is parked. -/
structure Alike (first second : Scene ρ) : Prop where
  board : first.host.board = second.host.board
  player : first.host.player = second.host.player
  dice : first.host.dice = second.host.dice
  history : first.host.history = second.host.history
  battle : first.ledger.battle = second.ledger.battle
  turn : first.ledger.player = second.ledger.player
  targets : first.ledger.targets = second.ledger.targets
  casualties : first.ledger.casualties = second.ledger.casualties
  cantUndo : first.ledger.cantUndo = second.ledger.cantUndo
  groups : first.ledger.groups.map GroupRecord.untold =
    second.ledger.groups.map GroupRecord.untold

/-- Scenes of which the same is left without attendance are `Alike`. -/
theorem Alike.of_unattended {first second : Scene ρ}
    (h : first.unattended = second.unattended) : Alike first second := by
  obtain ⟨hhost, hledger⟩ := Scene.mk.inj h
  simp only [Host.unattended, Host.mk.injEq] at hhost
  simp only [Ledger.unattended, Ledger.mk.injEq] at hledger
  obtain ⟨hboard, hplayer, -, hdice, -, hhistory, -⟩ := hhost
  obtain ⟨hbattle, hturn, -, hgroups, htargets, hcasualties, hcantUndo, -⟩ := hledger
  exact ⟨hboard, hplayer, hdice, hhistory, hbattle, hturn, htargets, hcasualties, hcantUndo,
    hgroups⟩

/-! ### Between the calls -/

/-- What happens between the calls, in an `Interlude`, leaves nothing behind. -/
theorem Interlude.unattended {before after : Scene ρ} (h : Interlude before after) :
    after.unattended = before.unattended := by
  obtain ⟨remotes, cancelled, cancelComing, hhost⟩ := h.host
  obtain ⟨parked, hledger⟩ := h.ledger
  simp only [Scene.unattended, hhost, hledger]
  rfl

/-! ### Preparing -/

/-- What is prepared for two hosts of which the same is left, by `prepare`, is alike. -/
theorem Overflight.prepare_unattended {fire fire' ready ready' : Overflight} {host quiet : Host ρ}
    {route : Route} {units : List UnitId} {ordering : BoardUnit → BoardUnit → Ordering}
    (hsame : quiet.unattended = host.unattended) (hnew : fire.agenda.isEmpty = true)
    (hnew' : fire'.agenda.isEmpty = true)
    (h : fire.prepare host route units ordering = .ok ready)
    (h' : fire'.prepare quiet route units ordering = .ok ready') :
    (ready.progress host).unattended = (ready'.progress quiet).unattended := by
  obtain ⟨territories, moving, hterritories, hmoving, -, hstart⟩ := prepare_ok hnew h
  obtain ⟨territories', moving', hterritories', hmoving', -, hstart'⟩ := prepare_ok hnew' h'
  have hhost := hsame
  simp only [Host.unattended, Host.mk.injEq] at hhost
  obtain ⟨hboard, hplayer, -⟩ := hhost
  rw [hboard, hplayer, hterritories] at hterritories'
  rw [hboard, hmoving] at hmoving'
  obtain rfl := Except.ok.inj hterritories'
  obtain rfl := Except.ok.inj hmoving'
  rw [hstart, hstart']
  simp only [Progress.unattended, Scene.unattended, hsame]
  simp [freshLedger, Ledger.unattended, hplayer]

/-! ### Without attendance the timing does not matter -/

variable [RandomSource ρ] {scene : Scene ρ}

section Headless

variable (timing timing' : Timing)

namespace Engine

/-- Nobody is asked by `chooseLosses` where nobody takes part, so that nobody's time is up. -/
theorem chooseLosses_headless (h : scene.ledger.headless = true) (record : GroupRecord)
    (id : GroupId) (roll : Roll) (targets : List Target) :
    (chooseLosses timing record id roll targets).onScene scene =
      (chooseLosses timing' record id roll targets).onScene scene := by
  have hnobody : ¬ (scene.host.board.rules.casualtyMode = .interactive ∧
      !scene.ledger.headless) := by simp [h]
  simp only [chooseLosses_onScene, if_neg hnobody]

/-- The `timing` does not matter to `selectCasualties` where nobody takes part. -/
theorem selectCasualties_headless (h : scene.ledger.headless = true) (id : GroupId) :
    (selectCasualties timing id).onScene scene =
      (selectCasualties timing' id).onScene scene := by
  cases hrecord : scene.ledger.record id with
  | error fault =>
    exact (perform_of_no_record .select hrecord).trans (perform_of_no_record .select hrecord).symm
  | ok record =>
    by_cases hphase : record.phase = .rolled
    · rw [selectCasualties_onScene timing hrecord hphase,
        selectCasualties_onScene timing' hrecord hphase]
      cases htargets : scene.host.board.targets record.validTargets with
      | error fault => rfl
      | ok targets =>
        -- Who is not asked does not keep anybody waiting.
        have hchoose := chooseLosses_headless timing timing' h record id (record.dice.getD {})
          targets
        dsimp only
        split
        · rfl
        · rw [onScene_bind, onScene_bind, hchoose]
    · rw [selectCasualties_onScene_not_due timing hrecord hphase,
        selectCasualties_onScene_not_due timing' hrecord hphase]

/-- Nor does it matter to any `stage`. -/
theorem perform_headless (h : scene.ledger.headless = true) (stage : Stage) (id : GroupId) :
    (stage.perform timing id).onScene scene = (stage.perform timing' id).onScene scene := by
  cases stage with
  | roll => rfl
  | select => exact selectCasualties_headless timing timing' h id
  | notify => rfl

end Engine

/-- Nor does it matter to any `step`. -/
theorem Step.perform_headless (h : scene.ledger.headless = true) (step : Step) :
    (step.perform timing).onScene scene = (step.perform timing').onScene scene := by
  cases step with
  | plan plan => rw [perform_plan_onScene, perform_plan_onScene]
  | stage stage id =>
    have hstage := Engine.perform_headless timing timing' h stage id
    rw [perform_stage_onScene, perform_stage_onScene, hstage]

/-- Nor does it matter to an `attempt` at the next step. -/
theorem Progress.attempt_headless {progress : Progress ρ}
    (h : progress.scene.ledger.headless = true) :
    attempt timing progress = attempt timing' progress := by
  obtain ⟨pending, scene⟩ := progress
  cases pending with
  | nil => rfl
  | cons step rest =>
    have hstep := Step.perform_headless timing timing' h step
    simp only [attempt, hstep]

end Headless

/-! ### Steps that take over no choice -/

/-- The game does not let players choose by its `rules`, or the `step` takes over no choice. -/
def Step.LeavesDefault (rules : Rules) (timing : Timing) (step : Step) (scene : Scene ρ) : Prop :=
  rules.chooseCasualties = false ∨ ¬ step.TakesChoice timing scene

/-- No step of the action that `Permits` allows takes over a choice. -/
def Unled (Permits : Timing → Step → Scene ρ → Prop) (origin : Scene ρ) : Prop :=
  ∀ timing step mid, Steady origin mid → Permits timing step mid → ¬ step.TakesChoice timing mid

/-- The rules stay what they are, so steps that leave the default are `Unled`. -/
theorem unled_of_leavesDefault (origin : Scene ρ) :
    Unled (Step.LeavesDefault origin.host.board.rules) origin := by
  intro timing step mid hsteady hpermits
  rcases hpermits with hoff | hnone
  · -- Without the rule, losses fall to the dice or to the order of the units.
    rintro ⟨_, _, _, _, _, _, _, _, _, _, _, hasked, _⟩
    have hmode := hasked.1
    rw [hsteady.rules, Rules.casualtyMode, hoff, if_neg Bool.false_ne_true] at hmode
    split at hmode
    · simp at hmode
    · simp at hmode
  · exact hnone

/-- Where nobody takes part, nobody is asked: every action is `Unled`. -/
theorem unled_of_headless {Permits : Timing → Step → Scene ρ → Prop} {origin : Scene ρ}
    (h : origin.ledger.headless = true) : Unled Permits origin := by
  rintro timing step mid hsteady - ⟨_, _, _, _, _, _, _, _, _, _, _, hasked, _⟩
  have hsomebody := hasked.2
  rw [hsteady.headless, h] at hsomebody
  simp at hsomebody

/-! ### Retracing an action without attendance -/

/-- The action has kept its rules, and without attendance some number of attempts leads from where
    it was at the `start` to where it is `now`. -/
structure Retraces (start now : Progress ρ) : Prop where
  steady : Steady start.scene now.scene
  attempts : ∃ count, now.unattended = (Progress.attempt {})^[count] start.unattended

namespace Retraces

variable {start now : Progress ρ}

/-- An action `Retraces` itself where nothing happens. -/
theorem refl (start : Progress ρ) : Retraces start start := ⟨.refl _, 0, rfl⟩

/-- An `attempt` that takes over no choice is lost without attendance, or it is one attempt more. -/
theorem attempt {step : Step} {rest : List Step} (timing : Timing)
    (hnone : ¬ step.TakesChoice timing scene) (h : Retraces start ⟨step :: rest, scene⟩) :
    Retraces start (Progress.attempt timing ⟨step :: rest, scene⟩) := by
  obtain ⟨hsteady, count, hcount⟩ := h
  refine ⟨hsteady.trans (Progress.attempt_steady timing step rest scene), ?_⟩
  rcases Progress.attempt_unattended rest hnone with hlost | hmore
  · exact ⟨count, hlost.trans hcount⟩
  · -- The timing of the attempt is not that of the others, which makes no difference there.
    refine ⟨count + 1, ?_⟩
    have htiming := Progress.attempt_headless timing {}
      (show (Progress.unattended ⟨step :: rest, scene⟩).scene.ledger.headless = true from rfl)
    rw [hmore, htiming, hcount, Function.iterate_succ_apply']

/-- An `Interlude` leaves the action where it retraces itself. -/
theorem interlude {pending : List Step} {before after : Scene ρ} (hpause : Interlude before after)
    (h : Retraces start ⟨pending, before⟩) : Retraces start ⟨pending, after⟩ := by
  refine ⟨h.steady.trans hpause.steady, ?_⟩
  obtain ⟨count, hcount⟩ := h.attempts
  refine ⟨count, ?_⟩
  rw [← hcount, Progress.unattended, hpause.unattended]
  rfl

/-- Two actions that `start` alike and have ended have ended alike: both are retraced. -/
theorem unique {start' now' : Progress ρ} (h : Retraces start now) (h' : Retraces start' now')
    (hstart : start.unattended = start'.unattended) (hend : now.pending = [])
    (hend' : now'.pending = []) : now.scene.unattended = now'.scene.unattended := by
  obtain ⟨count, hcount⟩ := h.attempts
  obtain ⟨count', hcount'⟩ := h'.attempts
  have hfirst : ((Progress.attempt {})^[count] start.unattended).pending = [] := by
    rw [← hcount]
    exact hend
  have hsecond : ((Progress.attempt {})^[count'] start.unattended).pending = [] := by
    rw [hstart, ← hcount']
    exact hend'
  have hsame := Progress.iterate_attempt_unique hfirst hsecond
  rw [hstart, ← hcount', ← hstart, ← hcount] at hsame
  exact congrArg Progress.scene hsame

end Retraces

/-! ### Moves -/

namespace Overflight

variable {Permits : Timing → Step → Scene ρ → Prop} {fire now : Overflight} {host there : Host ρ}
  {route : Route} {units : List UnitId} {ordering : BoardUnit → BoardUnit → Ordering}

/-- The `fire` at a move goes where it goes without attendance: its `Course` retraces. -/
theorem Course.retraces {ready : Overflight}
    (hready : fire.prepare host route units ordering = .ok ready)
    (hunled : Unled Permits ⟨host, ready.ledger⟩)
    (h : Course Permits fire host route units ordering now there) :
    Retraces (ready.progress host) (now.progress there) := by
  refine h.preserves ?_ ?_ ?_
  · intro timing step rest mid hpermits hcome
    exact hcome.attempt timing (hunled timing step mid hcome.steady hpermits)
  · exact fun pending before after hpause hcome => hcome.interlude hpause
  · intro ready' _ hready'
    obtain rfl := Except.ok.inj (hready.symm.trans hready')
    exact .refl _

end Overflight

/-! ### Battles -/

/-- A firing goes where it goes without attendance: its `Course` retraces. -/
theorem Engagement.Course.retraces {Permits : Timing → Step → Scene ρ → Prop} {fire : BattleFire}
    {origin start there : Scene ρ} {now : Engagement} (hunled : Unled Permits origin)
    (hsteady : Steady origin start) (h : Course Permits fire start now there) :
    Retraces ⟨[.plan (.battle fire)], start⟩ (now.progress fire there) := by
  refine (h.preserves ?_ ?_ (.refl _)).2
  · intro timing step rest mid hpermits hcome
    exact hcome.attempt timing (hunled timing step mid (hsteady.trans hcome.steady) hpermits)
  · exact fun pending before after hpause hcome => hcome.interlude hpause

/-- By `Firings`, what starts alike ends alike. -/
theorem Firings.unattended_eq {Permits Permits' : Timing → Step → Scene ρ → Prop}
    {origin origin' : Scene ρ} (hunled : Unled Permits origin) (hunled' : Unled Permits' origin')
    {fires : List BattleFire} {start last quiet last' : Scene ρ} (hsteady : Steady origin start)
    (hsteady' : Steady origin' quiet) (hsame : quiet.unattended = start.unattended)
    (h : Firings Permits fires start last) (h' : Firings Permits' fires quiet last') :
    last.unattended = last'.unattended := by
  -- The scenes between two firings differ, so that both starts have to vary.
  induction h generalizing quiet with
  | none => cases h'; exact hsame.symm
  | @next fire fires start mid last firing hcourse hfinished hrest ih =>
    cases h' with
    | @next _ _ _ mid' _ firing' hcourse' hfinished' hrest' =>
      have hpath := hcourse.retraces hunled hsteady
      have hpath' := hcourse'.retraces hunled' hsteady'
      have hstart : Progress.unattended ⟨[.plan (.battle fire)], start⟩ =
          Progress.unattended ⟨[.plan (.battle fire)], quiet⟩ := by
        rw [Progress.unattended, hsame.symm]
        rfl
      have hmid : mid.unattended = mid'.unattended := hpath.unique hpath' hstart
        (Engagement.pending_of_isFinished fire mid hfinished)
        (Engagement.pending_of_isFinished fire mid' hfinished')
      exact ih (hsteady.trans hpath.steady) (hsteady'.trans hpath'.steady) hmid.symm hrest'

/-! ### The outcome -/

/-- Whatever remote players do, as long as no choice of theirs is taken over: the fire at a move
    that ends, and `Firings` in a battle that end, end as they do without attendance. -/
theorem outcome_alike :
    (∀ (fire fire' now now' : Overflight) (host quiet there there' : Host ρ) (route : Route)
        (units : List UnitId) (ordering : BoardUnit → BoardUnit → Ordering),
      quiet.headless = true → quiet.unattended = host.unattended →
      Overflight.Course (Step.LeavesDefault host.board.rules) fire host route units ordering
        now there →
      Overflight.Course Step.Unrestricted fire' quiet route units ordering now' there' →
      now.agenda.isEmpty = true → now'.agenda.isEmpty = true →
      Alike ⟨there, now.ledger⟩ ⟨there', now'.ledger⟩) ∧
    ∀ (fires : List BattleFire) (start quiet last last' : Scene ρ),
      quiet.ledger.headless = true → quiet.unattended = start.unattended →
      Firings (Step.LeavesDefault start.host.board.rules) fires start last →
      Firings Step.Unrestricted fires quiet last' → Alike last last' := by
  constructor
  · intro fire fire' now now' host quiet there there' route units ordering hquiet hsame hcourse
      hcourse' hend hend'
    obtain ⟨ready, hnew, hready⟩ := hcourse.exists_prepared
    obtain ⟨ready', hnew', hready'⟩ := hcourse'.exists_prepared
    have hheadless : ready'.ledger.headless = true :=
      (Overflight.prepare_headless hnew' hready').trans hquiet
    have hpath := hcourse.retraces hready (unled_of_leavesDefault _)
    have hpath' := hcourse'.retraces hready' (unled_of_headless hheadless)
    have hstart := Overflight.prepare_unattended hsame hnew hnew' hready hready'
    exact .of_unattended (hpath.unique hpath' hstart (Overflight.pending_of_isEmpty there hend)
      (Overflight.pending_of_isEmpty there' hend'))
  · intro fires start quiet last last' hquiet hsame hfirings hfirings'
    exact .of_unattended (Firings.unattended_eq (unled_of_leavesDefault start)
      (unled_of_headless hquiet) (.refl start) (.refl quiet) hsame hfirings hfirings')

/-- A `Sortie` whose notice finds nobody at first and is sent again when the player who was hit is
    there, and a battle in which that player is told at once. -/
theorem outcome_alike_retried :
    (∃ (now now' : Overflight) (there there' : Host ScriptedDice),
      now.ledger.casualties = [⟨1⟩] ∧ Alike ⟨there, now.ledger⟩ ⟨there', now'.ledger⟩) ∧
    ∃ last last' : Scene ScriptedDice, last.ledger.casualties = [⟨1⟩] ∧ Alike last last' := by
  -- The Reds come in between two calls, after the gun has rolled.
  have hreds {now : Overflight} {there : Host ScriptedDice}
      (h : Overflight.Course (Step.LeavesDefault Sortie.board.rules) {} (Sortie.host false)
        Sortie.route [⟨1⟩] BoardUnit.leastMovementFirst now there) :
      Overflight.Course (Step.LeavesDefault Sortie.board.rules) {} (Sortie.host false) Sortie.route
        [⟨1⟩] BoardUnit.leastMovementFirst now (there.connect ⟨"Reds"⟩ { address := "reds" }) := by
    have hpause : Interlude ⟨there, now.ledger⟩
        ⟨there.connect ⟨"Reds"⟩ { address := "reds" }, now.ledger⟩ := ⟨⟨_, _, _, rfl⟩, ⟨_, rfl⟩⟩
    exact .paused h hpause
  constructor
  · have hcourse := hreds (.ran (.ran (.prepared rfl (Sortie.prepare_eq false)) (some 2)
      (fun _ _ _ => .inl rfl) (Sortie.run_eq false)) (some 2) (fun _ _ _ => .inl rfl) rfl)
    have hended := hcourse.ran (some 1) (fun _ _ _ => .inl rfl) rfl
    have hquiet : Overflight.Course Step.Unrestricted {} (Sortie.host true) Sortie.route [⟨1⟩]
        BoardUnit.leastMovementFirst _ _ :=
      .ran (.ran (.prepared rfl (Sortie.prepare_eq true)) (some 2) (fun _ _ _ => trivial)
        (Sortie.run_eq true)) (some 2) (fun _ _ _ => trivial) rfl
    exact ⟨_, _, _, _, rfl, outcome_alike.1 {} {} _ _ (Sortie.host false) (Sortie.host true) _ _ _ _
      _ rfl rfl hended hquiet rfl rfl⟩
  · have hpermits : ∀ (timing : Timing) (step : Step) (scene : Scene ScriptedDice),
        step.LeavesDefault Sortie.board.rules timing scene := fun _ _ _ => .inl rfl
    have hunrestricted : ∀ (timing : Timing) (step : Step) (scene : Scene ScriptedDice),
        step.Unrestricted timing scene := fun _ _ _ => trivial
    obtain ⟨last, hfirings, hcasualties, -⟩ := Sortie.firings_volley false hpermits
    obtain ⟨last', hquiet, -⟩ := Sortie.firings_volley true hunrestricted
    exact ⟨last, last', hcasualties, outcome_alike.2 [Sortie.volley]
      (Sortie.start false .removeFromBoard) (Sortie.start true .removeFromBoard) last last' rfl rfl
      hfirings hquiet⟩

end Flak
