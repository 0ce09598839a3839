import Flak.Proofs.Fire.Course

namespace Flak

/-!
# Agendas run depth first

An agenda is flat, but what a step queues comes before all that was queued earlier. So the steps
that come of a step form a tree, and a run goes through it depth first:

* `Agenda.Queued`, `Agenda.Executor.Queues` — steps that do nothing to an agenda but queue others;
* `Agenda.Executor.noting` — notes which steps a run has executed, and what each of them queued;
* `Agenda.depthFirst` — the recursive run that the agenda stands for;
* `Agenda.Unfolds`, `Forest` — what came of a list of steps, in order and as a forest;
* `Agenda.Calls` — any number of calls that run an agenda, whatever their outcomes;
* `Agenda.runs_depth_first` — such calls go through one forest depth first, each where the one
  before has stopped.
-/

namespace Agenda

variable {σ γ ε : Type}

/-! ### Steps that queue others -/

/-- What calls of `push` and `pushAll` make of an agenda, and the steps they queue, in the order in
    which these run. -/
inductive Queued : List σ → Agenda σ → Agenda σ → Prop
  | none (agenda : Agenda σ) : Queued [] agenda agenda
  | push {steps : List σ} {before after : Agenda σ} (step : σ) (h : Queued steps before after) :
      Queued (step :: steps) before (after.push step)
  | pushAll {steps : List σ} {before after : Agenda σ} (more : List σ)
      (h : Queued steps before after) : Queued (more ++ steps) before (after.pushAll more)

/-- Steps that do nothing to the agenda but queue others, as `Queued` says, and nothing at all if
    they fail. -/
structure Executor.Queues (exec : Executor σ γ ε) : Prop where
  of_ok : ∀ {step : σ} {before after : Agenda σ} {world there : γ},
    exec step before world = (.ok (), after, there) → ∃ steps, Queued steps before after
  of_error : ∀ {step : σ} {before after : Agenda σ} {world there : γ} {e : ε},
    exec step before world = (.error e, after, there) → after = before

/-- The steps that have come on the agenda `after` in front of those on the one `before`. -/
def added (before after : Agenda σ) : List σ :=
  after.queued.take (after.queued.length - before.queued.length)

/-- What `pushAll` has `added` are its steps. -/
theorem added_pushAll (steps : List σ) (agenda : Agenda σ) :
    added agenda (agenda.pushAll steps) = steps := by
  simp [added, pushAll]

/-- Any calls of `push` and `pushAll` queue as one `pushAll` of the steps would. -/
theorem Queued.eq_pushAll {steps : List σ} {before after : Agenda σ}
    (h : Queued steps before after) : after = before.pushAll steps := by
  induction h with
  | none agenda => rfl
  | push step _ ih =>
    rw [ih]
    rfl
  | pushAll more _ ih =>
    rw [ih]
    simp [Agenda.pushAll]

/-- What has been `added` in front is what was queued. -/
theorem Queued.added_eq {steps : List σ} {before after : Agenda σ}
    (h : Queued steps before after) : added before after = steps := by
  rw [h.eq_pushAll, added_pushAll]

/-- A `step` that was executed, and what it `queued`. -/
structure Visit (σ : Type) where
  step : σ
  queued : List σ
  deriving DecidableEq

/-- The `step` before it has been executed: nothing is queued by it yet. -/
def Visit.toCome (step : σ) : Visit σ := ⟨step, []⟩

/-- Executes steps by `exec` and notes a `Visit` for each that succeeds. -/
def Executor.noting (exec : Executor σ γ ε) : Executor σ (γ × List (Visit σ)) ε :=
  fun step before world =>
    match exec step before world.1 with
    | (.error e, after, there) => (.error e, after, there, world.2)
    | (.ok (), after, there) => (.ok (), after, there, world.2 ++ [⟨step, added before after⟩])

end Agenda

/-- The steps of an action queue what comes of them, and nothing if they fail: `Step.execute` is one
    that `Queues`. -/
theorem Step.execute_queues {ρ : Type} [RandomSource ρ] (timing : Timing) :
    (Step.execute timing : Agenda.Executor Step (Scene ρ) Fault).Queues where
  of_ok := by
    intro step before after world there h
    simp only [Step.execute] at h
    rcases hstep : (step.perform timing).onScene world with ⟨fault | next, last⟩
    · simp [hstep] at h
    · simp only [hstep, Prod.mk.injEq] at h
      obtain ⟨-, rfl, rfl⟩ := h
      have hqueued := Agenda.Queued.pushAll next (.none before)
      exact ⟨_, hqueued⟩
  of_error := by
    intro step before after world there fault h
    simp only [Step.execute] at h
    rcases hstep : (step.perform timing).onScene world with ⟨fault' | next, last⟩
    · simp only [hstep, Prod.mk.injEq] at h
      exact h.2.1.symm
    · simp [hstep] at h

namespace Agenda

variable {σ γ ε : Type}

/-! ### Running depth first -/

/-- What a depth-first run has come to: the steps `visited`, and those that are `left`. -/
structure Descent (σ γ ε : Type) where
  /-- The steps that were executed. -/
  visited : List (Visit σ)
  /-- What is left, next step first. -/
  left : List σ
  world : γ
  /-- Why the step that is first among those left has failed, if it has. -/
  fault : Option ε

namespace Descent

/-- Goes on with the `others`, unless a step has failed. -/
def andThen (first : Descent σ γ ε) (others : List σ) (run : Nat → γ → Descent σ γ ε) :
    Descent σ γ ε :=
  match first.fault with
  | some e => ⟨first.visited, first.left ++ others, first.world, some e⟩
  | none =>
      let second := run first.visited.length first.world
      ⟨first.visited ++ second.visited, first.left ++ second.left, second.world, second.fault⟩

/-- What a run has come to if a `visit` was made before it. -/
def after (visit : Visit σ) (descent : Descent σ γ ε) : Descent σ γ ε :=
  { descent with visited := visit :: descent.visited }

/-- What a call returns after this `descent`: the number of steps, or the fault. -/
def result (descent : Descent σ γ ε) : Except ε Nat :=
  match descent.fault with
  | some e => .error e
  | none => .ok descent.visited.length

/-- The agenda that a call leaves after this `descent`; a step that failed is remembered as the one
    that was running. -/
def agenda (descent : Descent σ γ ε) : Agenda σ :=
  match descent.fault with
  | some _ => ⟨descent.left.tail, descent.left.head?⟩
  | none => ⟨descent.left, none⟩

end Descent

/-- Runs at most `limit` steps: a step, then all that it queues and comes of that, and then its
    siblings. What is `below` comes after them all. -/
def depthFirst (exec : Executor σ γ ε) (limit : Nat) (steps below : List σ) (world : γ) :
    Descent σ γ ε :=
  match limit, steps with
  | 0, steps => ⟨[], steps, world, none⟩
  | _ + 1, [] => ⟨[], [], world, none⟩
  | limit + 1, step :: siblings =>
      let before : Agenda σ := ⟨siblings ++ below, some step⟩
      match exec step before world with
      | (.error e, _, there) => ⟨[], step :: siblings, there, some e⟩
      | (.ok (), after, there) =>
          let children := added before after
          let descent := depthFirst exec limit children (siblings ++ below) there
          (descent.andThen siblings fun spent world =>
            depthFirst exec (limit - spent) siblings below world).after ⟨step, children⟩
termination_by limit

section DepthFirst

variable {exec : Executor σ γ ε}

/-- It does not matter how what follows a `Descent` is put together with `andThen`. -/
theorem Descent.andThen_assoc (first : Descent σ γ ε) (others more : List σ)
    (run next : Nat → γ → Descent σ γ ε) :
    (first.andThen others run).andThen more next =
      first.andThen (others ++ more) fun spent world =>
        (run spent world).andThen more fun further world => next (spent + further) world := by
  rcases first with ⟨visited, left, world, _ | e⟩
  · rcases hsecond : run visited.length world with ⟨visited', left', world', _ | e⟩ <;>
      simp [andThen, hsecond]
  · simp [andThen]

/-- A `visit` before a run is one before the run and all that follows it. -/
theorem Descent.after_andThen (visit : Visit σ) (first : Descent σ γ ε) (others : List σ)
    (run : Nat → γ → Descent σ γ ε) :
    (first.after visit).andThen others run =
      (first.andThen others fun spent world => run (spent + 1) world).after visit := by
  rcases first with ⟨visited, left, world, _ | e⟩ <;> simp [andThen, after]

/-- A run of no steps leaves everything as it is: `depthFirst` at limit zero. -/
theorem depthFirst_zero (steps below : List σ) (world : γ) :
    depthFirst exec 0 steps below world = ⟨[], steps, world, none⟩ := by
  rw [depthFirst]

/-- Where there are no steps, `depthFirst` does nothing. -/
theorem depthFirst_nil (limit : Nat) (below : List σ) (world : γ) :
    depthFirst exec limit [] below world = ⟨[], [], world, none⟩ := by
  cases limit <;> rw [depthFirst]

/-- A `step` that fails ends the run and is left in front of its siblings. -/
theorem depthFirst_error {step : σ} {siblings below : List σ} {world there : γ} {e : ε}
    {later : Agenda σ}
    (h : exec step ⟨siblings ++ below, some step⟩ world = (.error e, later, there)) (limit : Nat) :
    depthFirst exec (limit + 1) (step :: siblings) below world =
      ⟨[], step :: siblings, there, some e⟩ := by
  simp only [depthFirst, h]

/-- A `step` that succeeds is visited; what it has queued runs next, and its siblings after that. -/
theorem depthFirst_ok {step : σ} {siblings below : List σ} {world there : γ} {later : Agenda σ}
    (h : exec step ⟨siblings ++ below, some step⟩ world = (.ok (), later, there)) (limit : Nat) :
    let children := added ⟨siblings ++ below, some step⟩ later
    depthFirst exec (limit + 1) (step :: siblings) below world =
      ((depthFirst exec limit children (siblings ++ below) there).andThen siblings
        fun spent world => depthFirst exec (limit - spent) siblings below world).after
          ⟨step, children⟩ := by
  simp only [depthFirst, h]

/-- The steps in `front` run to their end, with all that comes of them, before those at the
    `back`. -/
theorem depthFirst_append (exec : Executor σ γ ε) (limit : Nat) (front back below : List σ)
    (world : γ) :
    depthFirst exec limit (front ++ back) below world =
      (depthFirst exec limit front (back ++ below) world).andThen back fun spent world =>
        depthFirst exec (limit - spent) back below world := by
  -- What a step queues and its siblings run with lower limits.
  induction limit using Nat.strongRecOn generalizing front world with
  | _ limit ih =>
  cases limit with
  | zero => simp [depthFirst_zero, Descent.andThen]
  | succ limit =>
    cases front with
    | nil => simp [depthFirst_nil, Descent.andThen]
    | cons step rest =>
      rw [List.cons_append]
      rcases hstep : exec step ⟨rest ++ (back ++ below), some step⟩ world with ⟨e | u, later, there⟩
      · rw [depthFirst_error (List.append_assoc .. ▸ hstep), depthFirst_error hstep]
        simp [Descent.andThen]
      · rw [depthFirst_ok (List.append_assoc .. ▸ hstep), depthFirst_ok hstep,
          Descent.after_andThen, Descent.andThen_assoc, List.append_assoc]
        congr 2
        funext spent world
        rw [ih (limit - spent) (by omega) rest world]
        congr 1
        funext further world
        congr 1
        omega

/-- A `step` that succeeds leaves a run of what it has queued and of its `siblings`. -/
theorem depthFirst_cons {step : σ} {siblings below : List σ} {world there : γ} {later : Agenda σ}
    (h : exec step ⟨siblings ++ below, some step⟩ world = (.ok (), later, there)) (limit : Nat) :
    let children := added ⟨siblings ++ below, some step⟩ later
    depthFirst exec (limit + 1) (step :: siblings) below world =
      (depthFirst exec limit (children ++ siblings) below there).after ⟨step, children⟩ := by
  rw [depthFirst_ok h, ← depthFirst_append]

/-- A `depthFirst` run without a fault is as long as it may be, or nothing is left. -/
theorem length_depthFirst_le (exec : Executor σ γ ε) (limit : Nat) (steps below : List σ)
    (world : γ) :
    let descent := depthFirst exec limit steps below world
    descent.visited.length ≤ limit ∧
      (descent.fault = none → descent.visited.length < limit → descent.left = []) := by
  induction limit generalizing steps world with
  | zero => simp [depthFirst_zero]
  | succ limit ih =>
    cases steps with
    | nil => simp [depthFirst_nil]
    | cons step siblings =>
      rcases hstep : exec step ⟨siblings ++ below, some step⟩ world with ⟨e | u, later, there⟩
      · simp [depthFirst_error hstep]
      · obtain ⟨hle, hend⟩ := ih (added ⟨siblings ++ below, some step⟩ later ++ siblings) there
        rw [depthFirst_cons hstep]
        refine ⟨Nat.succ_le_succ hle, fun hfault hlt => hend hfault ?_⟩
        exact Nat.lt_of_succ_lt_succ hlt

end DepthFirst

/-! ### What came of a list of steps -/

/-- Steps of which these were executed, each a `Visit`, one after the other; each left what it
    queued in its place. -/
inductive Unfolds : List σ → List (Visit σ) → List σ → Prop
  | none (steps : List σ) : Unfolds steps [] steps
  | visit {step : σ} {queued rest left : List σ} {visits : List (Visit σ)}
      (others : Unfolds (queued ++ rest) visits left) :
      Unfolds (step :: rest) (⟨step, queued⟩ :: visits) left

namespace Unfolds

variable {start mid left front below : List σ} {visits more : List (Visit σ)}

/-- What `Unfolds` to some steps goes on with whatever these unfold to. -/
theorem trans (h : Unfolds start visits mid) (h' : Unfolds mid more left) :
    Unfolds start (visits ++ more) left := by
  induction h with
  | none => exact h'
  | visit _ ih => exact .visit (ih h')

/-- What comes of the steps in `front` is executed before all that is `below` them. -/
theorem append_cases (h : Unfolds (front ++ below) visits left) :
    (∃ rest, left = rest ++ below ∧ Unfolds front visits rest) ∨
      ∃ first second, visits = first ++ second ∧ Unfolds front first [] ∧
        Unfolds below second left := by
  generalize hstart : front ++ below = start at h
  induction h generalizing front with
  | none steps => exact .inl ⟨front, hstart.symm, .none front⟩
  | @visit step queued rest left visits others ih =>
    cases front with
    | nil =>
      obtain rfl : below = step :: rest := hstart
      exact .inr ⟨[], _, rfl, .none [], .visit others⟩
    | cons first others' =>
      obtain ⟨rfl, rfl⟩ := List.cons.inj hstart
      -- What a step in front has queued is in front as well.
      rcases ih (List.append_assoc queued others' below) with ⟨rest, hleft, hfront⟩ |
        ⟨before, after, rfl, hfront, hbelow⟩
      · exact .inl ⟨rest, hleft, .visit hfront⟩
      · exact .inr ⟨⟨first, queued⟩ :: before, after, rfl, .visit hfront, hbelow⟩

end Unfolds

/-- The steps that `depthFirst` runs and those that it leaves are one unfolding. -/
theorem depthFirst_unfolds (exec : Executor σ γ ε) (limit : Nat) (steps below : List σ)
    (world : γ) :
    let descent := depthFirst exec limit steps below world
    Unfolds steps descent.visited descent.left := by
  induction limit generalizing steps world with
  | zero =>
    rw [depthFirst_zero]
    exact .none steps
  | succ limit ih =>
    cases steps with
    | nil =>
      rw [depthFirst_nil]
      exact .none []
    | cons step siblings =>
      rcases hstep : exec step ⟨siblings ++ below, some step⟩ world with ⟨e | u, later, there⟩
      · rw [depthFirst_error hstep]
        exact .none _
      · rw [depthFirst_cons hstep]
        exact .visit (ih _ there)

end Agenda

/-- Steps in a row, each with the forest of the `children` that it queued. -/
inductive Forest (σ : Type) where
  | nil
  | cons (step : σ) (children siblings : Forest σ)

namespace Forest

variable {σ : Type}

/-- The steps in the first row of a `Forest`. -/
def roots : Forest σ → List σ
  | nil => []
  | cons step _ siblings => step :: siblings.roots

/-- All steps of a `Forest`, each with those it queued: a step comes before its children and these,
    with all that comes of them, before its siblings. -/
def preorder : Forest σ → List (Agenda.Visit σ)
  | nil => []
  | cons step children siblings =>
      ⟨step, children.roots⟩ :: (children.preorder ++ siblings.preorder)

/-- Steps that queued nothing, as a `Forest`. -/
def leaves : List σ → Forest σ
  | [] => nil
  | step :: rest => cons step nil (leaves rest)

/-- The roots of `leaves` are their steps. -/
@[simp] theorem roots_leaves (steps : List σ) : (leaves steps).roots = steps := by
  induction steps with
  | nil => rfl
  | cons step rest ih => simp [leaves, roots, ih]

/-- Of `leaves` all steps are still to come. -/
@[simp] theorem preorder_leaves (steps : List σ) :
    (leaves steps).preorder = steps.map Agenda.Visit.toCome := by
  induction steps with
  | nil => rfl
  | cons step rest ih => simp [leaves, preorder, roots, ih, Agenda.Visit.toCome]

/-- A `forest` can be divided between any two of its roots. -/
theorem exists_of_roots_eq_append {forest : Forest σ} {front below : List σ}
    (h : forest.roots = front ++ below) :
    ∃ first second : Forest σ, first.roots = front ∧ second.roots = below ∧
      forest.preorder = first.preorder ++ second.preorder := by
  induction front generalizing forest with
  | nil => exact ⟨nil, forest, rfl, h, rfl⟩
  | cons step front ih =>
    cases forest with
    | nil => simp [roots] at h
    | cons step' children siblings =>
      obtain ⟨rfl, hrest⟩ := List.cons.inj h
      obtain ⟨first, second, hfirst, hsecond, horder⟩ := ih hrest
      refine ⟨cons step' children first, second, ?_, hsecond, ?_⟩
      · simp [roots, hfirst]
      · simp [preorder, horder]

end Forest

namespace Agenda

variable {σ γ ε : Type}

/-- Whether what was executed, followed by what is `left`, is one `Forest` in depth-first order,
    with `start` as its roots. So every step of it has been executed once or is left, and none is
    left that comes before one that was executed. -/
def Explores (start : List σ) (visits : List (Visit σ)) (left : List σ) : Prop :=
  ∃ forest : Forest σ, forest.roots = start ∧ forest.preorder = visits ++ left.map Visit.toCome

/-- What `Unfolds` is a forest in depth-first order. -/
theorem Unfolds.explores {start left : List σ} {visits : List (Visit σ)}
    (h : Unfolds start visits left) : Explores start visits left := by
  induction h with
  | none steps => exact ⟨.leaves steps, by simp, by simp⟩
  | @visit step queued rest left visits _ ih =>
    -- The trees of what the step queued become its children, the others its siblings.
    obtain ⟨forest, hroots, horder⟩ := ih
    obtain ⟨children, siblings, hchildren, hsiblings, hsplit⟩ :=
      Forest.exists_of_roots_eq_append hroots
    refine ⟨.cons step children siblings, ?_, ?_⟩
    · rw [Forest.roots, hsiblings]
    · rw [Forest.preorder, hchildren, ← hsplit, horder, List.cons_append]

/-! ### Calls -/

/-- The steps pending after a `descent` are those it has left. -/
theorem Descent.pending_agenda (descent : Descent σ γ ε) :
    descent.agenda.pending = descent.left := by
  rcases descent with ⟨visited, left, world, _ | e⟩
  · rfl
  · cases left <;> rfl

/-- A run that is `noting` does what a run without notes does, and its notes come behind those in
    the `log`. -/
theorem runQueued_noting (exec : Executor σ γ ε) (done limit : Nat) (agenda : Agenda σ) (world : γ)
    (log : List (Visit σ)) :
    let run := runQueued exec.noting done limit agenda (world, log)
    runQueued exec done limit agenda world = (run.1, run.2.1, run.2.2.1) := by
  induction limit generalizing done agenda world log with
  | zero => rfl
  | succ limit ih =>
    rcases agenda with ⟨_ | ⟨step, rest⟩, current⟩
    · rfl
    · rcases hstep : exec step ⟨rest, some step⟩ world with ⟨e | u, later, there⟩
      · simp only [runQueued, Executor.noting, hstep]
      · simp only [runQueued, Executor.noting, hstep]
        exact ih _ _ _ _

/-- A run of `queued` steps is the `depthFirst` run of them. -/
theorem runQueued_noting_eq {exec : Executor σ γ ε} (hexec : exec.Queues) (done limit : Nat)
    (queued : List σ) (world : γ) (log : List (Visit σ)) :
    let descent := depthFirst exec limit queued [] world
    runQueued exec.noting done limit ⟨queued, none⟩ (world, log) =
      (descent.result.map (done + ·), descent.agenda, descent.world, log ++ descent.visited) := by
  induction limit generalizing done queued world log with
  | zero => simp [depthFirst_zero, runQueued, Descent.result, Descent.agenda, Except.map]
  | succ limit ih =>
    cases queued with
    | nil => simp [depthFirst_nil, runQueued, Descent.result, Descent.agenda, Except.map]
    | cons step rest =>
      rcases hstep : exec step ⟨rest, some step⟩ world with ⟨e | u, later, there⟩
      · obtain rfl := hexec.of_error hstep
        -- A call has nothing below the steps that are queued.
        rw [depthFirst_error (by rwa [List.append_nil])]
        simp [runQueued, Executor.noting, hstep, Descent.result, Descent.agenda, Except.map]
      · obtain ⟨steps, hsteps⟩ := hexec.of_ok hstep
        rw [depthFirst_cons (by rwa [List.append_nil]), List.append_nil, hsteps.added_eq]
        have hadded := hsteps.added_eq
        obtain rfl := hsteps.eq_pushAll
        simp only [pushAll] at hadded
        simp only [runQueued, Executor.noting, hstep, pushAll, hadded, ih]
        rcases depthFirst exec limit (steps ++ rest) [] there with ⟨visited, left, last, _ | e⟩
        · have hcount : done + 1 + visited.length = done + (visited.length + 1) := by omega
          simp [Descent.result, Descent.agenda, Descent.after, Except.map, hcount]
        · simp [Descent.result, Descent.agenda, Descent.after, Except.map]

/-- A call of `runSteps` is the `depthFirst` run of what is pending. -/
theorem runSteps_noting_eq {exec : Executor σ γ ε} (hexec : exec.Queues) (limit : Nat)
    (agenda : Agenda σ) (world : γ) :
    let descent := depthFirst exec limit agenda.pending [] world
    agenda.runSteps exec.noting limit (world, []) =
      (descent.result, descent.agenda, descent.world, descent.visited) := by
  rw [runSteps, restored, runQueued_noting_eq hexec]
  rcases depthFirst exec limit agenda.pending [] world with ⟨visited, left, last, _ | e⟩ <;>
    simp [Descent.result, Except.map]

/-- Steps that were counted before add to the count of `runQueued`. -/
theorem runQueued_add_done (exec : Executor σ γ ε) (done counted limit : Nat) (agenda : Agenda σ)
    (world : γ) :
    runQueued exec (done + counted) limit agenda world =
      Prod.map (Except.map (done + ·)) id (runQueued exec counted limit agenda world) := by
  induction limit generalizing counted agenda world with
  | zero => rfl
  | succ limit ih =>
    rcases agenda with ⟨_ | ⟨step, rest⟩, current⟩
    · rfl
    · rcases hstep : exec step ⟨rest, some step⟩ world with ⟨e | u, later, there⟩
      · simp [runQueued, hstep, Except.map]
      · simp only [runQueued, hstep]
        exact ih (counted + 1) _ _

/-- A run of `runQueued` that succeeds may be cut in two. -/
theorem runQueued_add {exec : Executor σ γ ε} {few done count : Nat} {agenda mid : Agenda σ}
    {world there : γ} (hcurrent : agenda.current = none)
    (h : runQueued exec done few agenda world = (.ok count, mid, there)) (more : Nat) :
    mid.current = none ∧
      runQueued exec done (few + more) agenda world = runQueued exec count more mid there := by
  induction few generalizing done agenda world with
  | zero =>
    simp only [runQueued, Prod.mk.injEq, Except.ok.injEq] at h
    obtain ⟨rfl, rfl, rfl⟩ := h
    exact ⟨hcurrent, by rw [Nat.zero_add]⟩
  | succ few ih =>
    rcases agenda with ⟨_ | ⟨step, rest⟩, current⟩
    · -- Nothing is left for either run.
      simp only [runQueued, Prod.mk.injEq, Except.ok.injEq] at h
      obtain ⟨rfl, rfl, rfl⟩ := h
      refine ⟨hcurrent, ?_⟩
      cases more <;> simp [runQueued]
    · rcases hstep : exec step ⟨rest, some step⟩ world with ⟨e | u, later, after⟩
      · simp [runQueued, hstep] at h
      · simp only [runQueued, hstep] at h
        obtain ⟨hmid, hrun⟩ := ih rfl h
        refine ⟨hmid, ?_⟩
        rw [Nat.add_right_comm]
        simpa only [runQueued, hstep] using hrun

/-- A step that fails in `runQueued` is left where it was, remembered as the one that was
    running. -/
theorem runQueued_error {exec : Executor σ γ ε} (hexec : exec.Queues) {done limit : Nat}
    {agenda later : Agenda σ} {world there : γ} {e : ε}
    (h : runQueued exec done limit agenda world = (.error e, later, there)) :
    ∃ step rest before, later = ⟨rest, some step⟩ ∧
      exec step later before = (.error e, later, there) := by
  induction limit generalizing done agenda world with
  | zero => simp [runQueued] at h
  | succ limit ih =>
    rcases agenda with ⟨_ | ⟨step, rest⟩, current⟩
    · simp [runQueued] at h
    · rcases hstep : exec step ⟨rest, some step⟩ world with ⟨fault | u, left, after⟩
      · simp only [runQueued, hstep, Prod.mk.injEq, Except.error.injEq] at h
        obtain ⟨rfl, rfl, rfl⟩ := h
        obtain rfl := hexec.of_error hstep
        exact ⟨step, rest, world, rfl, hstep⟩
      · simp only [runQueued, hstep] at h
        exact ih h

/-- Calls that run an agenda one after the other, each with its own `limit` and world, and whether
    they succeed or fail; and all the steps that succeeded in them. -/
inductive Calls (exec : Executor σ γ ε) (start : Agenda σ) : List (Visit σ) → Agenda σ → Prop
  | none : Calls exec start [] start
  | call {log more : List (Visit σ)} {before after : Agenda σ} {limit : Nat} {world there : γ}
      {result : Except ε Nat} (earlier : Calls exec start log before)
      (hcall : before.runSteps exec.noting limit (world, []) = (result, after, there, more)) :
      Calls exec start (log ++ more) after

/-- Over any number of `Calls`, the steps pending at the `start` unfold to those pending at last. -/
theorem Calls.unfolds {exec : Executor σ γ ε} (hexec : exec.Queues) {start last : Agenda σ}
    {log : List (Visit σ)} (h : Calls exec start log last) :
    Unfolds start.pending log last.pending := by
  induction h with
  | none => exact .none _
  | @call log more before after limit world there result _ hcall ih =>
    rw [runSteps_noting_eq hexec, Prod.mk.injEq, Prod.mk.injEq, Prod.mk.injEq] at hcall
    obtain ⟨-, rfl, -, rfl⟩ := hcall
    rw [Descent.pending_agenda]
    exact ih.trans (depthFirst_unfolds exec limit before.pending [] world)

/-- If steps do nothing to the `agenda` but queue others, a call runs it `depthFirst`: it executes
    the steps that the recursive run with its `limit` does, in the same order. A call that succeeds
    may be cut in two, and a step that fails is the next one to run. Over any number of `Calls`,
    what was executed and what is left make up one forest in depth-first order, and all that comes
    of the steps in front is executed before the steps below them. -/
theorem runs_depth_first {exec : Executor σ γ ε} (hexec : exec.Queues) :
    (∀ (limit : Nat) (agenda : Agenda σ) (world : γ),
      let descent := depthFirst exec limit agenda.pending [] world
      agenda.runSteps exec limit world = (descent.result, descent.agenda, descent.world) ∧
      agenda.runSteps exec.noting limit (world, []) =
        (descent.result, descent.agenda, descent.world, descent.visited) ∧
      descent.visited.length ≤ limit ∧
      (descent.fault = none → descent.visited.length < limit → descent.left = [])) ∧
    (∀ (few more : Nat) (agenda mid : Agenda σ) (world there : γ) (done : Nat),
      agenda.runSteps exec few world = (.ok done, mid, there) →
      agenda.runSteps exec (few + more) world =
        Prod.map (Except.map (done + ·)) id (mid.runSteps exec more there)) ∧
    (∀ (limit : Nat) (agenda later : Agenda σ) (world there : γ) (e : ε),
      agenda.runSteps exec limit world = (.error e, later, there) →
      ∃ step rest before, later.pending = step :: rest ∧
        exec step later before = (.error e, later, there)) ∧
    (∀ (start last : Agenda σ) (log : List (Visit σ)), Calls exec start log last →
      Explores start.pending log last.pending ∧
      ∀ front below, start.pending = front ++ below →
        (∃ left, last.pending = left ++ below ∧ Explores front log left) ∨
          ∃ first second, log = first ++ second ∧ Explores front first [] ∧
            Explores below second last.pending) := by
  refine ⟨?_, ?_, ?_, ?_⟩
  · intro limit agenda world
    have hnoting := runSteps_noting_eq hexec limit agenda world
    refine ⟨?_, hnoting, length_depthFirst_le exec limit agenda.pending [] world⟩
    -- What is noted on the side changes nothing.
    have hplain := runQueued_noting exec 0 limit agenda.restored world []
    rw [runSteps] at hnoting ⊢
    rw [hplain, hnoting]
  · intro few more agenda mid world there done h
    obtain ⟨hcurrent, hrun⟩ := runQueued_add rfl h more
    -- A call that succeeds leaves no current step, so the next one has none to put back.
    have hmid : mid.restored = mid := by
      rcases mid with ⟨queued, current⟩
      obtain rfl : current = none := hcurrent
      rfl
    rw [runSteps, hrun, runSteps, hmid]
    exact runQueued_add_done exec done 0 more mid there
  · intro limit agenda later world there e h
    obtain ⟨step, rest, before, rfl, hfailed⟩ := runQueued_error hexec h
    exact ⟨step, rest, before, rfl, hfailed⟩
  · intro start last log hcalls
    have hunfolds := hcalls.unfolds hexec
    refine ⟨hunfolds.explores, fun front below hstart => ?_⟩
    rw [hstart] at hunfolds
    -- Either the steps below have not been reached, or those in front are done.
    rcases hunfolds.append_cases with ⟨left, hleft, hfront⟩ | ⟨first, second, hlog, hfront, hbelow⟩
    · exact .inl ⟨left, hleft, hfront.explores⟩
    · exact .inr ⟨first, second, hlog, hfront.explores, hbelow.explores⟩

/-- A `Sortie` plans its fire and rolls; the selection and the notice that the plan has queued as
    well are left. -/
theorem runs_depth_first_sortie :
    (Step.execute {} : Executor Step (Scene ScriptedDice) Fault).Queues ∧
      ∃ visits, Calls (Step.execute {} : Executor Step (Scene ScriptedDice) Fault)
          ⟨[.plan (Sortie.plan .returnToHost)], none⟩ visits ⟨Sortie.left, none⟩ ∧
        visits = [⟨.plan (Sortie.plan .returnToHost), Step.allOf ⟨0⟩⟩, ⟨.stage .roll ⟨0⟩, []⟩] ∧
        Explores [.plan (Sortie.plan .returnToHost)] visits Sortie.left := by
  have hcall : (Agenda.mk [.plan (Sortie.plan .returnToHost)] none).runSteps
      (Step.execute {} : Executor Step (Scene ScriptedDice) Fault).noting 2
        (Sortie.start true .returnToHost, []) =
      (.ok 2, ⟨Sortie.left, none⟩, Sortie.rolled true .returnToHost Sortie.outcome,
        [⟨.plan (Sortie.plan .returnToHost), Step.allOf ⟨0⟩⟩, ⟨.stage .roll ⟨0⟩, []⟩]) := by
    have hplan := Sortie.perform_plan true .returnToHost
    have hroll := Sortie.perform_roll true .returnToHost
    simp only [runSteps, restored, pending, runQueued, Executor.noting, Step.execute,
      Option.toList, List.nil_append, hplan, pushAll, Step.allOf, List.cons_append, hroll]
    rfl
  have hcalls := Calls.none.call hcall
  have hqueues := (Step.execute_queues {} :
    (Step.execute {} : Executor Step (Scene ScriptedDice) Fault).Queues)
  exact ⟨hqueues, _, hcalls, rfl, ((runs_depth_first hqueues).2.2.2 _ _ _ hcalls).1⟩

end Agenda

end Flak
