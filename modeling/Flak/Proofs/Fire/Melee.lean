import Flak.Proofs.Fire.Additions
import Mathlib

namespace Flak

/-!
# Firings that share a ledger

Several firings of a battle share a ledger, and calls of one may come between the calls of another.
A firing does not know whom it has killed; it knows how many casualties there were when it started.

* `Melee`, `Melee.Course` — firings, the groups that each has opened, and what can become of them;
* `Ledger.Grown` — what a call makes of the ledger that all of them share;
* `Melee.Kept`, `Melee.Course.kept` — what holds of the firings at any time;
* `Melee.reported_since` — a firing reports whoever has died since it started, by whichever firing;
* `Melee.not_reported_own` — which are not always those whom it has killed.
-/

/-- Firings of a battle, each under a name. -/
structure Melee (ι ρ : Type) where
  firing : ι → Engagement
  /-- The groups that a firing has opened. -/
  opened : ι → List GroupId
  /-- What all firings work on. -/
  scene : Scene ρ

variable {ι ρ : Type}

/-! ### Courses -/

/-- The groups of a ledger, as it is `after`, that were not there `before`. -/
def Ledger.groupsSince (before after : Ledger) : List GroupId :=
  (List.range' before.groups.length (after.groups.length - before.groups.length)).map GroupId.mk

/-- Groups since `before` are told by their position. -/
theorem Ledger.mem_groupsSince {before after : Ledger} {id : GroupId} :
    id ∈ groupsSince before after ↔
      before.groups.length ≤ id.index ∧ id.index < after.groups.length := by
  unfold groupsSince
  rw [List.mem_map]
  constructor
  · rintro ⟨index, hindex, rfl⟩
    rw [List.mem_range'_1] at hindex
    show before.groups.length ≤ index ∧ index < after.groups.length
    omega
  · intro h
    refine ⟨id.index, ?_, rfl⟩
    rw [List.mem_range'_1]
    omega

namespace Melee

/-- Firings on a `scene` that have not started. -/
def unstarted (scene : Scene ρ) : Melee ι ρ := ⟨fun _ => {}, fun _ => [], scene⟩

variable [DecidableEq ι]

/-- With another `firing` under the `name`. -/
def withFiring (melee : Melee ι ρ) (name : ι) (firing : Engagement) : Melee ι ρ :=
  { melee with firing := Function.update melee.firing name firing }

/-- After a call of the firing `name`, which is `later` then. The groups that are new are its
    own. -/
def called (melee : Melee ι ρ) (name : ι) (later : Engagement) (last : Scene ρ) : Melee ι ρ where
  firing := Function.update melee.firing name later
  opened := Function.update melee.opened name
    (melee.opened name ++ melee.scene.ledger.groupsSince last.ledger)
  scene := last

section Calls

variable {melee : Melee ι ρ} {name other : ι} {firing later : Engagement} {last : Scene ρ}

/-- Under its `name` is the `firing` that was put there. -/
theorem firing_withFiring_self : (melee.withFiring name firing).firing name = firing :=
  Function.update_self _ _ _

/-- Under any `other` name is what was there. -/
theorem firing_withFiring_of_ne (h : other ≠ name) :
    (melee.withFiring name firing).firing other = melee.firing other :=
  Function.update_of_ne h _ _

/-- To put a `firing` where it is changes nothing. -/
theorem withFiring_eq_self (h : firing = melee.firing name) :
    melee.withFiring name firing = melee := by
  unfold withFiring
  rw [h, Function.update_eq_self]

/-- A firing that was `called` is what it is then. -/
theorem firing_called_self : (melee.called name later last).firing name = later :=
  Function.update_self _ _ _

/-- Any `other` firing is what it was. -/
theorem firing_called_of_ne (h : other ≠ name) :
    (melee.called name later last).firing other = melee.firing other :=
  Function.update_of_ne h _ _

/-- It does not matter what the `firing` was before it is `called`. -/
theorem called_withFiring :
    (melee.withFiring name firing).called name later last = melee.called name later last := by
  unfold called withFiring
  rw [Function.update_idem]

/-- Firings that had `opened` a group still have, and what is new was opened in the call. -/
theorem mem_opened_called {id : GroupId} :
    id ∈ (melee.called name later last).opened other ↔ id ∈ melee.opened other ∨
      other = name ∧ id ∈ melee.scene.ledger.groupsSince last.ledger := by
  show id ∈ Function.update melee.opened name _ other ↔ _
  by_cases h : other = name
  · subst h
    rw [Function.update_self, List.mem_append]
    simp
  · rw [Function.update_of_ne h]
    simp [h]

/-- A call does not change the `firstCasualty` of any firing. -/
theorem firstCasualty_called (last : Scene ρ) (other : ι)
    (h : later.firstCasualty = (melee.firing name).firstCasualty) :
    ((melee.called name later last).firing other).firstCasualty =
      (melee.firing other).firstCasualty := by
  by_cases heq : other = name
  · subst heq
    rw [firing_called_self, h]
  · rw [firing_called_of_ne heq]

end Calls

variable [RandomSource ρ]

/-- What can become of firings on a scene. They are called in any order, and any of the calls may
    fail; in between, firings and ledger are saved and loaded. -/
inductive Course (start : Scene ρ) : Melee ι ρ → Prop
  | unstarted : Course start (unstarted start)
  | fired {melee : Melee ι ρ} {later : Engagement} {last : Scene ρ}
      {result : Except Fault (List UnitId)} (earlier : Course start melee) (name : ι)
      (timing : Timing) (fire : BattleFire)
      (hfire : (melee.firing name).fire timing fire melee.scene = (result, later, last)) :
      Course start (melee.called name later last)
  | resumed {melee : Melee ι ρ} {later : Engagement} {last : Scene ρ}
      {result : Except Fault (List UnitId)} (earlier : Course start melee) (name : ι)
      (timing : Timing)
      (hresume : (melee.firing name).resume timing melee.scene = (result, later, last)) :
      Course start (melee.called name later last)
  | reloaded {melee : Melee ι ρ} {later : Engagement} (earlier : Course start melee) (name : ι)
      (hload : Schema.engagement.parse?
        (Json.compact (Schema.engagement.write (melee.firing name))) = some later) :
      Course start (melee.withFiring name later)
  | ledgerReloaded {melee : Melee ι ρ} {ledger : Ledger} (earlier : Course start melee)
      (hload : Schema.ledger.parse? (Json.compact (Schema.ledger.write melee.scene.ledger)) =
        some ledger) :
      Course start { melee with scene := ⟨melee.scene.host, ledger⟩ }
  | paused {melee : Melee ι ρ} {last : Scene ρ} (earlier : Course start melee)
      (hpause : Interlude melee.scene last) : Course start { melee with scene := last }

end Melee

/-! ### What a call makes of the ledger -/

/-- A ledger that has grown since `before`: the casualties that were there come first, the groups
    that were there stay, and nobody whom a new group may hit was a casualty before. -/
structure Ledger.Grown (before after : Ledger) : Prop where
  casualties : before.casualties <+: after.casualties
  length : before.groups.length ≤ after.groups.length
  group : ∀ (index : Nat) (is : GroupRecord), index < before.groups.length →
    after.groups[index]? = some is →
      ∃ was, before.groups[index]? = some was ∧ is.group = was.group
  alive : ∀ (index : Nat) (is : GroupRecord), before.groups.length ≤ index →
    after.groups[index]? = some is → ∀ unit ∈ is.group.targets, unit ∉ before.casualties

namespace Ledger.Grown

/-- A `ledger` has grown from itself. -/
theorem refl (ledger : Ledger) : Grown ledger ledger where
  casualties := List.prefix_rfl
  length := Nat.le_refl _
  group _ is _ his := ⟨is, his, rfl⟩
  alive index is hle his := by
    rw [List.getElem?_eq_none hle] at his
    simp at his

variable [RandomSource ρ] {before : Ledger} {scene : Scene ρ}

/-- By an `attempt` a ledger grows. -/
theorem attempt {step : Step} {rest : List Step} (timing : Timing)
    (h : Grown before scene.ledger) :
    Grown before (Progress.attempt timing ⟨step :: rest, scene⟩).scene.ledger where
  casualties := h.casualties.trans (Progress.casualties_grow timing step rest scene)
  length := Nat.le_trans h.length (Progress.length_le_attempt timing step rest scene)
  group index is hlt his := by
    rcases Progress.record_of_attempt his with ⟨hnone, -⟩ | ⟨mid, hmid, hchange⟩
    · have := List.getElem?_eq_none_iff.1 hnone
      have := h.length
      omega
    · obtain ⟨was, hwas, hgroup⟩ := h.group index mid hlt hmid
      exact ⟨was, hwas, hchange.group.trans hgroup⟩
  alive index is hle his unit hunit hdead := by
    rcases Progress.record_of_attempt his with ⟨hnone, -⟩ | ⟨mid, hmid, hchange⟩
    · obtain ⟨plan, groups, rfl, hgroups, hgroup⟩ := Progress.exists_plan_of_fresh hnone his
      exact Plan.alive_of_groupsOn hgroups hgroup unit hunit (h.casualties.subset hdead)
    · exact h.alive index mid hle hmid unit (hchange.group ▸ hunit) hdead

end Ledger.Grown

/-- A call of `resume` that succeeds returns what the firing reports from then on. -/
theorem Engagement.killed_of_resume [RandomSource ρ] {firing later : Engagement} {timing : Timing}
    {scene last : Scene ρ} {dead : List UnitId}
    (h : firing.resume timing scene = (.ok dead, later, last)) :
    dead = later.killed last.ledger := by
  rcases hrun : firing.agenda.run timing none scene with ⟨count, agenda, after⟩
  simp only [resume, hrun, Prod.mk.injEq] at h
  obtain ⟨hresult, rfl, rfl⟩ := h
  obtain ⟨_, -, hdead⟩ := Fault.exists_of_map hresult
  exact hdead.symm

/-! ### Firings at any time -/

namespace Melee

/-- The casualties that the firing `name` found when it started; if it has not started, all there
    are. -/
def known (melee : Melee ι ρ) (name : ι) : List UnitId :=
  match (melee.firing name).firstCasualty with
  | some first => melee.scene.ledger.casualties.take first
  | none => melee.scene.ledger.casualties

/-- The units that the firing `name` says it has killed, by `Engagement.killed`. -/
def reported (melee : Melee ι ρ) (name : ι) : List UnitId :=
  (melee.firing name).killed melee.scene.ledger

/-- The units that the firing `name` has killed: those on record as killed by the groups that it
    opened. -/
def killedBy (melee : Melee ι ρ) (name : ι) : List UnitId :=
  (melee.opened name).flatMap fun id =>
    ((melee.scene.ledger.groups[id.index]?).map GroupRecord.killed).getD []

/-- Whoever was `killedBy` a firing is on record with a group that it opened. -/
theorem mem_killedBy {melee : Melee ι ρ} {name : ι} {unit : UnitId} :
    unit ∈ melee.killedBy name ↔ ∃ id ∈ melee.opened name, ∃ record,
      melee.scene.ledger.groups[id.index]? = some record ∧ unit ∈ record.killed := by
  unfold killedBy
  rw [List.mem_flatMap]
  refine exists_congr fun id => and_congr_right fun _ => ?_
  cases melee.scene.ledger.groups[id.index]? <;> simp

/-- What holds of firings that add to a ledger since `start`. A firing has its first casualty within
    the list, nothing to do and no groups before it has started, and no group that may hit a unit
    which was dead when it started. Each group that is new was opened by one of them. -/
structure Kept (start : Ledger) (melee : Melee ι ρ) : Prop where
  adds : ∀ name, Adds start ⟨(melee.firing name).agenda.pending, melee.scene⟩
  unstarted : ∀ name, (melee.firing name).firstCasualty = none →
    (melee.firing name).agenda = {} ∧ melee.opened name = []
  first : ∀ name first, (melee.firing name).firstCasualty = some first →
    start.casualties.length ≤ first ∧ first ≤ melee.scene.ledger.casualties.length
  new : ∀ name, ∀ id ∈ melee.opened name,
    start.groups.length ≤ id.index ∧ id.index < melee.scene.ledger.groups.length
  owned : ∀ id : GroupId, start.groups.length ≤ id.index →
    id.index < melee.scene.ledger.groups.length → ∃ name, id ∈ melee.opened name
  aimed : ∀ name, ∀ id ∈ melee.opened name, ∀ record,
    melee.scene.ledger.groups[id.index]? = some record →
      ∀ unit ∈ record.group.targets, unit ∉ melee.known name

/-- Whoever was `known` was there. -/
theorem known_subset {melee : Melee ι ρ} {name : ι} :
    melee.known name ⊆ melee.scene.ledger.casualties := by
  unfold known
  split
  · exact List.take_subset _ _
  · exact List.Subset.refl _

variable [DecidableEq ι]

namespace Kept

variable {start : Ledger} {melee : Melee ι ρ} {name other : ι} {later : Engagement}
  {last : Scene ρ}

omit [DecidableEq ι] in
/-- Firings that have not started keep to what holds of them. -/
theorem of_unstarted (scene : Scene ρ) :
    Kept scene.ledger (Melee.unstarted scene : Melee ι ρ) where
  adds _ := .of_plans (by simp [Melee.unstarted, Agenda.pending]) scene
  unstarted _ _ := ⟨rfl, rfl⟩
  first _ _ h := by simp [Melee.unstarted] at h
  new _ _ h := by simp [Melee.unstarted] at h
  owned id hle hlt := absurd hlt (Nat.not_lt_of_le hle)
  aimed _ _ h := by simp [Melee.unstarted] at h

omit [DecidableEq ι] in
/-- Between the calls, in an `Interlude`, only what is parked changes in the ledger. -/
theorem paused (h : Kept start melee) (hpause : Interlude melee.scene last) :
    Kept start { melee with scene := last } := by
  have hknown (name : ι) : known { melee with scene := last } name = melee.known name := by
    simp only [known, hpause.casualties]
  refine ⟨fun name => (h.adds name).interlude hpause, h.unstarted, ?_, ?_, ?_, ?_⟩
  · rw [hpause.casualties]
    exact h.first
  · rw [hpause.groups]
    exact h.new
  · rw [hpause.groups]
    exact h.owned
  · intro name
    rw [hknown, hpause.groups]
    exact h.aimed name

/-- A firing is `started` with the casualties that are there. -/
theorem started (h : Kept start melee) (name : ι) (fire : BattleFire) :
    Kept start
      (melee.withFiring name ((melee.firing name).started fire melee.scene.ledger)) := by
  cases hfirst : (melee.firing name).firstCasualty with
  | some first =>
    have hsame : (melee.firing name).started fire melee.scene.ledger = melee.firing name := by
      simp [Engagement.started, hfirst]
    rw [withFiring_eq_self hsame]
    exact h
  | none =>
    -- A firing that has not started has nothing to do and no groups, and all others are as they
    -- were.
    obtain ⟨hagenda, hopened⟩ := h.unstarted name hfirst
    have hstarted : (melee.firing name).started fire melee.scene.ledger =
        ⟨⟨[.plan (.battle fire)], none⟩, some melee.scene.ledger.casualties.length⟩ := by
      simp [Engagement.started, hfirst, hagenda, Agenda.push]
    have haccrued := (h.adds name).accrued
    rw [hstarted]
    refine ⟨fun other => ?_, fun other => ?_, fun other => ?_, h.new, h.owned, fun other => ?_⟩
    · by_cases heq : other = name
      · subst heq
        rw [firing_withFiring_self]
        exact ⟨by simp [Agenda.pending, Step.Spares], (h.adds other).sound, haccrued⟩
      · rw [firing_withFiring_of_ne heq]
        exact h.adds other
    · by_cases heq : other = name
      · subst heq
        rw [firing_withFiring_self]
        simp
      · rw [firing_withFiring_of_ne heq]
        exact h.unstarted other
    · by_cases heq : other = name
      · subst heq
        rw [firing_withFiring_self]
        rintro first ⟨⟩
        exact ⟨haccrued.casualties.length_le, Nat.le_refl _⟩
      · rw [firing_withFiring_of_ne heq]
        exact h.first other
    · by_cases heq : other = name
      · subst heq
        show ∀ id ∈ melee.opened other, _
        simp [hopened]
      · unfold known
        rw [firing_withFiring_of_ne heq]
        exact h.aimed other

variable [RandomSource ρ] {timing : Timing} {result : Except Fault Nat}

/-- A firing that has not started has nothing to `run`. -/
theorem called_eq_self (h : Kept start melee)
    (hnone : (melee.firing name).firstCasualty = none)
    (hfirst : later.firstCasualty = (melee.firing name).firstCasualty)
    (hrun : (melee.firing name).agenda.run timing none melee.scene =
      (result, later.agenda, last)) : melee.called name later last = melee := by
  obtain ⟨hagenda, -⟩ := h.unstarted name hnone
  have hempty : (melee.firing name).agenda.pending = [] := by
    rw [hagenda]
    rfl
  rw [Agenda.run_of_pending_nil none hempty] at hrun
  simp only [Prod.mk.injEq] at hrun
  obtain ⟨-, hlater, rfl⟩ := hrun
  have hsame : later = melee.firing name := by
    rcases later with ⟨agenda, first⟩
    subst hlater hfirst
    exact congrArg (Engagement.mk · (melee.firing name).firstCasualty) hagenda.symm
  have hnew : melee.scene.ledger.groupsSince melee.scene.ledger = [] := by
    simp [Ledger.groupsSince]
  unfold Melee.called
  rw [hsame, hnew, List.append_nil, Function.update_eq_self, Function.update_eq_self]

omit [RandomSource ρ] in
/-- A call does not change what is `known` to a firing that has started. -/
theorem known_called (h : Kept start melee)
    (hfirst : later.firstCasualty = (melee.firing name).firstCasualty)
    (hgrown : melee.scene.ledger.Grown last.ledger)
    (hsome : (melee.firing other).firstCasualty ≠ none) :
    (melee.called name later last).known other = melee.known other := by
  obtain ⟨first, hsome⟩ := Option.ne_none_iff_exists'.1 hsome
  obtain ⟨more, hmore⟩ := hgrown.casualties
  have hlater := firstCasualty_called last other hfirst
  rw [hsome] at hlater
  simp only [known, hsome, hlater]
  show last.ledger.casualties.take first = _
  rw [← hmore, List.take_append_of_le_length (h.first other first hsome).2]

/-- What is left of a firing is run: it is `called`, and what holds is `Kept`. -/
theorem called (h : Kept start melee)
    (hfirst : later.firstCasualty = (melee.firing name).firstCasualty)
    (hrun : (melee.firing name).agenda.run timing none melee.scene =
      (result, later.agenda, last)) : Kept start (melee.called name later last) := by
  by_cases hnone : (melee.firing name).firstCasualty = none
  · rw [h.called_eq_self hnone hfirst hrun]
    exact h
  -- One run of the agenda keeps both: what it adds to the ledger at the start and to that of now.
  obtain ⟨hadds, hgrown⟩ : Adds start ⟨later.agenda.pending, last⟩ ∧
      melee.scene.ledger.Grown last.ledger := by
    refine @Agenda.run_preserves ρ _ timing none _ _ _ _ (fun progress =>
      Adds start progress ∧ melee.scene.ledger.Grown progress.scene.ledger) _ ?_
      ⟨h.adds name, .refl _⟩ hrun
    rintro step rest mid - ⟨hadds, hgrown⟩
    exact ⟨hadds.attempt timing, hgrown.attempt timing⟩
  have hsame (other : ι) := firstCasualty_called last other hfirst
  refine ⟨fun other => ?_, fun other hother => ?_, fun other first hother => ?_,
    fun other id hid => ?_, fun id hlow hhigh => ?_,
    fun other id hid record hrecord unit hunit => ?_⟩
  case refine_1 =>
    by_cases heq : other = name
    · subst heq
      rw [firing_called_self]
      exact hadds
    · rw [firing_called_of_ne heq]
      exact ⟨(h.adds other).spares, hadds.sound, hadds.accrued⟩
  case refine_2 =>
    rw [hsame] at hother
    have hne : other ≠ name := by
      rintro rfl
      exact hnone hother
    obtain ⟨hagenda, hopened⟩ := h.unstarted other hother
    rw [firing_called_of_ne hne]
    refine ⟨hagenda, ?_⟩
    show Function.update melee.opened name _ other = []
    rw [Function.update_of_ne hne, hopened]
  case refine_3 =>
    rw [hsame] at hother
    obtain ⟨hlow, hhigh⟩ := h.first other first hother
    exact ⟨hlow, Nat.le_trans hhigh hgrown.casualties.length_le⟩
  case refine_4 =>
    have hlength := hgrown.length
    have hstart : start.groups.length ≤ melee.scene.ledger.groups.length :=
      (h.adds name).accrued.length
    show _ ∧ id.index < last.ledger.groups.length
    -- A group that was open belongs to the firing that opened it; a new one to the firing called.
    rcases mem_opened_called.1 hid with hold | ⟨-, hnew⟩
    · have := h.new other id hold
      omega
    · rw [Ledger.mem_groupsSince] at hnew
      omega
  case refine_5 =>
    by_cases hlt : id.index < melee.scene.ledger.groups.length
    · obtain ⟨other, hold⟩ := h.owned id hlow hlt
      exact ⟨other, mem_opened_called.2 (.inl hold)⟩
    · have hnew := Ledger.mem_groupsSince.2 ⟨Nat.le_of_not_lt hlt, hhigh⟩
      exact ⟨name, mem_opened_called.2 (.inr ⟨rfl, hnew⟩)⟩
  case refine_6 =>
    rcases mem_opened_called.1 hid with hold | ⟨rfl, hnew⟩
    · have hsome : (melee.firing other).firstCasualty ≠ none := by
        intro hother
        simp [(h.unstarted other hother).2] at hold
      obtain ⟨was, hwas, hgroup⟩ := hgrown.group id.index record (h.new other id hold).2 hrecord
      rw [h.known_called hfirst hgrown hsome]
      exact h.aimed other id hold was hwas unit (hgroup ▸ hunit)
    · rw [h.known_called hfirst hgrown hnone]
      have hlow := (Ledger.mem_groupsSince.1 hnew).1
      exact fun hdead => hgrown.alive id.index record hlow hrecord unit hunit (known_subset hdead)

end Kept

variable [RandomSource ρ] {start : Scene ρ}

/-- Whatever is called when, in a `Course`, this holds. -/
theorem Course.kept {melee : Melee ι ρ} (h : Course start melee) : Kept start.ledger melee := by
  -- By induction on the course: a firing is started and run, or run on, and nothing else adds.
  induction h with
  | unstarted => exact .of_unstarted start
  | fired earlier name timing fire hfire ih =>
    obtain ⟨count, hrun, hfirst⟩ := Engagement.resume_eq hfire
    have hkept := ih.started name fire
    rw [← called_withFiring]
    refine @Kept.called _ _ _ _ _ name _ _ _ timing count hkept ?_ ?_
    · rw [firing_withFiring_self]
      exact hfirst
    · rw [firing_withFiring_self]
      exact hrun
  | resumed earlier name timing hresume ih =>
    obtain ⟨count, hrun, hfirst⟩ := Engagement.resume_eq hresume
    exact ih.called hfirst hrun
  | reloaded earlier name hload ih =>
    rw [Schema.parse?_engagement] at hload
    split at hload
    · rw [withFiring_eq_self (Option.some.inj hload).symm]
      exact ih
    · simp at hload
  | ledgerReloaded earlier hload ih => exact ih.paused (.loaded hload)
  | paused earlier hpause ih => exact ih.paused hpause

/-! ### Reports -/

namespace Kept

variable {start : Ledger} {melee : Melee ι ρ} {name : ι}

omit [DecidableEq ι] [RandomSource ρ]

/-- Whoever was `killedBy` a firing is a casualty, but none of those that it found when it
    started. -/
theorem mem_of_killedBy (h : Kept start melee) {unit : UnitId}
    (hunit : unit ∈ melee.killedBy name) :
    unit ∈ melee.scene.ledger.casualties ∧ unit ∉ melee.known name := by
  obtain ⟨id, hid, record, hrecord, hkilled⟩ := mem_killedBy.1 hunit
  have hlow : start.groups.length ≤ id.index := (h.new name id hid).1
  refine ⟨((h.adds name).accrued.dead unit).2 (.inr ⟨id.index, record, hlow, hrecord, hkilled⟩), ?_⟩
  have hsound := (h.adds name).sound id.index record hlow hrecord
  exact h.aimed name id hid record hrecord unit (hsound.targets_of_killed hkilled)

/-- Whoever has become a casualty was `killedBy` one of the firings. -/
theorem exists_killedBy (h : Kept start melee) (name : ι) {unit : UnitId}
    (hdead : unit ∈ melee.scene.ledger.casualties) (hnew : unit ∉ start.casualties) :
    ∃ other, unit ∈ melee.killedBy other := by
  rcases ((h.adds name).accrued.dead unit).1 hdead with hold | ⟨index, record, hlow, hrecord, hunit⟩
  · exact absurd hold hnew
  · have hlt := (List.getElem?_eq_some_iff.1 hrecord).1
    obtain ⟨other, hother⟩ := h.owned ⟨index⟩ hlow hlt
    exact ⟨other, mem_killedBy.2 ⟨⟨index⟩, hother, record, hrecord, hunit⟩⟩

/-- The casualties that were `known` to a firing come first, and those `reported` by it come after
    them. -/
theorem reported_eq (h : Kept start melee) (name : ι) :
    melee.scene.ledger.casualties = melee.known name ++ melee.reported name ∧
      (melee.reported name).Nodup ∧ (∀ unit ∈ melee.reported name, unit ∉ melee.known name) ∧
      start.casualties ⊆ melee.known name := by
  have hprolongs : Ledger.Prolongs start.casualties melee.scene.ledger.casualties :=
    (h.adds name).accrued.casualties
  unfold reported known Engagement.killed
  -- A firing that has not started reports nobody, and all that are dead were known.
  cases hfirst : (melee.firing name).firstCasualty with
  | none =>
    obtain ⟨added, hadded, -⟩ := hprolongs
    simp only [hadded]
    refine ⟨(List.append_nil _).symm, List.nodup_nil, by simp, List.subset_append_left _ _⟩
  | some first =>
    obtain ⟨hlow, -⟩ := h.first name first hfirst
    obtain ⟨hnodup, hnew⟩ := hprolongs.drop hlow
    refine ⟨(List.take_append_drop first _).symm, hnodup, hnew, fun unit hunit => ?_⟩
    obtain ⟨added, hadded, -⟩ := hprolongs
    show unit ∈ melee.scene.ledger.casualties.take first
    rw [hadded, List.take_append, List.take_of_length_le hlow]
    exact List.mem_append_left _ hunit

end Kept

/-- A firing reports whoever has died since it started, once each, by whichever firing. Those
    `killedBy` it are among them, and they are all just if no other firing has killed anybody else
    since. This is also what a call of `resume` that succeeds returns. -/
theorem reported_since {start : Scene ρ} {melee : Melee ι ρ} (h : Course start melee) (name : ι) :
    (∀ unit, unit ∈ melee.reported name ↔
      unit ∉ melee.known name ∧ ∃ other, unit ∈ melee.killedBy other) ∧
    (melee.reported name).Nodup ∧
    (∀ unit ∈ melee.killedBy name, unit ∈ melee.reported name) ∧
    ((∀ unit, unit ∈ melee.reported name ↔ unit ∈ melee.killedBy name) ↔
      ∀ other, ∀ unit ∈ melee.killedBy other,
        unit ∈ melee.known name ∨ unit ∈ melee.killedBy name) ∧
    (∀ timing fire dead later last,
      (melee.firing name).fire timing fire melee.scene = (.ok dead, later, last) →
        dead = (melee.called name later last).reported name) ∧
    ∀ timing dead later last,
      (melee.firing name).resume timing melee.scene = (.ok dead, later, last) →
        dead = (melee.called name later last).reported name := by
  have hkept := h.kept
  obtain ⟨hcasualties, hnodup, hnew, hstart⟩ := hkept.reported_eq name
  -- Who is dead was known to the firing or has been killed by one of them since.
  have hmem (unit : UnitId) : unit ∈ melee.reported name ↔
      unit ∉ melee.known name ∧ ∃ other, unit ∈ melee.killedBy other := by
    constructor
    · intro hunit
      have hdead : unit ∈ melee.scene.ledger.casualties := by
        rw [hcasualties]
        exact List.mem_append_right _ hunit
      have hunknown := hnew unit hunit
      exact ⟨hunknown, hkept.exists_killedBy name hdead fun hold => hunknown (hstart hold)⟩
    · rintro ⟨hunknown, other, hunit⟩
      have hdead := (hkept.mem_of_killedBy hunit).1
      rw [hcasualties] at hdead
      exact (List.mem_append.1 hdead).resolve_left hunknown
  have hown : ∀ unit ∈ melee.killedBy name, unit ∈ melee.reported name := fun unit hunit =>
    (hmem unit).2 ⟨(hkept.mem_of_killedBy hunit).2, name, hunit⟩
  have hresume {firing later : Engagement} {timing : Timing} {last : Scene ρ} {dead : List UnitId}
      (hcall : firing.resume timing melee.scene = (.ok dead, later, last)) :
      dead = (melee.called name later last).reported name := by
    unfold reported
    rw [firing_called_self]
    exact Engagement.killed_of_resume hcall
  refine ⟨hmem, hnodup, hown, ?_, fun _ _ _ _ _ hcall => hresume hcall,
    fun _ _ _ _ hcall => hresume hcall⟩
  constructor
  · intro hall other unit hunit
    by_cases hknown : unit ∈ melee.known name
    · exact .inl hknown
    · exact .inr ((hall unit).1 ((hmem unit).2 ⟨hknown, other, hunit⟩))
  · intro hothers unit
    refine ⟨fun hunit => ?_, hown unit⟩
    obtain ⟨hunknown, other, hkilled⟩ := (hmem unit).1 hunit
    exact (hothers other unit hkilled).resolve_left hunknown

end Melee

/-! ### Two firings at two bombers -/

namespace Skirmish

/-- A `board` with a second bomber over the gun of the sortie. -/
def board : Board :=
  { Sortie.board with
    units := Sortie.board.units ++ [{ Sortie.bomber with id := ⟨3⟩ }]
    territories := [⟨"Fort", ⟨"Blues"⟩, [⟨1⟩, ⟨2⟩, ⟨3⟩]⟩] }

/-- A scene of a battle in which nobody has fired. -/
def start : Scene ScriptedDice where
  host := { board, player := ⟨"Reds"⟩, headless := true, dice := ⟨[0], 0⟩ }
  ledger := { battle := ⟨1⟩, player := ⟨"Reds"⟩, headless := true }

/-- A firing at one of the bombers. -/
def volley (target : Nat) : BattleFire := { Sortie.volley with targets := [⟨target⟩] }

/-- What the firing at the first bomber comes to. -/
def first : Except Fault (List UnitId) × Engagement × Scene ScriptedDice :=
  ({} : Engagement).fire {} (volley 1) start

/-- What the firing at the second bomber comes to. -/
def second : Except Fault (List UnitId) × Engagement × Scene ScriptedDice :=
  ({} : Engagement).fire {} (volley 3) first.2.2

/-- The two firings, of which `true` has fired before `false`. -/
def melee : Melee Bool ScriptedDice :=
  ((Melee.unstarted start).called true first.2.1 first.2.2).called false second.2.1 second.2.2

/-- The two firings are a `Course`. -/
theorem course : Melee.Course start melee := by
  have hfirst : Melee.Course start
      ((Melee.unstarted start : Melee Bool ScriptedDice).called true first.2.1 first.2.2) :=
    .fired .unstarted true {} (volley 1) rfl
  have hsecond : (((Melee.unstarted start : Melee Bool ScriptedDice).called true first.2.1
      first.2.2).firing false).fire {} (volley 3) first.2.2 = second := by
    rw [Melee.firing_called_of_ne (by decide)]
    rfl
  exact hfirst.fired false {} (volley 3) hsecond

/-- Each firing has killed one bomber, but the one that has fired first is `reported` to have killed
    both. -/
theorem reported_eq : melee.reported true = [⟨1⟩, ⟨3⟩] ∧ melee.killedBy true = [⟨1⟩] ∧
    ((melee.firing true).resume {} melee.scene).1 = .ok [⟨1⟩, ⟨3⟩] := by
  refine ⟨?_, ?_, ?_⟩
  · cbv
  · cbv
  · cbv

end Skirmish

namespace Melee

/-- In the `Skirmish` the firing that has fired first reports the bomber that the other one has
    killed. -/
theorem reported_since_skirmish :
    Course Skirmish.start Skirmish.melee ∧ ⟨3⟩ ∈ Skirmish.melee.reported true ∧
      ⟨3⟩ ∉ Skirmish.melee.known true ∧ ∃ other, ⟨3⟩ ∈ Skirmish.melee.killedBy other := by
  obtain ⟨hreported, -, -⟩ := Skirmish.reported_eq
  have hmem : ⟨3⟩ ∈ Skirmish.melee.reported true := by
    rw [hreported]
    decide
  obtain ⟨hunknown, hkilled⟩ := ((reported_since Skirmish.course true).1 ⟨3⟩).1 hmem
  exact ⟨Skirmish.course, hmem, hunknown, hkilled⟩

/-- What is `reported` by a firing is not always what was `killedBy` it. -/
theorem not_reported_own :
    ¬ ∀ (start : Scene ScriptedDice) (melee : Melee Bool ScriptedDice), Course start melee →
      ∀ name unit, unit ∈ melee.reported name ↔ unit ∈ melee.killedBy name := by
  intro hall
  obtain ⟨hreported, hkilled, -⟩ := Skirmish.reported_eq
  have hsame := hall _ _ Skirmish.course true ⟨3⟩
  rw [hreported, hkilled] at hsame
  exact absurd (hsame.1 (by decide)) (by decide)

end Melee

end Flak
