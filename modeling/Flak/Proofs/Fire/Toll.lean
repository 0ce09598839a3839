import Flak.Proofs.Fire.Course

namespace Flak

/-!
# What an action has on record of its dead

The dead of an action stand in three places: in the records of the groups that killed them, in the
list of casualties and in the history.

* `Ledger.toll` — the dead of each group, in the order of the groups;
* `Accounted` — the three places agree, nobody is in them twice or who could not be aimed at;
* `Unharmed`, `Accounted.of_unharmed` — what kills nobody keeps the account;
* `Accounted.opened`, `Accounted.commit` — so does a plan, and so does a selection of targets that
  are still alive, if the groups after it have not selected anybody;
* `Progress.casualties_grow`, `Engagement.fire_ok` — the dead stay dead, and a firing in a
  battle reports those that it adds.
-/

variable {ρ : Type} {id : GroupId} {scene mid : Scene ρ}

/-- The units that the group on `record` has killed. -/
def GroupRecord.killed (record : GroupRecord) : List UnitId :=
  (record.losses.map Losses.killed).getD []

namespace Ledger

/-- The dead of each group of the `ledger`, in the order of the groups. -/
def toll (ledger : Ledger) : List (List UnitId) := ledger.groups.map GroupRecord.killed

/-- Every group of the `ledger` stands at the position that is its number. -/
def Numbered (ledger : Ledger) : Prop :=
  ∀ (index : Nat) (record : GroupRecord), ledger.groups[index]? = some record →
    record.id = ⟨index⟩

end Ledger

/-- A `record` after groups were opened is one that was there, or it is fresh. -/
theorem Plan.getElem?_opened {plan : Plan} {groups : List FiringGroup} {ledger : Ledger}
    {index : Nat} {record : GroupRecord}
    (h : (plan.opened groups ledger).groups[index]? = some record) :
    index < ledger.groups.length ∧ ledger.groups[index]? = some record ∨
      ledger.groups.length ≤ index ∧ (freshRecords ledger.groups.length groups)[
        index - ledger.groups.length]? = some record := by
  rw [Plan.opened] at h
  by_cases hindex : index < ledger.groups.length
  · rw [List.getElem?_append_left hindex] at h
    exact .inl ⟨hindex, h⟩
  · have hle : ledger.groups.length ≤ index := Nat.le_of_not_lt hindex
    rw [List.getElem?_append_right hle] at h
    exact .inr ⟨hle, h⟩

/-- After `groups` were opened there are so many more. -/
theorem Plan.length_opened (plan : Plan) (groups : List FiringGroup) (ledger : Ledger) :
    (plan.opened groups ledger).groups.length = ledger.groups.length + groups.length := by
  rw [Plan.opened, List.length_append, freshRecords, List.length_mapIdx]

/-- Groups that are opened are numbered on: the ledger stays `Numbered`. -/
theorem Ledger.Numbered.opened {ledger : Ledger} (h : ledger.Numbered) (plan : Plan)
    (groups : List FiringGroup) : (plan.opened groups ledger).Numbered := by
  intro index record hrecord
  rcases Plan.getElem?_opened hrecord with ⟨-, hwas⟩ | ⟨hle, hfresh⟩
  · exact h index record hwas
  · rw [freshRecords, List.getElem?_mapIdx] at hfresh
    obtain ⟨group, -, rfl⟩ := Option.map_eq_some_iff.1 hfresh
    show GroupId.mk _ = _
    congr 1
    omega

/-- The records after letters about a group and a `change` of its record. -/
theorem Exchanged.getElem?_updateRecord {dice : ρ} (h : Exchanged id (scene.setDice dice) mid)
    (change : GroupRecord → GroupRecord) :
    ∃ told, ∀ index : Nat, (mid.ledger.updateRecord id change).groups[index]? =
      (scene.ledger.groups[index]?).map fun record =>
        if index = id.index then change (record.tell told) else record := by
  obtain ⟨told, parked, hledger⟩ := h.ledger
  refine ⟨told, fun index => ?_⟩
  -- Telling the firing player is itself a change of the record, made before the other one.
  have hgroups : (mid.ledger.updateRecord id change).groups =
      ((scene.ledger.updateRecord id (GroupRecord.tell told)).updateRecord id change).groups := by
    rw [hledger]
    rfl
  rw [hgroups, Ledger.updateRecord_updateRecord, Ledger.getElem?_updateRecord]
  rfl

/-! ### Lists of the dead -/

/-- The dead that are new and named once each come after those that were `known`, by
    `addCasualty`. -/
theorem foldl_addCasualty {killed known : List UnitId} (hnodup : killed.Nodup)
    (hnew : ∀ unit ∈ killed, unit ∉ known) :
    killed.foldl Ledger.addCasualty known = known ++ killed := by
  induction killed generalizing known with
  | nil => simp
  | cons unit rest ih =>
    have hunit : unit ∉ known := hnew unit List.mem_cons_self
    obtain ⟨hfirst, hrest⟩ := List.nodup_cons.1 hnodup
    rw [List.foldl_cons, Ledger.addCasualty, if_neg hunit, ih hrest]
    · simp
    · intro other hother hmem
      rcases List.mem_append.1 hmem with hknown | hsame
      · exact hnew other (List.mem_cons_of_mem _ hother) hknown
      · obtain rfl : other = unit := by simpa using hsame
        exact hfirst hother

/-- Of `lists` that are blank from a position on: what is in front, and the same with an `entry`
    there. -/
theorem eq_append_of_blank {α : Type} {lists : List (List α)} {index : Nat} (entry : List α)
    (hlt : index < lists.length)
    (hblank : ∀ position list, index ≤ position → lists[position]? = some list → list = []) :
    ∃ front blanks, lists = front ++ blanks ∧
      lists.set index entry = front ++ [entry] ++ blanks.tail ∧ ∀ list ∈ blanks, list = [] := by
  refine ⟨lists.take index, lists.drop index, (List.take_append_drop _ _).symm, ?_, ?_⟩
  · rw [List.set_eq_take_append_cons_drop, if_pos hlt, List.tail_drop]
    simp
  · intro list hlist
    obtain ⟨offset, hoffset⟩ := List.mem_iff_getElem?.1 hlist
    rw [List.getElem?_drop] at hoffset
    exact hblank (index + offset) list (Nat.le_add_right _ _) hoffset

/-- There is nothing in lists that are `blanks`. -/
theorem flatten_of_blank {α : Type} {blanks : List (List α)} (h : ∀ list ∈ blanks, list = []) :
    blanks.flatten = [] ∧ blanks.filter (fun list => !list.isEmpty) = [] := by
  constructor
  · exact List.flatten_eq_nil_iff.2 h
  · refine List.filter_eq_nil_iff.2 fun list hlist => ?_
    simp [h list hlist]

/-- An `entry` where all `lists` are blank comes after everything else. -/
theorem flatten_set_of_blank {α : Type} {lists : List (List α)} {index : Nat} (entry : List α)
    (hlt : index < lists.length)
    (hblank : ∀ position list, index ≤ position → lists[position]? = some list → list = []) :
    (lists.set index entry).flatten = lists.flatten ++ entry ∧
      (lists.set index entry).filter (fun list => !list.isEmpty) =
        lists.filter (fun list => !list.isEmpty) ++ if entry.isEmpty then [] else [entry] := by
  obtain ⟨front, blanks, hlists, hset, hall⟩ := eq_append_of_blank entry hlt hblank
  obtain ⟨hflat, hfilter⟩ := flatten_of_blank hall
  obtain ⟨hflat', hfilter'⟩ :=
    flatten_of_blank fun list hlist => hall list (List.mem_of_mem_tail hlist)
  rw [hset, hlists]
  constructor
  · simp [hflat, hflat']
  · rw [List.filter_append, List.filter_append, List.filter_append, hfilter, hfilter']
    cases hentry : entry.isEmpty <;> simp [hentry]

/-! ### The account -/

/-- The dead are accounted for on the `scene`: the groups' dead, in the order of the groups, are the
    casualties; nobody is among them twice, and nobody who is not among the `aims`; and the history
    has gained one entry for each group that killed somebody, in the order of the groups, with its
    dead. -/
structure Accounted (aims : List UnitId) (before : List HistoryEntry) (scene : Scene ρ) : Prop where
  numbered : scene.ledger.Numbered
  casualties : scene.ledger.toll.flatten = scene.ledger.casualties
  nodup : scene.ledger.casualties.Nodup
  aimed : ∀ unit ∈ scene.ledger.casualties, unit ∈ aims
  history : ∃ entries, scene.host.history = before ++ entries ∧
    entries.map HistoryEntry.units = scene.ledger.toll.filter fun killed => !killed.isEmpty

/-- Nobody is killed between the scenes `before` and `after`. -/
structure Unharmed (before after : Scene ρ) : Prop where
  casualties : after.ledger.casualties = before.ledger.casualties
  history : after.host.history = before.host.history
  length : after.ledger.groups.length = before.ledger.groups.length
  records : ∀ (index : Nat) (was is : GroupRecord), before.ledger.groups[index]? = some was →
    after.ledger.groups[index]? = some is →
      is.id = was.id ∧ is.group = was.group ∧ is.losses = was.losses

namespace Unharmed

variable {before after : Scene ρ}

/-- Where nobody is killed, every record comes from the one at its `index`. -/
theorem exists_was (h : Unharmed before after) {index : Nat} {is : GroupRecord}
    (his : after.ledger.groups[index]? = some is) :
    ∃ was, before.ledger.groups[index]? = some was := by
  obtain ⟨hlt, -⟩ := List.getElem?_eq_some_iff.1 his
  rw [h.length] at hlt
  exact ⟨_, List.getElem?_eq_getElem hlt⟩

/-- Where nobody is killed, the `toll` is the same. -/
theorem toll (h : Unharmed before after) : after.ledger.toll = before.ledger.toll := by
  apply List.ext_getElem?
  intro index
  simp only [Ledger.toll, List.getElem?_map]
  cases his : after.ledger.groups[index]? with
  | none =>
    have hge := List.getElem?_eq_none_iff.1 his
    rw [h.length] at hge
    rw [List.getElem?_eq_none hge]
  | some is =>
    obtain ⟨was, hwas⟩ := h.exists_was his
    have hlosses := (h.records index was is hwas his).2.2
    simp [hwas, GroupRecord.killed, hlosses]

end Unharmed

namespace Accounted

variable {aims : List UnitId} {before : List HistoryEntry} {after : Scene ρ}

/-- The dead stay `Accounted` for where nobody is killed. -/
theorem of_unharmed (h : Accounted aims before scene) (hsame : Unharmed scene after) :
    Accounted aims before after where
  numbered := by
    intro index is his
    obtain ⟨was, hwas⟩ := hsame.exists_was his
    rw [(hsame.records index was is hwas his).1]
    exact h.numbered index was hwas
  casualties := by
    rw [hsame.toll, hsame.casualties]
    exact h.casualties
  nodup := by
    rw [hsame.casualties]
    exact h.nodup
  aimed := by
    rw [hsame.casualties]
    exact h.aimed
  history := by
    rw [hsame.toll, hsame.history]
    exact h.history

/-- The `groups` that are opened have no dead, so the dead stay accounted for. -/
theorem opened (h : Accounted aims before scene) (plan : Plan) (groups : List FiringGroup) :
    Accounted aims before { scene with ledger := plan.opened groups scene.ledger } := by
  have hfresh : ∀ list ∈ (freshRecords scene.ledger.groups.length groups).map GroupRecord.killed,
      list = [] := by
    intro list hlist
    obtain ⟨record, hrecord, rfl⟩ := List.mem_map.1 hlist
    rw [(eq_of_mem_freshRecords hrecord).2]
    rfl
  obtain ⟨hflat, hfilter⟩ := flatten_of_blank hfresh
  -- Blank entries at the end show neither among the casualties nor in the history.
  have htoll : (plan.opened groups scene.ledger).toll = scene.ledger.toll ++
      (freshRecords scene.ledger.groups.length groups).map GroupRecord.killed := List.map_append
  refine ⟨?_, ?_, h.nodup, h.aimed, ?_⟩
  · exact h.numbered.opened plan groups
  · show (plan.opened groups scene.ledger).toll.flatten = _
    rw [htoll, List.flatten_append, hflat, List.append_nil]
    exact h.casualties
  · obtain ⟨entries, hhistory, hunits⟩ := h.history
    refine ⟨entries, hhistory, ?_⟩
    show _ = (plan.opened groups scene.ledger).toll.filter _
    rw [htoll, List.filter_append, hfilter, List.append_nil]
    exact hunits

end Accounted

/-! ### Selections -/

section Commit

variable {record : GroupRecord} {dice : ρ} (group : FiringGroup) (hits : Nat) (losses : Losses)

/-- The records after a selection, by `commit`. -/
theorem getElem?_commit (hletters : Exchanged id (scene.setDice dice) mid) :
    ∃ told, ∀ index : Nat, (mid.commit id group hits losses).ledger.groups[index]? =
      (scene.ledger.groups[index]?).map fun record => if index = id.index then
        { record.tell told with losses := some losses, phase := .casualtiesSelected } else record :=
  hletters.getElem?_updateRecord fun record =>
    { record with losses := some losses, phase := .casualtiesSelected }

/-- The dead of a selection are the dead of its group: the `toll` has them at its place. -/
theorem toll_commit (hrecord : scene.ledger.record id = .ok record)
    (hletters : Exchanged id (scene.setDice dice) mid) :
    (mid.commit id group hits losses).ledger.toll =
      scene.ledger.toll.set id.index losses.killed := by
  obtain ⟨told, hgroups⟩ := getElem?_commit group hits losses hletters
  obtain ⟨hlt, -⟩ := List.getElem?_eq_some_iff.1 (Ledger.record_eq_ok.1 hrecord)
  apply List.ext_getElem?
  intro index
  rw [List.getElem?_set]
  simp only [Ledger.toll, List.getElem?_map, List.length_map, hgroups index]
  by_cases hsame : index = id.index
  · subst hsame
    simp [hlt, GroupRecord.killed]
  · have hne : id.index ≠ index := fun h => hsame h.symm
    cases scene.ledger.groups[index]? <;> simp [hsame, hne]

/-- The dead of a selection who were alive come after those who were dead, by `commit`. -/
theorem casualties_commit (hletters : Exchanged id (scene.setDice dice) mid)
    (hnodup : losses.killed.Nodup)
    (hnew : ∀ unit ∈ losses.killed, unit ∉ scene.ledger.casualties) :
    (mid.commit id group hits losses).ledger.casualties =
      scene.ledger.casualties ++ losses.killed := by
  have hcasualties : mid.ledger.casualties = scene.ledger.casualties := hletters.casualties
  show losses.killed.foldl Ledger.addCasualty mid.ledger.casualties = _
  rw [hcasualties, foldl_addCasualty hnodup hnew]

/-- A selection among targets that are alive, of a group after which nobody has selected, keeps the
    dead `Accounted` for. -/
theorem Accounted.commit {aims : List UnitId} {before : List HistoryEntry}
    (h : Accounted aims before scene) (hrecord : scene.ledger.record id = .ok record)
    (hletters : Exchanged id (scene.setDice dice) mid) (hnodup : losses.killed.Nodup)
    (hnew : ∀ unit ∈ losses.killed, unit ∉ scene.ledger.casualties)
    (haimed : ∀ unit ∈ losses.killed, unit ∈ aims)
    (hblank : ∀ (index : Nat) (record : GroupRecord), id.index ≤ index →
      scene.ledger.groups[index]? = some record → record.losses = none) :
    Accounted aims before (mid.commit id group hits losses) := by
  have htoll := toll_commit group hits losses hrecord hletters
  have hdead := casualties_commit group hits losses hletters hnodup hnew
  have hlt : id.index < scene.ledger.toll.length := by
    rw [Ledger.toll, List.length_map]
    exact (List.getElem?_eq_some_iff.1 (Ledger.record_eq_ok.1 hrecord)).1
  -- The group's entry is the last that is not blank, so that its dead come last everywhere.
  have hblank' : ∀ (position : Nat) (list : List UnitId), id.index ≤ position →
      scene.ledger.toll[position]? = some list → list = [] := by
    intro position list hle hlist
    rw [Ledger.toll, List.getElem?_map] at hlist
    obtain ⟨record, hrecord, rfl⟩ := Option.map_eq_some_iff.1 hlist
    simp [GroupRecord.killed, hblank position record hle hrecord]
  obtain ⟨hflat, hfilter⟩ := flatten_set_of_blank losses.killed hlt hblank'
  refine ⟨?_, ?_, ?_, ?_, ?_⟩
  · obtain ⟨told, hgroups⟩ := getElem?_commit group hits losses hletters
    intro index is his
    rw [hgroups index] at his
    obtain ⟨was, hwas, rfl⟩ := Option.map_eq_some_iff.1 his
    have hid := h.numbered index was hwas
    split
    · exact hid
    · exact hid
  · rw [htoll, hflat, hdead, h.casualties]
  · rw [hdead]
    refine List.nodup_append.2 ⟨h.nodup, hnodup, ?_⟩
    rintro unit hunit other hother rfl
    exact hnew unit hother hunit
  · rw [hdead]
    intro unit hunit
    rcases List.mem_append.1 hunit with hknown | hkilled
    · exact h.aimed unit hknown
    · exact haimed unit hkilled
  · obtain ⟨entries, hhistory, hunits⟩ := h.history
    obtain ⟨entries', hhistory', hunits'⟩ := mid.commitHost_history group hits losses
    have hmid : mid.host.history = scene.host.history := hletters.history
    refine ⟨entries ++ entries', ?_, ?_⟩
    · show (mid.commitHost group hits losses).history = _
      rw [hhistory', hmid, hhistory, List.append_assoc]
    · rw [htoll, hfilter, List.map_append, hunits, hunits']

end Commit

/-! ### The dead stay dead -/

section Growth

variable {after : Scene ρ}

/-- Whoever is `known` to be dead stays in front of the list. -/
theorem Ledger.known_foldl_addCasualty (killed known : List UnitId) :
    known <+: killed.foldl addCasualty known := by
  induction killed generalizing known with
  | nil => exact List.prefix_rfl
  | cons unit rest ih =>
    refine List.IsPrefix.trans ?_ (ih (addCasualty known unit))
    rw [addCasualty]
    split
    · exact List.prefix_rfl
    · exact List.prefix_append known [unit]

/-- A `stage` adds to the dead, if it changes them. -/
theorem StageDone.casualties_grow {id : GroupId} {record : GroupRecord} {stage : Stage}
    (h : StageDone id record scene stage after) :
    scene.ledger.casualties <+: after.ledger.casualties := by
  -- Only a selection adds to the list, and it adds at the end.
  cases h with
  | past => exact List.prefix_rfl
  | idle => exact List.prefix_rfl
  | rolled => exact List.prefix_rfl
  | @selected _ _ _ mid losses _ hletters _ =>
    have hcasualties : mid.ledger.casualties = scene.ledger.casualties := hletters.casualties
    show _ <+: losses.killed.foldl Ledger.addCasualty mid.ledger.casualties
    rw [hcasualties]
    exact Ledger.known_foldl_addCasualty losses.killed _
  | @finished _ mid hletters =>
    have hcasualties : mid.ledger.casualties = scene.ledger.casualties := hletters.casualties
    show _ <+: mid.ledger.casualties
    exact hcasualties ▸ List.prefix_rfl

variable [RandomSource ρ]

/-- An `attempt` at a step adds to the dead, if it changes them. -/
theorem Progress.casualties_grow (timing : Timing) (step : Step) (rest : List Step)
    (scene : Scene ρ) :
    scene.ledger.casualties <+: (attempt timing ⟨step :: rest, scene⟩).scene.ledger.casualties := by
  have hattempted := attempted timing step rest scene
  generalize attempt timing ⟨step :: rest, scene⟩ = progress at hattempted ⊢
  cases hattempted with
  | @failed _ _ after hkept =>
    have hcasualties : after.ledger.casualties = scene.ledger.casualties := by rw [hkept.ledger]
    exact hcasualties ▸ List.prefix_rfl
  | planned => exact List.prefix_rfl
  | staged _ hdone => exact hdone.casualties_grow

/-- In the `Course` of a firing the dead of those before it stay dead. -/
theorem Engagement.Course.casualties_grow {Permits : Timing → Step → Scene ρ → Prop}
    {fire : BattleFire} {start there : Scene ρ} {now : Engagement}
    (h : Course Permits fire start now there) :
    start.ledger.casualties <+: there.ledger.casualties := by
  refine (@preserves ρ _ Permits (fun progress =>
    start.ledger.casualties <+: progress.scene.ledger.casualties) _ _ _ _ ?_ ?_ ?_ h).2
  · exact fun timing step rest mid _ hmid =>
      hmid.trans (Progress.casualties_grow timing step rest mid)
  · intro pending before after hpause hbefore
    show _ <+: after.ledger.casualties
    rw [hpause.casualties]
    exact hbefore
  · exact List.prefix_rfl

/-- A `fire` that succeeds has run its course, and it reports the dead that it adds. -/
theorem Engagement.fire_ok {timing : Timing} {fire : BattleFire} {firing : Engagement}
    {killed : List UnitId} {last : Scene ρ}
    (h : ({} : Engagement).fire timing fire scene = (.ok killed, firing, last)) :
    Course Step.Unrestricted fire scene firing last ∧ firing.isFinished = true ∧
      last.ledger.casualties = scene.ledger.casualties ++ killed := by
  have hcourse : Course Step.Unrestricted fire scene firing last :=
    .fired .planned timing fire (fun _ => rfl) (fun _ _ _ => trivial) h
  obtain ⟨dead, hdead⟩ := hcourse.casualties_grow
  rw [Engagement.fire, resume] at h
  rcases hrun : (({} : Engagement).started fire scene.ledger).agenda.run timing none scene with
    ⟨result, agenda, after⟩
  simp only [hrun, Prod.mk.injEq] at h
  obtain ⟨hresult, rfl, rfl⟩ := h
  obtain ⟨count, rfl, hkilled⟩ := Fault.exists_of_map hresult
  obtain ⟨final, -, hreaches, rfl, -⟩ := Agenda.run_ok hrun
  refine ⟨hcourse, ?_, ?_⟩
  · have hempty : final.pending = [] := hreaches
    simp [isFinished, started, Agenda.isEmpty, hempty]
  · rw [← hkilled, ← hdead]
    simp [Engagement.killed, started, ← hdead]

end Growth

end Flak
