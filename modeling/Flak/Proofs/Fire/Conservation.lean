import Flak.Proofs.Fire.Balance
import Flak.Proofs.Fire.Order

namespace Flak

/-!
# Hit points are conserved

The fire at a move takes no more from a board than its groups have on record, and from each moving
unit no more than it had:

* `GroupRecord.GunsThere` — those who fire for a group are there until it is done;
* `Plan.guns_of_groupsOn` — no moving unit fires at its own side;
* `Balanced.stage`, `Balanced.attempt` — the stages of groups and attempts at steps keep the
  balance;
* `Proceeds.balanced` — so the fire at a move is balanced at any time;
* `GroupRecord.absorbed`, `absorbedFrom` — the hits that a unit absorbed, where a kill counts as the
  hit points that were left;
* `Overflight.Settled`, `hit_points_conserved` — what a move that has ended has done to the board.
-/

variable {ρ : Type} {scene after : Scene ρ} {origin : Board} {moving : List UnitId}
  {record : GroupRecord}

/-! ### Who fires -/

/-- From the roll of a group until it is done, those who fire for it stand in its territory. -/
def GroupRecord.GunsThere (board : Board) (record : GroupRecord) : Prop :=
  record.phase ≠ .pendingRoll → record.phase ≠ .done →
    ∀ unit ∈ record.activeFiring, board.standsIn unit record.group.territory = true

theorem GroupRecord.gunsThere_onTheWay :
    OnTheWay ρ fun board record => record.GunsThere board where
  quiet h hbegun hleft := by
    rcases h with h | h
    · exact absurd h hbegun
    · exact absurd h hleft
  stage := by
    intro id record is scene after stage h hrecord his hthere
    cases h with
    | past =>
      obtain rfl := Ledger.eq_of_record hrecord his
      exact hthere
    | idle =>
      obtain rfl := eq_of_updated hrecord his
      exact fun _ hleft => absurd rfl hleft
    | rolled _ _ _ hstand _ =>
      obtain rfl := eq_of_updated hrecord his
      exact fun _ _ => hstand
    | @selected hphase _ _ mid losses _ hletters _ =>
      obtain ⟨_, rfl⟩ := exists_of_commit hrecord hletters.toExchanged his
      have hboard : mid.host.board = scene.host.board := hletters.board
      -- Damage leaves everybody where they stand.
      intro _ _ unit hunit
      show (mid.commitHost _ _ losses).board.standsIn unit record.group.territory = true
      rw [Scene.commitHost_board, hboard]
      refine (Board.standsIn_markDamaged _ _ unit _).2.trans ?_
      exact hthere (by simp [hphase]) (by simp [hphase]) unit hunit
    | finished _ hletters =>
      obtain ⟨_, rfl⟩ := exists_of_finish hrecord hletters.toExchanged his
      exact fun _ hleft => absurd rfl hleft
  failed := by
    rintro step fault board index was is ⟨hsame, -, -, hphase⟩ hthere hbegun hleft
    have hwas : was.phase ≠ .pendingRoll ∧ was.phase ≠ .done := by
      rcases hphase with hphase | ⟨-, hselected, -⟩
      · exact ⟨hphase ▸ hbegun, hphase ▸ hleft⟩
      · simp [hselected]
    rw [hsame]
    exact hthere hwas.1 hwas.2

namespace Board

/-- A `unit` that is left after `leftBy` is one that was there, with more hits. -/
theorem exists_unit?_of_leftBy {taken : GroupRecord → List UnitId} {groups : List GroupRecord}
    {id : UnitId} {unit : BoardUnit} (h : (origin.leftBy taken groups).unit? id = some unit) :
    ∃ was, origin.unit? id = some was ∧ unit = { was with hits := unit.hits } := by
  rw [leftBy, unit?_reduced] at h
  split at h
  · simp at h
  · obtain ⟨was, hwas, rfl⟩ := Option.map_eq_some_iff.1 h
    exact ⟨was, hwas, rfl⟩

/-- Nobody is `atWar` with themselves. -/
theorem atWar_self (board : Board) (player : PlayerId) : board.atWar player player = false := by
  simp [atWar]

end Board

/-- Where units all belong to the `acting` player, they fight for that player: it is their
    `movingPlayer`. -/
theorem movingPlayer_eq {acting : PlayerId} {flying : List BoardUnit} (hsome : flying ≠ [])
    (howner : ∀ unit ∈ flying, unit.owner = acting) : movingPlayer acting flying = acting := by
  obtain ⟨unit, hunit⟩ := List.exists_mem_of_ne_nil flying hsome
  exact movingPlayer_of_mem hunit (howner unit hunit)

/-- Units that move for the acting player do not fire at their own side in an `overflight`, and the
    dead stay. -/
theorem Plan.guns_of_groupsOn {name : String} {targets : List UnitId} {groups : List FiringGroup}
    (h : (Plan.overflight name targets).groupsOn scene = .ok groups)
    (htargets : ∀ unit ∈ targets, unit ∈ moving)
    (howner : ∀ id ∈ moving, ∀ unit, scene.host.board.unit? id = some unit →
      unit.owner = scene.ledger.player) :
    ∀ group ∈ groups, group.removal = .returnToHost ∧
      ∀ unit ∈ group.firingUnits, unit ∉ moving := by
  rw [groupsOn] at h
  split at h
  · obtain rfl := Except.ok.inj h
    simp
  rename_i hremaining
  obtain ⟨territory, -, rfl⟩ := Fault.exists_of_map h
  intro group hgroup
  have hformed := Board.formed_of_mem_muster hgroup
  refine ⟨hformed.removal, fun gun hgun hmoving => ?_⟩
  have hcanFire := (List.mem_filter.1 (hformed.guns gun hgun).1).2
  -- A gun among the moving units would have to be at war with its own player.
  obtain ⟨unit, -, -, hunit, -, -, -, -, -, hwar, -⟩ := Board.canFireAt_iff.1 hcanFire
  rw [howner gun hmoving unit hunit, movingPlayer_eq, Board.atWar_self] at hwar
  · simp at hwar
  · obtain ⟨target, htarget⟩ := List.exists_mem_of_ne_nil _ fun hnil =>
      hremaining (List.isEmpty_iff.2 hnil)
    have hhas := (Bool.and_eq_true_iff.1 (List.mem_filter.1 htarget).2).2
    obtain ⟨flying, hflying⟩ := Option.isSome_iff_exists.1 hhas
    exact List.ne_nil_of_mem (List.mem_filterMap.2 ⟨target, htarget, hflying⟩)
  · intro flying hflying
    obtain ⟨target, htarget, hfound⟩ := List.mem_filterMap.1 hflying
    exact howner target (htargets target (List.mem_filter.1 htarget).1) flying hfound

/-! ### Steps -/

/-- A list of which one `entry` is changed. -/
theorem exists_split_of_change {α : Type} {entries entries' : List α} {index : Nat} {entry : α}
    {change : α → α} (hentry : entries[index]? = some entry)
    (h : ∀ position : Nat, entries'[position]? =
      (entries[position]?).map fun other => if position = index then change other else other) :
    ∃ front back, front.length = index ∧ entries = front ++ entry :: back ∧
      entries' = front ++ change entry :: back := by
  obtain ⟨hlt, rfl⟩ := List.getElem?_eq_some_iff.1 hentry
  have hmodify : entries' = entries.modify index change := by
    refine List.ext_getElem? fun position => ?_
    rw [h, List.getElem?_modify]
    by_cases hposition : position = index
    · simp [hposition]
    · have hne : index ≠ position := fun heq => hposition heq.symm
      simp [hposition, hne]
  refine ⟨entries.take index, entries.drop (index + 1), by simp; omega, ?_, ?_⟩
  · simp
  · rw [hmodify, List.modify_eq_take_cons_drop hlt]

namespace Balanced

/-- The `stage` of a group keeps what is `Balanced` when the groups before it are done and those
    `after` it have not begun. -/
theorem stage {index : Nat} {stage : Stage} (hids : (origin.units.map BoardUnit.id).Nodup)
    (hnames : (origin.territories.map Territory.name).Nodup)
    (h : Balanced origin moving scene.host.board scene.ledger.groups)
    (hsound : ∀ other ∈ scene.ledger.groups, other.Sound)
    (hthere : record.GunsThere scene.host.board)
    (hearlier : ∀ (position : Nat) (other : GroupRecord), position < index →
      scene.ledger.groups[position]? = some other → other.phase = .done)
    (hlater : ∀ (position : Nat) (other : GroupRecord), index < position →
      scene.ledger.groups[position]? = some other → other.phase = .pendingRoll)
    (hdead : ∀ other ∈ scene.ledger.groups, ∀ unit ∈ other.killed, unit ∈ scene.ledger.casualties)
    (halive : stage = .select → record.phase = .rolled →
      ∀ unit ∈ record.validTargets, unit ∉ scene.ledger.casualties)
    (hrecord : scene.ledger.groups[index]? = some record)
    (hdone : StageDone ⟨index⟩ record scene stage after) :
    Balanced origin moving after.host.board after.ledger.groups := by
  have hrecordSound : record.Sound := hsound record (List.mem_of_getElem? hrecord)
  -- The group stands between those that are done and those that have not begun.
  have hsplit {change : GroupRecord → GroupRecord} {groups' : List GroupRecord}
      (hgroups : ∀ position : Nat, groups'[position]? = (scene.ledger.groups[position]?).map
        fun other => if position = index then change other else other) :
      ∃ front back, scene.ledger.groups = front ++ record :: back ∧
        groups' = front ++ change record :: back ∧ (∀ earlier ∈ front, earlier.phase = .done) ∧
        ∀ later ∈ back, later.phase = .pendingRoll := by
    obtain ⟨front, back, rfl, hbefore, hafter⟩ := exists_split_of_change hrecord hgroups
    refine ⟨front, back, hbefore, hafter, fun other hother => ?_, fun other hother => ?_⟩
    · obtain ⟨position, hposition⟩ := List.mem_iff_getElem?.1 hother
      have hlt := (List.getElem?_eq_some_iff.1 hposition).1
      refine hearlier position other hlt ?_
      rw [hbefore, List.getElem?_append_left hlt, hposition]
    · obtain ⟨position, hposition⟩ := List.mem_iff_getElem?.1 hother
      refine hlater (front.length + (position + 1)) other (by omega) ?_
      rw [hbefore, List.getElem?_append_right (by omega)]
      simp [hposition]
  cases hdone with
  | past => exact h
  | idle hphase =>
    have hgroups := Ledger.getElem?_updateRecord ⟨index⟩
      (fun record => { record with phase := .done }) scene.ledger
    obtain ⟨front, back, hbefore, hafter, hfront, hback⟩ := hsplit hgroups
    show Balanced origin moving scene.host.board (scene.ledger.updateRecord _ _).groups
    rw [hbefore] at h hsound
    rw [hafter]
    exact h.idled hsound hback hphase rfl rfl rfl rfl rfl
  | @rolled hphase dice shooters roll hshooters hstand hhits =>
    have hgroups := Ledger.getElem?_updateRecord ⟨index⟩ (fun was => { was with
      activeFiring := shooters
      validTargets := Engine.openTargets scene record.group
      dice := some roll
      phase := .rolled }) scene.ledger
    obtain ⟨front, back, hbefore, hafter, hfront, hback⟩ := hsplit hgroups
    show Balanced origin moving scene.host.board (scene.ledger.updateRecord _ _).groups
    rw [hbefore] at h hsound
    rw [hafter]
    exact h.rolled hsound hfront hback hphase rfl rfl hstand (by simp)
  | @selected hphase targets dice mid losses htargets hletters hcheck =>
    obtain ⟨told, hgroups⟩ := getElem?_commit record.group (record.dice.getD {}).hits losses
      hletters.toExchanged
    obtain ⟨front, back, hbefore, hafter, hfront, hback⟩ := hsplit hgroups
    have hboard : mid.host.board = scene.host.board := hletters.board
    have hshape := hrecordSound.shape
    rw [hphase] at hshape
    show Balanced origin moving
      (mid.commitHost record.group (record.dice.getD {}).hits losses).board _
    rw [Scene.commitHost_board, hboard, hafter]
    rw [hbefore] at h hsound hdead
    refine h.selected hids ?_ hshape.2 (by simp [hphase]) (by simp) rfl rfl rfl rfl htargets
      hcheck ?_
    · intro later hmem
      have hlaterSound := hsound later (List.mem_append_right _ (List.mem_cons_of_mem record hmem))
      exact (hlaterSound.blank (hback later hmem)).2
    · intro earlier hmem unit hunit hvalid
      exact halive rfl hphase unit hvalid
        (hdead earlier (List.mem_append_left _ hmem) unit hunit)
  | @finished hphase mid hletters =>
    have hdice : Exchanged ⟨index⟩ (scene.setDice scene.host.dice) mid := hletters.toExchanged
    obtain ⟨told, hgroups⟩ := hdice.getElem?_updateRecord fun was => { was with phase := .done }
    obtain ⟨front, back, hbefore, hafter, hfront, hback⟩ := hsplit hgroups
    have hbegun : record.phase ≠ .pendingRoll ∧ record.phase ≠ .done := by
      rcases hphase with hphase | hphase <;> simp [hphase]
    show Balanced origin moving (scene.host.board.cleared record _)
      (mid.ledger.updateRecord _ _).groups
    rw [hbefore] at h hsound
    rw [hafter]
    refine h.cleared hnames _ ?_ hbegun.2 rfl rfl rfl rfl rfl (hthere hbegun.1 hbegun.2)
    intro later hmem
    have hlaterSound := hsound later (List.mem_append_right _ (List.mem_cons_of_mem record hmem))
    exact GroupRecord.spent_of_dice_none (hlaterSound.blank (hback later hmem)).1

variable [RandomSource ρ]

/-- An `attempt` at the `step` of a move keeps what is `Balanced`. -/
theorem attempt {step : Step} {rest : List Step} {before : List HistoryEntry} (timing : Timing)
    (hids : (origin.units.map BoardUnit.id).Nodup)
    (hnames : (origin.territories.map Territory.name).Nodup)
    (howner : ∀ id ∈ moving, ∀ unit, origin.unit? id = some unit →
      unit.owner = scene.ledger.player)
    (hflights : ∀ plan, step = .plan plan → ∃ name targets, plan = .overflight name targets)
    (horder : InOrder ⟨step :: rest, scene⟩)
    (hlockstep : InLockstep moving before ⟨step :: rest, scene⟩)
    (hsound : ∀ (index : Nat) (record : GroupRecord), scene.ledger.groups[index]? = some record →
      record.Sound ∧ record.GunsThere scene.host.board)
    (h : Balanced origin moving scene.host.board scene.ledger.groups) :
    Balanced origin moving (Progress.attempt timing ⟨step :: rest, scene⟩).scene.host.board
      (Progress.attempt timing ⟨step :: rest, scene⟩).scene.ledger.groups := by
  rcases hresult : (step.perform timing).onScene scene with ⟨fault | next, after⟩
  · -- A step that fails neither damages anybody nor takes anybody off.
    rw [Progress.attempt_error hresult]
    have hkept := Step.uncommitted_of_error hresult
    have hsettled : after.ledger.groups.map GroupRecord.settled =
        scene.ledger.groups.map GroupRecord.settled := by
      refine List.ext_getElem? fun index => ?_
      simp only [List.getElem?_map]
      cases his : after.ledger.groups[index]? with
      | none =>
        have hge := List.getElem?_eq_none_iff.1 his
        rw [hkept.length] at hge
        rw [List.getElem?_eq_none hge]
      | some is =>
        obtain ⟨was, hwas, -⟩ := hkept.recordChange his
        obtain ⟨hsame, -, -, hphase⟩ := hkept.groups index was is hwas his
        rw [hwas, hsame]
        rcases hphase with hphase | ⟨-, hselected, hconfirmed, -⟩
        · simp [GroupRecord.settled, hphase]
        · simp [GroupRecord.settled, hselected, hconfirmed]
    show Balanced origin moving after.host.board after.ledger.groups
    rw [hkept.board, ← settled_iff, hsettled, settled_iff]
    exact h
  · rw [Progress.attempt_ok hresult]
    show Balanced origin moving after.host.board after.ledger.groups
    rcases horder.cases with ⟨_, plan, _, rfl, -, -⟩ | ⟨index, _, stage, _, _, rfl, -, hone⟩
    · obtain ⟨groups, hgroups, -, rfl⟩ := Step.perform_plan_ok hresult
      obtain ⟨name, targets, rfl⟩ := hflights plan rfl
      have hguns := Plan.guns_of_groupsOn hgroups hlockstep.plan_aimed fun id hid unit hunit => by
        rw [h.board] at hunit
        obtain ⟨was, hwas, hsame⟩ := Board.exists_unit?_of_leftBy hunit
        rw [hsame]
        exact howner id hid was hwas
      refine h.opened (fun record hrecord => (eq_of_mem_freshRecords hrecord).2) ?_
      exact fun record hrecord => hguns record.group (eq_of_mem_freshRecords hrecord).1
    · obtain ⟨-, record, hrecord, hdone⟩ := Step.perform_stage_ok hresult
      have hfound : scene.ledger.groups[index]? = some record := Ledger.record_eq_ok.1 hrecord
      refine h.stage hids hnames ?_ (hsound index record hfound).2 ?_ ?_ ?_ ?_ hfound hdone
      · intro other hother
        obtain ⟨position, hposition⟩ := List.mem_iff_getElem?.1 hother
        exact (hsound position other hposition).1
      · exact fun position other hlt => hone.earlier position other (by omega)
      · exact fun position other hlt => hone.later position other (by omega)
      · exact hlockstep.killed_dead
      · rintro rfl hphase
        exact hlockstep.validTargets_alive hfound hphase

end Balanced

/-! ### What units absorb -/

/-- The hits that the `unit` absorbed from a group that selected on this `board`: what `damageTo`
    counts, and if the group killed it the hit points that were left. -/
def GroupRecord.absorbed (record : GroupRecord) (board : Board) (unit : UnitId) : Nat :=
  record.damageTo unit + if unit ∈ record.killed then board.hitPointsLeft unit else 0

/-- The hits that the `unit` absorbed from `groups`, each of which selected on its board. -/
def absorbedFrom (boards : Nat → Board) (groups : List GroupRecord) (unit : UnitId) : Nat :=
  (groups.mapIdx fun index record => record.absorbed (boards index) unit).sum

/-- What was `absorbedFrom` lists of groups adds up. -/
theorem absorbedFrom_append (boards : Nat → Board) (front back : List GroupRecord)
    (unit : UnitId) :
    absorbedFrom boards (front ++ back) unit = absorbedFrom boards front unit +
      absorbedFrom (fun index => boards (index + front.length)) back unit := by
  rw [absorbedFrom, List.mapIdx_append, List.sum_append]
  rfl

/-- A `unit` that no group has killed absorbed the damage, as `damageFrom` counts it. -/
theorem absorbedFrom_of_survived {groups : List GroupRecord} {unit : UnitId}
    (h : ∀ record ∈ groups, unit ∉ record.killed) (boards : Nat → Board) :
    absorbedFrom boards groups unit = damageFrom groups unit := by
  induction groups generalizing boards with
  | nil => rfl
  | cons record rest ih =>
    have hrest := ih (fun other hother => h other (List.mem_cons_of_mem record hother))
      fun index => boards (index + 1)
    rw [absorbedFrom, List.mapIdx_cons, List.sum_cons, damageFrom_cons, ← hrest,
      GroupRecord.absorbed, if_neg (h record List.mem_cons_self), Nat.add_zero]
    rfl

/-- A `unit` that one group has killed absorbed the damage and what was left then. -/
theorem absorbedFrom_of_killed {front back : List GroupRecord} {unit : UnitId}
    (hkilled : unit ∈ record.killed) (hfront : ∀ earlier ∈ front, unit ∉ earlier.killed)
    (hback : ∀ later ∈ back, unit ∉ later.killed) (boards : Nat → Board) :
    absorbedFrom boards (front ++ record :: back) unit =
      damageFrom (front ++ record :: back) unit + (boards front.length).hitPointsLeft unit := by
  have hrecord : absorbedFrom (fun index => boards (index + front.length)) (record :: back) unit =
      record.damageTo unit + (boards front.length).hitPointsLeft unit + damageFrom back unit := by
    rw [← absorbedFrom_of_survived hback fun index => boards (index + 1 + front.length),
      absorbedFrom, List.mapIdx_cons, List.sum_cons, GroupRecord.absorbed, if_pos hkilled,
      Nat.zero_add]
    rfl
  rw [absorbedFrom_append, absorbedFrom_of_survived hfront, hrecord, damageFrom_append,
    damageFrom_cons]
  omega

/-- Nobody is `killed` by two groups. -/
theorem Accounted.killed_once {aims : List UnitId} {before : List HistoryEntry}
    (h : Accounted aims before scene) :
    scene.ledger.groups.Pairwise fun earlier later =>
      ∀ unit ∈ earlier.killed, unit ∉ later.killed := by
  have hnodup : scene.ledger.toll.flatten.Nodup := by
    rw [h.casualties]
    exact h.nodup
  have hdisjoint := (List.nodup_flatten.1 hnodup).2
  rw [Ledger.toll, List.pairwise_map] at hdisjoint
  exact hdisjoint.imp fun hapart unit hunit hother => hapart hunit hother

/-! ### Moves -/

/-- What a move of `units` that has ended has done to a board, apart from its dead, who stay: guns
    that groups have `spent` are off the board and out of the territory of their group, damage is
    marked as `damageFrom` counts it, on moving units only, and everything else is as it was. -/
structure Overflight.Settled (before after : Board) (units : List UnitId)
    (groups : List GroupRecord) : Prop where
  board : after = before.leftBy GroupRecord.spent groups
  /-- No gun is spent twice. -/
  once : groups.Pairwise fun earlier later => ∀ unit ∈ earlier.spent, unit ∉ later.spent
  /-- Whoever was spent had stood in the territory and does not move. -/
  spent : ∀ record ∈ groups, ∀ unit ∈ record.spent,
    before.standsIn unit record.group.territory = true ∧ unit ∉ units
  /-- Who moves is still there, with the damage added. -/
  moved : ∀ id ∈ units, ∃ unit, before.unit? id = some unit ∧
    after.unit? id = some { unit with hits := unit.hits + damageFrom groups id }
  /-- Who does not move takes no damage. -/
  undamaged : ∀ id, id ∉ units → damageFrom groups id = 0
  /-- Who does not move and was not spent is there as before. -/
  others : ∀ id, id ∉ units → (∀ record ∈ groups, id ∉ record.spent) →
    after.unit? id = before.unit? id

section Moves

variable [RandomSource ρ] {fire ready : Overflight} {host : Host ρ} {route : Route}
  {units : List UnitId} {ordering : BoardUnit → BoardUnit → Ordering} {now : Progress ρ}
  {count : Nat}

/-- The fire at a move stays `InLockstep`. -/
theorem Proceeds.inLockstep {aims : List UnitId} {before : List HistoryEntry} {start : Progress ρ}
    (hstart : InLockstep aims before start) (h : Proceeds Interlude Stays start count now) :
    InLockstep aims before now := by
  refine h.preserves hstart ?_ ?_ ?_
  · exact fun timing step rest scene hstate => hstate.attempt timing
  · exact fun pending before after hpause hstate => hstate.kept (.of_interlude hpause)
  · exact fun left next scene hturn => hturn.elim

/-- At any time the `fire` at a move of the acting player's `units` is `Balanced`. -/
theorem Proceeds.balanced (hids : (host.board.units.map BoardUnit.id).Nodup)
    (hnames : (host.board.territories.map Territory.name).Nodup)
    (howner : ∀ id ∈ units, ∀ unit, host.board.unit? id = some unit → unit.owner = host.player)
    (hnew : fire.agenda.isEmpty = true)
    (hready : fire.prepare host route units ordering = .ok ready)
    (h : Proceeds Interlude Stays (ready.progress host) count now) :
    Balanced host.board units now.scene.host.board now.scene.ledger.groups := by
  have hbegins : Begins (ready.progress host) := .move hnew hready
  refine @preserves_on_way ρ _ Interlude Stays (ready.progress host) now count (fun progress =>
    Balanced host.board units progress.scene.host.board progress.scene.ledger.groups)
    ?_ ?_ ?_ ?_ h
  · rw [hbegins.groups]
    exact .start host.board units
  · intro count timing step rest scene hway hbalanced
    have hplayer : scene.ledger.player = host.player :=
      hway.steady.player.trans (Overflight.prepare_player hnew hready)
    have hfires : Proceeds Interlude FiresNext (ready.progress host) count ⟨step :: rest, scene⟩ :=
      hway.firesNext Stays.firesNext
    -- What an attempt needs besides: the order of the steps, the lockstep, and sound records.
    refine hbalanced.attempt timing hids hnames (hplayer ▸ howner) ?_
      (hfires.inOrder hbegins.inOrder) (hway.inLockstep (.of_prepare hnew hready)) ?_
    · rintro plan rfl
      exact hway.overflights (Overflight.overflights_of_prepare hnew hready) plan List.mem_cons_self
    · intro index record hrecord
      exact ⟨hway.freely.sound hbegins.groups hrecord,
        GroupRecord.gunsThere_onTheWay.holds hbegins hfires hrecord⟩
  · intro pending before after hpause hbalanced
    show Balanced host.board units after.host.board after.ledger.groups
    rw [hpause.board, hpause.groups]
    exact hbalanced
  · exact fun left next scene hturn => hturn.elim

/-- When a group selects, the groups before it are done and those after it have not begun: they go
    `OneByOne`. -/
theorem Proceeds.oneByOne_of_select (hbegins : Begins (ready.progress host)) {index : Nat}
    {rest : List Step}
    (h : Proceeds Interlude Stays (ready.progress host) count
      ⟨.stage .select ⟨index⟩ :: rest, scene⟩) :
    ∃ more left, OneByOne (index + 1) more left scene.ledger := by
  have horder : InOrder ⟨.stage .select ⟨index⟩ :: rest, scene⟩ :=
    (h.firesNext Stays.firesNext).inOrder hbegins.inOrder
  rcases horder.cases with ⟨_, _, _, hplan, -, -⟩ | ⟨hand, fewer, _, left, _, hsame, -, hone⟩
  · simp at hplan
  · obtain ⟨-, hindex⟩ := Step.stage.inj hsame
    obtain rfl : index = hand := GroupId.mk.inj hindex
    exact ⟨fewer, _, hone⟩

/-- A unit takes no damage once a group has selected it to be killed: `damageFrom` all groups is
    that of those before. -/
theorem SelectedOn.damageFrom_eq (hbegins : Begins (ready.progress host)) {index : Nat}
    (h : SelectedOn Stays (ready.progress host) now index scene)
    (hafter : Balanced host.board units now.scene.host.board now.scene.ledger.groups)
    (hrecord : now.scene.ledger.groups[index]? = some record) {id : UnitId}
    (hkilled : id ∈ record.killed) :
    damageFrom now.scene.ledger.groups id = damageFrom scene.ledger.groups id := by
  obtain ⟨count, more, timing, rest, after, was, hway, hwas, hphase, hdone, hmore⟩ := h
  obtain ⟨_, _, hone⟩ := hway.oneByOne_of_select hbegins
  have hsound {progress : Progress ρ} {steps : Nat}
      (h : Proceeds Interlude Stays (ready.progress host) steps progress) {position : Nat}
      {other : GroupRecord} (hother : progress.scene.ledger.groups[position]? = some other) :
      other.Sound :=
    h.freely.sound hbegins.groups hother
  -- When the group selected, it had no losses, and those after it had not begun.
  have hthen : damageFrom scene.ledger.groups id =
      damageFrom (scene.ledger.groups.take index) id := by
    refine damageFrom_eq_take fun position other hle hother => ?_
    refine GroupRecord.damageTo_of_losses_none ?_ id
    rcases Nat.eq_or_lt_of_le hle with rfl | hlt
    · obtain rfl : was = other := Option.some.inj (hwas.symm.trans hother)
      have hshape := (hsound hway hwas).shape
      rw [hphase] at hshape
      exact hshape.2
    · exact ((hsound hway hother).blank (hone.later position other hlt hother)).2
  -- It kills the unit instead of damaging it, and those after it do not damage the dead.
  have hlater : damageFrom now.scene.ledger.groups id =
      damageFrom (now.scene.ledger.groups.take index) id := by
    refine damageFrom_eq_take fun position other hle hother => ?_
    rcases Nat.eq_or_lt_of_le hle with rfl | hlt
    · obtain rfl : record = other := Option.some.inj (hrecord.symm.trans hother)
      exact (hsound ((hway.done hdone).trans hmore) hrecord).damageTo_of_killed hkilled
    · obtain ⟨hindex, rfl⟩ := List.getElem?_eq_some_iff.1 hrecord
      obtain ⟨hposition, rfl⟩ := List.getElem?_eq_some_iff.1 hother
      exact List.pairwise_iff_getElem.1 hafter.last index position hindex hposition hlt id hkilled
  rw [hthen, hlater]
  -- The groups before it were done then.
  have hlosses : (now.scene.ledger.groups.take index).map GroupRecord.losses =
      (scene.ledger.groups.take index).map GroupRecord.losses := by
    refine List.ext_getElem? fun position => ?_
    simp only [List.getElem?_map, List.getElem?_take]
    by_cases hlt : position < index
    · have hentered : position < scene.ledger.groups.length := by
        have := (List.getElem?_eq_some_iff.1 hwas).1
        omega
      have hother := List.getElem?_eq_getElem hentered
      obtain ⟨is, his, -, hsame⟩ := ((Proceeds.here.done hdone).trans hmore).stands_of_done hother
        (hone.earlier position _ (by omega) hother)
      simp only [hlt, if_true, his, hother, Option.map_some, hsame]
    · simp [hlt]
  have hdamage (groups : List GroupRecord) : damageFrom groups id =
      ((groups.map GroupRecord.losses).map fun losses =>
        Losses.damageIn (losses.getD {}).damaged id).sum := by
    rw [List.map_map]
    rfl
  rw [hdamage, hdamage, hlosses]

/-- The `hitPointsLeft` when a unit was selected to be killed are what it had at the start, less all
    the damage that it took. -/
theorem SelectedOn.hitPointsLeft_add (hids : (host.board.units.map BoardUnit.id).Nodup)
    (hnames : (host.board.territories.map Territory.name).Nodup)
    (howner : ∀ id ∈ units, ∀ unit, host.board.unit? id = some unit → unit.owner = host.player)
    (hnew : fire.agenda.isEmpty = true)
    (hready : fire.prepare host route units ordering = .ok ready) {index : Nat}
    (h : SelectedOn Stays (ready.progress host) now index scene)
    (hafter : Balanced host.board units now.scene.host.board now.scene.ledger.groups)
    (hrecord : now.scene.ledger.groups[index]? = some record) {id : UnitId}
    (hkilled : id ∈ record.killed) :
    scene.host.board.hitPointsLeft id + damageFrom now.scene.ledger.groups id =
      host.board.hitPointsLeft id := by
  have hbegins : Begins (ready.progress host) := .move hnew hready
  have hsame := h.damageFrom_eq hbegins hafter hrecord hkilled
  obtain ⟨was, losses, targets, -, -, -, -, hlosses, htargets, hcheck⟩ :=
    h.exists_check hbegins.groups hrecord
  obtain ⟨count, _, _, _, _, _, hway, -, -, -, -⟩ := h
  have hbefore := hway.balanced hids hnames howner hnew hready
  have hhas : scene.host.board.hasUnit id = true := by
    rw [GroupRecord.killed, hlosses] at hkilled
    refine Board.hasUnit_of_targets htargets _ ?_
    exact (Board.map_unit_targets_sublist htargets).subset
      ((Losses.valid_of_check hcheck).killed id hkilled)
  -- Nothing is cut off in the subtraction: all damage there is leaves hit points.
  have hpoints := hafter.alive record (List.mem_of_getElem? hrecord) id hkilled
  have hroom := hafter.room id hpoints
  have hleft : scene.host.board.hitPointsLeft id =
      host.board.hitPointsLeft id - damageFrom scene.ledger.groups id := by
    rw [hbefore.board] at hhas ⊢
    exact Board.hitPointsLeft_leftBy hhas
  omega

omit [RandomSource ρ] in
/-- When all `groups` are done, a `Balanced` move is `Settled`. -/
theorem Balanced.settled {board : Board} {groups : List GroupRecord}
    (h : Balanced host.board units board groups) (hnew : fire.agenda.isEmpty = true)
    (hready : fire.prepare host route units ordering = .ok ready)
    (hdone : ∀ record ∈ groups, record.phase = .done) (hsound : ∀ record ∈ groups, record.Sound)
    (haimed : ∀ record ∈ groups, ∀ unit ∈ record.validTargets, unit ∈ units) :
    Overflight.Settled host.board board units groups := by
  -- When all groups are done, the guns that are gone are those that were spent.
  have hboard : board = host.board.leftBy GroupRecord.spent groups :=
    h.board.trans (Board.leftBy_congr fun record hrecord =>
      GroupRecord.gone_of_done (hdone record hrecord))
  have hspent : ∀ record ∈ groups, ∀ unit ∈ record.spent, unit ∉ units := by
    intro record hrecord unit hunit
    have hfiring := (hsound record hrecord).activeFiring.subset (GroupRecord.mem_of_mem_spent hunit)
    exact (h.guns record hrecord).2 unit hfiring
  -- Nobody is hit who does not move, since no group aims at anybody else.
  have hundamaged : ∀ id, id ∉ units → damageFrom groups id = 0 := fun id hid =>
    damageFrom_eq_zero fun record hrecord =>
      (hsound record hrecord).damageTo_of_not_valid (mt (haimed record hrecord id) hid)
  have hstays {id : UnitId} (hid : ∀ record ∈ groups, id ∉ record.spent) :
      (groups.any fun record => id ∈ record.spent) = false :=
    List.any_eq_false.2 fun record hrecord => by simpa using hid record hrecord
  refine ⟨hboard, h.once, fun record hrecord unit hunit => ?_, ?_, hundamaged, ?_⟩
  · have hstood := h.stood record hrecord unit (GroupRecord.mem_of_mem_spent hunit)
    exact ⟨hstood, hspent record hrecord unit hunit⟩
  · intro id hid
    obtain ⟨_, moving, -, hmoving, -⟩ := Overflight.prepare_ok hnew hready
    obtain ⟨unit, hunit⟩ := (Board.findUnits_eq_ok hmoving).2 id hid
    refine ⟨unit, hunit, ?_⟩
    rw [hboard, Board.leftBy, Board.unit?_reduced,
      hstays fun record hrecord hmem => hspent record hrecord id hmem hid, hunit]
    rfl
  · intro id hid hunspent
    rw [hboard, Board.leftBy, Board.unit?_reduced, hstays hunspent, hundamaged id hid]
    simp

omit [RandomSource ρ] in
/-- Somebody who is dead was `killed` by one group and by no other. -/
theorem InLockstep.killed_by {aims : List UnitId} {before : List HistoryEntry}
    (h : InLockstep aims before now) {id : UnitId} (hdead : id ∈ now.scene.ledger.casualties) :
    ∃ front record back, now.scene.ledger.groups = front ++ record :: back ∧ id ∈ record.killed ∧
      (∀ earlier ∈ front, id ∉ earlier.killed) ∧ ∀ later ∈ back, id ∉ later.killed := by
  obtain ⟨_, _, _, _, -, hstate⟩ := h
  rw [← hstate.accounted.casualties] at hdead
  obtain ⟨killed, hkilled, hid⟩ := List.mem_flatten.1 hdead
  obtain ⟨record, hrecord, rfl⟩ := List.mem_map.1 hkilled
  obtain ⟨front, back, hgroups⟩ := List.append_of_mem hrecord
  have honce := hstate.accounted.killed_once
  rw [hgroups, List.pairwise_append, List.pairwise_cons] at honce
  obtain ⟨-, ⟨hafter, -⟩, hacross⟩ := honce
  refine ⟨front, record, back, hgroups, hid, ?_, fun later hlater => hafter later hlater id hid⟩
  exact fun earlier hearlier hkilled =>
    hacross earlier hearlier record List.mem_cons_self id hkilled hid

/-- Hit points are conserved over a move of the acting player's `units`, on a board where neither
    numbers nor names come up twice. When it has ended it is `Settled`: moving units have the damage
    added that is on record, nobody else is damaged, and nothing has gone but the guns that were
    spent. Each group with losses has selected them on some scene, and whatever these scenes were,
    the hits that a unit absorbed are all that it could take if it is dead, and fewer if not. -/
theorem hit_points_conserved {now : Overflight} {there : Host ρ}
    (hids : (host.board.units.map BoardUnit.id).Nodup)
    (hnames : (host.board.territories.map Territory.name).Nodup)
    (howner : ∀ id ∈ units, ∀ unit, host.board.unit? id = some unit → unit.owner = host.player)
    (hnew : fire.agenda.isEmpty = true)
    (hready : fire.prepare host route units ordering = .ok ready)
    (hproceeds : Proceeds Interlude Stays (ready.progress host) count (now.progress there))
    (hended : now.agenda.isEmpty = true) :
    Overflight.Settled host.board there.board units now.ledger.groups ∧
      (∀ (index : Nat) (record : GroupRecord), now.ledger.groups[index]? = some record →
        record.losses.isSome →
          ∃ scene, SelectedOn Stays (ready.progress host) (now.progress there) index scene) ∧
      ∀ scenes : Nat → Scene ρ,
        (∀ (index : Nat) (record : GroupRecord), now.ledger.groups[index]? = some record →
          record.losses.isSome →
            SelectedOn Stays (ready.progress host) (now.progress there) index (scenes index)) →
        ∀ id ∈ units,
          (id ∈ now.ledger.casualties →
            absorbedFrom (fun index => (scenes index).host.board) now.ledger.groups id =
              host.board.hitPointsLeft id) ∧
          (id ∉ now.ledger.casualties → 0 < host.board.hitPointsLeft id →
            absorbedFrom (fun index => (scenes index).host.board) now.ledger.groups id <
              host.board.hitPointsLeft id) := by
  have hbegins : Begins (ready.progress host) := .move hnew hready
  have hbalanced : Balanced host.board units there.board now.ledger.groups :=
    hproceeds.balanced hids hnames howner hnew hready
  have hlockstep : InLockstep units host.history (now.progress there) :=
    hproceeds.inLockstep (.of_prepare hnew hready)
  refine ⟨hbalanced.settled hnew hready ?_ ?_ fun record hrecord =>
    hlockstep.validTargets_aimed hrecord, ?_, ?_⟩
  · intro record hrecord
    obtain ⟨index, hindex⟩ := List.mem_iff_getElem?.1 hrecord
    have horder : InOrder (now.progress there) :=
      (hproceeds.firesNext Stays.firesNext).inOrder hbegins.inOrder
    -- Nothing is left to do, so no group is at hand or still to come.
    have hpending : now.agenda.pending = [] := Overflight.pending_of_isEmpty there hended
    rw [Overflight.progress, hpending] at horder
    exact horder.done_of_drained hindex
  · intro record hrecord
    obtain ⟨index, hindex⟩ := List.mem_iff_getElem?.1 hrecord
    exact hproceeds.freely.sound hbegins.groups hindex
  · exact fun index record hrecord hlosses =>
      hproceeds.exists_selectedOn hbegins.groups hrecord hlosses
  · intro scenes hscenes id _
    constructor
    · intro hdead
      -- The group that has killed the unit found on its board what all others had left of it.
      obtain ⟨front, record, back, hgroups, hkilled, hfront, hback⟩ := hlockstep.killed_by hdead
      have hindex : now.ledger.groups[front.length]? = some record := by
        rw [show now.ledger.groups = front ++ record :: back from hgroups]
        simp
      have hselected : record.losses.isSome := by
        cases hlosses : record.losses with
        | none => simp [GroupRecord.killed, hlosses] at hkilled
        | some losses => rfl
      have hthen := hscenes front.length record hindex hselected
      have hadd := hthen.hitPointsLeft_add hids hnames howner hnew hready hbalanced hindex hkilled
      have habsorbed := absorbedFrom_of_killed hkilled hfront hback
        fun index => (scenes index).host.board
      rw [← hgroups] at habsorbed
      refine habsorbed.trans ?_
      rw [Nat.add_comm]
      exact hadd
    · intro halive hpoints
      rw [absorbedFrom_of_survived]
      · exact hbalanced.room id hpoints
      · exact fun record hrecord hkilled =>
          halive (hlockstep.killed_dead record hrecord id hkilled)

end Moves

/-- The bomber has one hit point, and it absorbs the one hit there is. -/
theorem hit_points_conserved_sortie :
    ∃ later last scene, (Sortie.fired true).run (some 2)
        (Sortie.rolled true .returnToHost Sortie.outcome).host = (.ok 2, later, last) ∧
      later.ledger.casualties = [⟨1⟩] ∧
      Overflight.Settled Sortie.board last.board [⟨1⟩] later.ledger.groups ∧
      SelectedOn Stays ((Sortie.ready true).progress (Sortie.host true)) (later.progress last) 0
        scene ∧
      absorbedFrom (fun _ => scene.host.board) later.ledger.groups ⟨1⟩ = 1 := by
  have hrun : ∃ later last record, (Sortie.fired true).run (some 2)
      (Sortie.rolled true .returnToHost Sortie.outcome).host = (.ok 2, later, last) ∧
        later.ledger.casualties = [⟨1⟩] ∧ later.agenda.isEmpty = true ∧
        later.ledger.groups = [record] ∧ record.losses.isSome :=
    ⟨_, _, _, rfl, rfl, rfl, rfl, rfl⟩
  obtain ⟨later, last, record, hlater, hdead, hended, hgroups, hselected⟩ := hrun
  obtain ⟨_, hfired, -⟩ := Overflight.run_proceeds (Sortie.run_eq true)
  obtain ⟨_, hdone, -⟩ := Overflight.run_proceeds hlater
  have howner : ∀ id ∈ [(⟨1⟩ : UnitId)], ∀ unit, Sortie.board.unit? id = some unit →
      unit.owner = ⟨"Reds"⟩ := by
    intro id hid unit hunit
    obtain rfl : id = ⟨1⟩ := by simpa using hid
    obtain rfl : Sortie.bomber = unit := Option.some.inj hunit
    rfl
  obtain ⟨hsettled, hscenes, habsorbed⟩ := hit_points_conserved (by decide) (by decide) howner rfl
    (Sortie.prepare_eq true) (hfired.trans hdone) hended
  obtain ⟨scene, hscene⟩ := hscenes 0 record (by simp [hgroups]) hselected
  refine ⟨later, last, scene, hlater, hdead, hsettled, hscene, ?_⟩
  refine (habsorbed (fun _ => scene) ?_ ⟨1⟩ (by simp)).1 (by simp [hdead])
  intro index other hother _
  rw [hgroups] at hother
  obtain rfl : index = 0 := by
    have := (List.getElem?_eq_some_iff.1 hother).1
    simpa using this
  exact hscene

end Flak
