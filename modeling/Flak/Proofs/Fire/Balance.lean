import Flak.Proofs.Board.Reduced
import Flak.Proofs.Fire.Records

namespace Flak

/-!
# What groups take from a board

What the groups of a move have done to the board can be read off their records:

* `GroupRecord.damageTo`, `GroupRecord.spent` — the hits that a group has added to a unit, and the
  guns that it has cost;
* `Board.leftBy` — a board that groups leave behind, and `Board.markDamaged_leftBy`,
  `Board.removeUnits_leftBy` for one more group;
* `Balanced` — the board is what the groups have left of an earlier one, and nobody has taken more
  than there was;
* `Balanced.opened`, `Balanced.rolled`, `Balanced.selected`, `Balanced.cleared` — groups that are
  entered, and the stages of a group, keep the balance.
-/

variable {board origin : Board} {moving : List UnitId} {groups front back : List GroupRecord}
  {record is : GroupRecord}

/-! ### What is on record -/

namespace GroupRecord

/-- The hits that the `unit` took from a group and survived, as the losses on `record` have it. -/
def damageTo (record : GroupRecord) (unit : UnitId) : Nat :=
  Losses.damageIn (record.losses.getD {}).damaged unit

/-- The guns that the hits of a group cost, as the `record` has it. -/
def spent (record : GroupRecord) : List UnitId :=
  if record.group.suicideOnHit then record.activeFiring.take record.hits else []

/-- The guns that are gone because of a group: those `spent`, once it is done. -/
def gone (record : GroupRecord) : List UnitId :=
  if record.phase = .done then record.spent else []

theorem mem_of_mem_spent {unit : UnitId} (h : unit ∈ record.spent) :
    unit ∈ record.activeFiring := by
  rw [spent] at h
  split at h
  · exact List.mem_of_mem_take h
  · simp at h

/-- What a group has `spent` is `gone` when it is done. -/
theorem gone_of_done (h : record.phase = .done) : record.gone = record.spent := if_pos h

/-- Nothing is `gone` because of a group that is not done. -/
theorem gone_of_not_done (h : record.phase ≠ .done) : record.gone = [] := if_neg h

/-- The value of `damageTo` reads nothing but the losses. -/
theorem damageTo_congr (h : is.losses = record.losses) (unit : UnitId) :
    is.damageTo unit = record.damageTo unit := by
  rw [damageTo, damageTo, h]

/-- Without losses there is no `damageTo` anybody. -/
theorem damageTo_of_losses_none (h : record.losses = none) (unit : UnitId) :
    record.damageTo unit = 0 := by
  rw [damageTo, h]
  rfl

/-- Whom a group has `killed` it has not damaged. -/
theorem Sound.damageTo_of_killed (hsound : record.Sound) {unit : UnitId}
    (h : unit ∈ record.killed) : record.damageTo unit = 0 := by
  cases hlosses : record.losses with
  | none => exact damageTo_of_losses_none hlosses unit
  | some losses =>
    rw [killed, hlosses] at h
    rw [damageTo, hlosses]
    refine Losses.damageIn_eq_zero fun entry hentry hsame => ?_
    have hapart := (List.nodup_append.1 (hsound.distinct losses hlosses)).2.2
    exact hapart unit h entry.1 (List.mem_map_of_mem hentry) hsame.symm

/-- Whom a group could not hit, those not in `validTargets`, it has not damaged. -/
theorem Sound.damageTo_of_not_valid (hsound : record.Sound) {unit : UnitId}
    (h : unit ∉ record.validTargets) : record.damageTo unit = 0 := by
  cases hlosses : record.losses with
  | none => exact damageTo_of_losses_none hlosses unit
  | some losses =>
    rw [damageTo, hlosses]
    refine Losses.damageIn_eq_zero fun entry hentry hsame => h ?_
    have hmem : entry.1 ∈ losses.killed ++ losses.damaged.map Prod.fst :=
      List.mem_append_right _ (List.mem_map_of_mem hentry)
    exact hsame ▸ hsound.targeted losses hlosses entry.1 hmem

/-- Without `dice` no gun is `spent`. -/
theorem spent_of_dice_none (h : record.dice = none) : record.spent = [] := by
  simp [spent, hits, h]

/-- A group that has not begun has done nothing: a `Sound` record of it has neither `dice` nor
    `losses`. -/
theorem Sound.blank (hsound : record.Sound) (hpending : record.phase = .pendingRoll) :
    record.dice = none ∧ record.losses = none := by
  have hshape := hsound.shape
  rw [hpending] at hshape
  exact hshape

/-- The `record` up to whom it is shown to and where the group is on its way, if it is not done. -/
def settled (record : GroupRecord) : GroupRecord :=
  { record with
    phase := if record.phase = .done then .done else .pendingRoll
    enemyNotified := false }

/-- A `settled` record has the same guns `gone`. -/
theorem gone_settled (record : GroupRecord) : record.settled.gone = record.gone := by
  by_cases h : record.phase = .done
  · rw [gone_of_done h, gone_of_done (by simp [settled, h])]
    rfl
  · rw [gone_of_not_done h, gone_of_not_done (by simp [settled, h])]

end GroupRecord

/-- The hits that `groups` have added to the `unit`. -/
def damageFrom (groups : List GroupRecord) (unit : UnitId) : Nat :=
  (groups.map fun record => record.damageTo unit).sum

/-- Damage from groups, by `damageFrom`, adds up over lists. -/
theorem damageFrom_append (groups more : List GroupRecord) (unit : UnitId) :
    damageFrom (groups ++ more) unit = damageFrom groups unit + damageFrom more unit := by
  simp [damageFrom]

theorem damageFrom_cons (record : GroupRecord) (groups : List GroupRecord) (unit : UnitId) :
    damageFrom (record :: groups) unit = record.damageTo unit + damageFrom groups unit := by
  simp [damageFrom]

/-- There is no damage from groups that have not hit a unit, by `damageFrom`. -/
theorem damageFrom_eq_zero {unit : UnitId} (h : ∀ record ∈ groups, record.damageTo unit = 0) :
    damageFrom groups unit = 0 := by
  induction groups with
  | nil => rfl
  | cons record rest ih =>
    rw [damageFrom_cons, h record List.mem_cons_self,
      ih fun other hother => h other (List.mem_cons_of_mem record hother)]

/-- Groups from the `position` on that have done no damage do not count. -/
theorem damageFrom_eq_take {index : Nat} {unit : UnitId}
    (h : ∀ (position : Nat) (record : GroupRecord), index ≤ position →
      groups[position]? = some record → record.damageTo unit = 0) :
    damageFrom groups unit = damageFrom (groups.take index) unit := by
  have hrest : damageFrom (groups.drop index) unit = 0 := by
    refine damageFrom_eq_zero fun record hrecord => ?_
    obtain ⟨offset, hoffset⟩ := List.mem_iff_getElem?.1 hrecord
    rw [List.getElem?_drop] at hoffset
    exact h (index + offset) record (Nat.le_add_right _ _) hoffset
  have hsplit := damageFrom_append (groups.take index) (groups.drop index) unit
  rw [List.take_append_drop, hrest, Nat.add_zero] at hsplit
  exact hsplit

theorem damageFrom_replace (hdamage : ∀ unit, is.damageTo unit = record.damageTo unit) :
    damageFrom (front ++ is :: back) = damageFrom (front ++ record :: back) := by
  funext unit
  simp only [damageFrom_append, damageFrom_cons, hdamage unit]

/-! ### What is left of a board -/

namespace Board

/-- What `groups` leave of a `board`: each has `taken` units off, out of its territory, and has left
    its damage. -/
def leftBy (taken : GroupRecord → List UnitId) (groups : List GroupRecord) (board : Board) :
    Board :=
  board.reduced (fun unit => groups.any fun record => unit ∈ taken record)
    (fun name unit => groups.any fun record =>
      record.group.territory = name && decide (unit ∈ taken record))
    (damageFrom groups)

variable {taken : GroupRecord → List UnitId}

/-- A `unit` that is there after `leftBy` was `taken` by no group. -/
theorem not_mem_taken {unit : UnitId} (h : (board.leftBy taken groups).hasUnit unit = true) :
    ∀ record ∈ groups, unit ∉ taken record := by
  intro record hrecord hmem
  have htaken : (groups.any fun record => unit ∈ taken record) = true :=
    List.any_eq_true.2 ⟨record, hrecord, by simpa using hmem⟩
  rw [hasUnit, leftBy, unit?_reduced, htaken] at h
  simp at h

/-- After `leftBy`, the damage that `groups` have left is hit points lost. -/
theorem hitPointsLeft_leftBy {unit : UnitId}
    (h : (board.leftBy taken groups).hasUnit unit = true) :
    (board.leftBy taken groups).hitPointsLeft unit =
      board.hitPointsLeft unit - damageFrom groups unit := by
  refine hitPointsLeft_reduced ?_
  refine List.any_eq_false.2 fun record hrecord => ?_
  simpa using not_mem_taken h record hrecord

/-- No groups leave the `board` as it is. -/
theorem leftBy_nil (taken : GroupRecord → List UnitId) (board : Board) :
    board.leftBy taken [] = board :=
  board.reduced_nothing

/-- What `leftBy` leaves depends on what each of the `groups` has `taken` and nothing else. -/
theorem leftBy_congr {taken' : GroupRecord → List UnitId}
    (h : ∀ record ∈ groups, taken record = taken' record) :
    board.leftBy taken groups = board.leftBy taken' groups := by
  have hany (keep : GroupRecord → Bool) (unit : UnitId) :
      (groups.any fun record => keep record && decide (unit ∈ taken record)) =
        groups.any fun record => keep record && decide (unit ∈ taken' record) := by
    rw [Bool.eq_iff_iff, List.any_eq_true, List.any_eq_true]
    refine exists_congr fun record => and_congr_right fun hrecord => ?_
    rw [h record hrecord]
  have hgone := hany fun _ => true
  simp only [Bool.true_and] at hgone
  have hleft (name : String) := hany fun record => record.group.territory = name
  simp only [leftBy, hgone, hleft]

/-- Groups that have done nothing, such as `blank`, leave no trace. -/
theorem leftBy_append_blank {blank : List GroupRecord}
    (htaken : ∀ record ∈ blank, taken record = [])
    (hdamage : ∀ record ∈ blank, ∀ unit, record.damageTo unit = 0) :
    board.leftBy taken (groups ++ blank) = board.leftBy taken groups := by
  have hnone (unit : UnitId) : (blank.any fun record => unit ∈ taken record) = false := by
    refine List.any_eq_false.2 fun record hrecord => ?_
    simp [htaken record hrecord]
  have hnone' (name : String) (unit : UnitId) : (blank.any fun record =>
      record.group.territory = name && decide (unit ∈ taken record)) = false := by
    refine List.any_eq_false.2 fun record hrecord => ?_
    simp [htaken record hrecord]
  have hsame : damageFrom (groups ++ blank) = damageFrom groups := by
    funext unit
    rw [damageFrom_append, damageFrom_eq_zero fun record hrecord => hdamage record hrecord unit,
      Nat.add_zero]
  simp only [leftBy, List.any_append, hnone, hnone', Bool.or_false, hsame]

/-- A group may be replaced in `leftBy` by one that has done the same. -/
theorem leftBy_replace (htaken : taken is = taken record) (hgroup : is.group = record.group)
    (hdamage : ∀ unit, is.damageTo unit = record.damageTo unit) :
    board.leftBy taken (front ++ is :: back) = board.leftBy taken (front ++ record :: back) := by
  simp only [leftBy, List.any_append, List.any_cons, htaken, hgroup, damageFrom_replace hdamage]

/-- The guns that the hits of a group cost are there until it is done, and they are all that
    `cleared` takes off the `board` if the dead stay. -/
theorem cleared_eq {losses : Losses} (hremoval : record.group.removal = .returnToHost)
    (hthere : ∀ unit ∈ record.activeFiring, board.standsIn unit record.group.territory = true) :
    board.cleared record losses = if record.spent.isEmpty then board
      else (board.removeUnits record.group.territory record.spent).2 := by
  have hguns : record.activeFiring.filter (fun unit => board.standsIn unit record.group.territory) =
      record.activeFiring := List.filter_eq_self.2 hthere
  have hdead : board.withoutDead record losses = board := by
    rw [withoutDead, if_neg (by simp [hremoval])]
  rw [cleared, hdead, withoutSpent, Engine.spentGuns, hguns, GroupRecord.spent]
  by_cases hsuicide : record.group.suicideOnHit = true
  · rw [if_pos hsuicide]
    cases hhits : record.hits with
    | zero => simp
    | succ hits => cases hempty : (record.activeFiring.take (hits + 1)).isEmpty <;> simp [hsuicide]
  · simp [hsuicide]

/-- A group that had no `losses` marks its damage, by `markDamaged`. -/
theorem markDamaged_leftBy (hids : (board.units.map BoardUnit.id).Nodup) {losses : Losses}
    (hnone : record.losses = none) (hlosses : is.losses = some losses)
    (hgroup : is.group = record.group) (htaken : taken is = taken record)
    (hknown : ∀ entry ∈ losses.damaged,
      (board.leftBy taken (front ++ record :: back)).hasUnit entry.1 = true) :
    (markDamaged losses.damaged (board.leftBy taken (front ++ record :: back))).2 =
      board.leftBy taken (front ++ is :: back) := by
  have hdamage : (fun unit => damageFrom (front ++ record :: back) unit +
      Losses.damageIn losses.damaged unit) = damageFrom (front ++ is :: back) := by
    funext unit
    have his : is.damageTo unit = Losses.damageIn losses.damaged unit := by
      rw [GroupRecord.damageTo, hlosses]
      rfl
    simp only [damageFrom_append, damageFrom_cons, his,
      GroupRecord.damageTo_of_losses_none hnone]
    omega
  rw [leftBy, markDamaged_reduced hids hknown, hdamage]
  simp only [leftBy, List.any_append, List.any_cons, htaken, hgroup]

/-- A group that had `taken` nobody takes units off, by `removeUnits`. -/
theorem removeUnits_leftBy (hnames : (board.territories.map Territory.name).Nodup)
    (hnone : taken record = []) (hgroup : is.group = record.group)
    (hdamage : ∀ unit, is.damageTo unit = record.damageTo unit)
    (hknown : board.Knows record.group.territory) :
    ((board.leftBy taken (front ++ record :: back)).removeUnits record.group.territory
      (taken is)).2 = board.leftBy taken (front ++ is :: back) := by
  rw [leftBy, removeUnits_reduced hnames hknown, leftBy, damageFrom_replace hdamage]
  congr 1
  · funext unit
    simp only [List.any_append, List.any_cons, hnone, List.not_mem_nil, decide_false,
      Bool.false_or]
    cases front.any fun record => unit ∈ taken record <;>
      cases back.any fun record => unit ∈ taken record <;> simp
  · funext name unit
    simp only [List.any_append, List.any_cons, hnone, List.not_mem_nil, decide_false,
      Bool.and_false, Bool.false_or, hgroup]
    have hswap : decide (name = record.group.territory) = decide (record.group.territory = name) :=
      decide_eq_decide.2 eq_comm
    rw [hswap, Bool.or_assoc]
    congr 1
    rw [Bool.or_comm]

end Board

/-! ### The balance -/

/-- What groups that fire at moving units have done to a board since it was `origin`. No moving unit
    fires; no gun is spent twice; no unit survives as much damage as it had hit points; and a unit
    that a group has killed was not dead before and takes no damage after. -/
structure Balanced (origin : Board) (moving : List UnitId) (board : Board)
    (groups : List GroupRecord) : Prop where
  board : board = origin.leftBy GroupRecord.gone groups
  guns : ∀ record ∈ groups, record.group.removal = .returnToHost ∧
    ∀ unit ∈ record.group.firingUnits, unit ∉ moving
  stood : ∀ record ∈ groups, ∀ unit ∈ record.activeFiring,
    origin.standsIn unit record.group.territory = true
  once : groups.Pairwise fun earlier later => ∀ unit ∈ earlier.spent, unit ∉ later.spent
  room : ∀ unit, 0 < origin.hitPointsLeft unit →
    damageFrom groups unit < origin.hitPointsLeft unit
  alive : ∀ record ∈ groups, ∀ unit ∈ record.killed, 0 < origin.hitPointsLeft unit
  last : groups.Pairwise fun earlier later => ∀ unit ∈ earlier.killed, later.damageTo unit = 0

/-- One member of a list may be replaced if it stands to all others as the one before. -/
theorem pairwise_replace {α : Type} {R : α → α → Prop} {front back : List α} {a b : α}
    (h : (front ++ a :: back).Pairwise R) (hfront : ∀ c ∈ front, R c a → R c b)
    (hback : ∀ c ∈ back, R a c → R b c) : (front ++ b :: back).Pairwise R := by
  rw [List.pairwise_append, List.pairwise_cons] at h ⊢
  obtain ⟨hbefore, ⟨hfirst, hafter⟩, hacross⟩ := h
  refine ⟨hbefore, ⟨fun c hc => hback c hc (hfirst c hc), hafter⟩, fun c hc d hd => ?_⟩
  rcases List.mem_cons.1 hd with rfl | hd
  · exact hfront c hc (hacross c hc a List.mem_cons_self)
  · exact hacross c hc d (List.mem_cons_of_mem a hd)

/-- What holds of all members holds of all after one was replaced by another of which it holds. -/
theorem forall_mem_replace {α : Type} {P : α → Prop} {front back : List α} {a b : α}
    (h : ∀ c ∈ front ++ a :: back, P c) (hb : P a → P b) : ∀ c ∈ front ++ b :: back, P c := by
  have ha : P a := h a (by simp)
  intro c hc
  rcases List.mem_append.1 hc with hfront | hback
  · exact h c (List.mem_append_left _ hfront)
  · rcases List.mem_cons.1 hback with rfl | hback
    · exact hb ha
    · exact h c (List.mem_append_right _ (List.mem_cons_of_mem a hback))

namespace Balanced

/-- Nothing has been done yet, and that is `Balanced`. -/
theorem start (origin : Board) (moving : List UnitId) : Balanced origin moving origin [] where
  board := (origin.leftBy_nil _).symm
  guns := by simp
  stood := by simp
  once := .nil
  room _ hpoints := hpoints
  alive := by simp
  last := .nil

/-- To whom records are shown and where `groups` are on their way does not matter, unless they are
    done: `settled` records are as balanced. -/
theorem settled_iff : Balanced origin moving board (groups.map GroupRecord.settled) ↔
    Balanced origin moving board groups := by
  have hdamage : damageFrom (groups.map GroupRecord.settled) = damageFrom groups := by
    funext unit
    simp only [damageFrom, List.map_map, Function.comp_def]
    rfl
  have hleft : origin.leftBy GroupRecord.gone (groups.map GroupRecord.settled) =
      origin.leftBy GroupRecord.gone groups := by
    simp only [Board.leftBy, hdamage, List.any_map, Function.comp_def, GroupRecord.gone_settled]
    rfl
  -- Each part speaks of damage, guns and the dead only, which records keep when they are settled.
  constructor
  · intro h
    exact ⟨hleft ▸ h.board, List.forall_mem_map.1 h.guns, List.forall_mem_map.1 h.stood,
      List.pairwise_map.1 h.once, hdamage ▸ h.room, List.forall_mem_map.1 h.alive,
      List.pairwise_map.1 h.last⟩
  · intro h
    exact ⟨hleft.symm ▸ h.board, List.forall_mem_map.2 h.guns, List.forall_mem_map.2 h.stood,
      List.pairwise_map.2 h.once, hdamage.symm ▸ h.room, List.forall_mem_map.2 h.alive,
      List.pairwise_map.2 h.last⟩

/-- Groups that are entered, the `fresh` ones, have done nothing. -/
theorem opened (h : Balanced origin moving board groups) {fresh : List GroupRecord}
    (hfresh : ∀ record ∈ fresh, record = { id := record.id, group := record.group })
    (hguns : ∀ record ∈ fresh, record.group.removal = .returnToHost ∧
      ∀ unit ∈ record.group.firingUnits, unit ∉ moving) :
    Balanced origin moving board (groups ++ fresh) := by
  -- A record that is fresh has cost nothing and killed nobody.
  have hgone : ∀ record ∈ fresh, record.gone = [] ∧ record.spent = [] ∧ record.killed = [] ∧
      record.activeFiring = [] ∧ ∀ unit, record.damageTo unit = 0 := by
    intro record hrecord
    rw [hfresh record hrecord]
    exact ⟨rfl, GroupRecord.spent_of_dice_none rfl, rfl, rfl, fun _ => rfl⟩
  have hdamage (unit : UnitId) : damageFrom fresh unit = 0 :=
    damageFrom_eq_zero fun record hrecord => (hgone record hrecord).2.2.2.2 unit
  refine ⟨?_, ?_, ?_, ?_, ?_, ?_, ?_⟩
  · rw [Board.leftBy_append_blank (fun record hrecord => (hgone record hrecord).1)
      fun record hrecord => (hgone record hrecord).2.2.2.2]
    exact h.board
  · exact List.forall_mem_append.2 ⟨h.guns, hguns⟩
  · refine List.forall_mem_append.2 ⟨h.stood, fun record hrecord => ?_⟩
    simp [(hgone record hrecord).2.2.2.1]
  · refine List.pairwise_append.2 ⟨h.once, ?_, fun _ _ record hrecord => ?_⟩
    · refine List.pairwise_of_forall_mem_list fun record hrecord _ _ => ?_
      simp [(hgone record hrecord).2.1]
    · simp [(hgone record hrecord).2.1]
  · intro unit hpoints
    rw [damageFrom_append, hdamage unit, Nat.add_zero]
    exact h.room unit hpoints
  · refine List.forall_mem_append.2 ⟨h.alive, fun record hrecord => ?_⟩
    simp [(hgone record hrecord).2.2.1]
  · refine List.pairwise_append.2 ⟨h.last, ?_, fun _ _ record hrecord unit _ => ?_⟩
    · refine List.pairwise_of_forall_mem_list fun record hrecord _ _ => ?_
      simp [(hgone record hrecord).2.2.1]
    · exact (hgone record hrecord).2.2.2.2 unit

/-- A change of a `record` that leaves its losses alone keeps what is `Balanced`. -/
theorem replace {board' : Board} (h : Balanced origin moving board (front ++ record :: back))
    (hgroup : is.group = record.group) (hlosses : is.losses = record.losses)
    (hboard : board' = origin.leftBy GroupRecord.gone (front ++ is :: back))
    (hstood : ∀ unit ∈ is.activeFiring, origin.standsIn unit record.group.territory = true)
    (hfront : ∀ earlier ∈ front, ∀ unit ∈ earlier.spent, unit ∉ is.spent)
    (hback : ∀ later ∈ back, later.spent = []) :
    Balanced origin moving board' (front ++ is :: back) := by
  have hkilled : is.killed = record.killed := by rw [GroupRecord.killed, hlosses]; rfl
  have hdamage := GroupRecord.damageTo_congr hlosses
  -- The losses stay, so that all but the guns is as it was.
  refine ⟨hboard, ?_, ?_, ?_, ?_, ?_, ?_⟩
  · refine forall_mem_replace h.guns fun hguns => ?_
    rwa [hgroup]
  · refine forall_mem_replace h.stood fun _ => ?_
    rwa [hgroup]
  · refine pairwise_replace h.once (fun earlier hearlier _ => hfront earlier hearlier) ?_
    intro later hlater _
    simp [hback later hlater]
  · rw [damageFrom_replace hdamage]
    exact h.room
  · refine forall_mem_replace h.alive fun halive => ?_
    rwa [hkilled]
  · refine pairwise_replace h.last ?_ ?_
    · intro earlier _ hlast unit hunit
      rw [hdamage]
      exact hlast unit hunit
    · intro later _ hlast
      rwa [hkilled]

/-- Groups that have not begun, in `pendingRoll`, have `spent` nothing. -/
theorem spent_of_pendingRoll (hsound : ∀ other ∈ groups, other.Sound) :
    ∀ other ∈ groups, other.phase = .pendingRoll → other.spent = [] := by
  intro other hother hpending
  exact GroupRecord.spent_of_dice_none ((hsound other hother).blank hpending).1

/-- A group that rolls for guns that are there keeps what is `Balanced`. -/
theorem rolled (h : Balanced origin moving board (front ++ record :: back))
    (hsound : ∀ other ∈ front ++ record :: back, other.Sound)
    (hfront : ∀ earlier ∈ front, earlier.phase = .done)
    (hback : ∀ later ∈ back, later.phase = .pendingRoll) (hpending : record.phase = .pendingRoll)
    (hgroup : is.group = record.group) (hlosses : is.losses = record.losses)
    (hstand : ∀ unit ∈ is.activeFiring, board.standsIn unit record.group.territory = true)
    (hphase : is.phase ≠ .done) : Balanced origin moving board (front ++ is :: back) := by
  have hgone : is.gone = record.gone := by
    rw [GroupRecord.gone_of_not_done hphase, GroupRecord.gone_of_not_done (by simp [hpending])]
  refine h.replace hgroup hlosses (h.board.trans (Board.leftBy_replace hgone hgroup
    (GroupRecord.damageTo_congr hlosses)).symm) ?_ ?_ ?_
  · intro unit hunit
    have hstands := hstand unit hunit
    rw [h.board] at hstands
    exact (Board.standsIn_reduced hstands).2
  · -- What the groups before it have spent is not there any more.
    intro earlier hearlier unit hspent his
    have hstands := hstand unit (GroupRecord.mem_of_mem_spent his)
    rw [h.board] at hstands
    have hhas := (Bool.and_eq_true_iff.1 hstands).1
    have habsent := Board.not_mem_taken hhas earlier (List.mem_append_left _ hearlier)
    rw [GroupRecord.gone_of_done (hfront earlier hearlier)] at habsent
    exact habsent hspent
  · intro later hlater
    have hmem : later ∈ front ++ record :: back :=
      List.mem_append_right _ (List.mem_cons_of_mem record hlater)
    exact spent_of_pendingRoll hsound later hmem (hback later hlater)

/-- A group that is done because there is nothing to do keeps what is `Balanced`. -/
theorem idled (h : Balanced origin moving board (front ++ record :: back))
    (hsound : ∀ other ∈ front ++ record :: back, other.Sound)
    (hback : ∀ later ∈ back, later.phase = .pendingRoll) (hpending : record.phase = .pendingRoll)
    (hgroup : is.group = record.group) (hlosses : is.losses = record.losses)
    (hfiring : is.activeFiring = record.activeFiring) (hspent : is.spent = record.spent)
    (hdone : is.phase = .done) : Balanced origin moving board (front ++ is :: back) := by
  have hrecord : record ∈ front ++ record :: back := by simp
  have hnobody : is.spent = [] :=
    hspent.trans (spent_of_pendingRoll hsound record hrecord hpending)
  have hgone : is.gone = record.gone := by
    rw [GroupRecord.gone_of_done hdone, GroupRecord.gone_of_not_done (by simp [hpending]), hnobody]
  refine h.replace hgroup hlosses (h.board.trans (Board.leftBy_replace hgone hgroup
    (GroupRecord.damageTo_congr hlosses)).symm) ?_ ?_ ?_
  · rw [hfiring]
    exact h.stood record hrecord
  · simp [hnobody]
  · intro later hlater
    have hmem : later ∈ front ++ record :: back :=
      List.mem_append_right _ (List.mem_cons_of_mem record hlater)
    exact spent_of_pendingRoll hsound later hmem (hback later hlater)

/-- A group that selects `losses` among `targets`, none of whom a group before it has killed, keeps
    what is `Balanced`. -/
theorem selected (hids : (origin.units.map BoardUnit.id).Nodup) {targets : List Target}
    {losses : Losses} {hits : Nat}
    (h : Balanced origin moving board (front ++ record :: back))
    (hback : ∀ later ∈ back, later.losses = none) (hnone : record.losses = none)
    (hphase : record.phase ≠ .done) (hisPhase : is.phase ≠ .done)
    (hgroup : is.group = record.group) (hspent : is.spent = record.spent)
    (hfiring : is.activeFiring = record.activeFiring) (hlosses : is.losses = some losses)
    (htargets : board.targets record.validTargets = .ok targets)
    (hcheck : losses.check targets hits = .ok ())
    (halive : ∀ earlier ∈ front, ∀ unit ∈ earlier.killed, unit ∉ record.validTargets) :
    Balanced origin moving (Board.markDamaged losses.damaged board).2 (front ++ is :: back) := by
  have hvalid := Losses.valid_of_check hcheck
  have hexact := Losses.exact_of_check htargets hcheck
  have hgone : is.gone = record.gone := by
    rw [GroupRecord.gone_of_not_done hphase, GroupRecord.gone_of_not_done hisPhase]
  have hknown := Engine.hasUnit_of_damaged htargets hvalid
  have hboard := h.board
  have hdistinct : (losses.damaged.map Prod.fst).Nodup := (List.nodup_append.1 hvalid.nodup).2.1
  have hdamage (unit : UnitId) : is.damageTo unit = Losses.damageIn losses.damaged unit := by
    rw [GroupRecord.damageTo, hlosses]
    rfl
  have hkilled : is.killed = losses.killed := by
    rw [GroupRecord.killed, hlosses]
    rfl
  refine ⟨?_, ?_, ?_, ?_, ?_, ?_, ?_⟩
  · subst hboard
    exact Board.markDamaged_leftBy hids hnone hlosses hgroup hgone hknown
  · refine forall_mem_replace h.guns fun hguns => ?_
    rwa [hgroup]
  · refine forall_mem_replace h.stood fun hstood => ?_
    rwa [hgroup, hfiring]
  · refine pairwise_replace h.once ?_ ?_
    · intro earlier _ honce
      rwa [hspent]
    · intro later _ honce
      rwa [hspent]
  · intro unit hpoints
    have hroom := h.room unit hpoints
    have htotal : damageFrom (front ++ is :: back) unit =
        damageFrom (front ++ record :: back) unit + Losses.damageIn losses.damaged unit := by
      simp only [damageFrom_append, damageFrom_cons, hdamage unit,
        GroupRecord.damageTo_of_losses_none hnone]
      omega
    rw [htotal]
    rcases Losses.damageIn_cases hdistinct unit with hzero | ⟨taken, hentry, htaken⟩
    · omega
    · -- Whoever survives has hit points left after it.
      have hsurvives := hexact.survive _ hentry
      have hhas := hknown _ hentry
      rw [hboard] at hsurvives hhas
      rw [Board.hitPointsLeft_leftBy hhas] at hsurvives
      dsimp only at hsurvives
      omega
  · refine forall_mem_replace h.alive fun _ => ?_
    rw [hkilled]
    intro unit hunit
    -- A target has hit points left, so that it had some at first.
    obtain ⟨target, htarget, rfl⟩ := List.mem_map.1 (hvalid.killed unit hunit)
    have hpos := Board.hitPoints_pos_of_targets htargets target htarget
    have hhas : board.hasUnit target.unit = true := by
      refine Board.hasUnit_of_targets htargets _ ?_
      exact (Board.map_unit_targets_sublist htargets).subset (List.mem_map_of_mem htarget)
    rw [(Board.hitPoints_targets htargets).1 target htarget, hboard] at hpos
    rw [hboard] at hhas
    rw [Board.hitPointsLeft_leftBy hhas] at hpos
    omega
  · refine pairwise_replace h.last ?_ ?_
    · intro earlier hearlier _ unit hunit
      rw [hdamage]
      refine Losses.damageIn_eq_zero fun entry hentry hsame => ?_
      -- Whom a group before it has killed is not among its targets.
      obtain ⟨target, htarget, hunit', -⟩ := hvalid.damaged entry hentry
      refine halive earlier hearlier unit hunit ?_
      have hmem := (Board.map_unit_targets_sublist htargets).subset (List.mem_map_of_mem htarget)
      rwa [hunit', hsame] at hmem
    · intro later hlater _ unit _
      exact GroupRecord.damageTo_of_losses_none (hback later hlater) unit

/-- A group that is done, with the guns that its hits cost taken off by `cleared`, keeps what is
    `Balanced`. -/
theorem cleared (hnames : (origin.territories.map Territory.name).Nodup)
    (h : Balanced origin moving board (front ++ record :: back)) (losses : Losses)
    (hback : ∀ later ∈ back, later.spent = []) (hphase : record.phase ≠ .done)
    (hdone : is.phase = .done) (hgroup : is.group = record.group)
    (hspent : is.spent = record.spent) (hlosses : is.losses = record.losses)
    (hfiring : is.activeFiring = record.activeFiring)
    (hthere : ∀ unit ∈ record.activeFiring, board.standsIn unit record.group.territory = true) :
    Balanced origin moving (board.cleared record losses) (front ++ is :: back) := by
  have hrecord : record ∈ front ++ record :: back := by simp
  have hnone : record.gone = [] := GroupRecord.gone_of_not_done hphase
  have hgone : is.gone = record.spent := (GroupRecord.gone_of_done hdone).trans hspent
  have hdamage := GroupRecord.damageTo_congr hlosses
  have hleft : board.cleared record losses =
      origin.leftBy GroupRecord.gone (front ++ is :: back) := by
    rw [Board.cleared_eq (h.guns record hrecord).1 hthere]
    cases hempty : record.spent.isEmpty with
    | true =>
      have hnobody : record.spent = [] := List.isEmpty_iff.1 hempty
      rw [if_pos rfl, Board.leftBy_replace (hgone.trans (hnobody.trans hnone.symm)) hgroup hdamage]
      exact h.board
    | false =>
      -- A gun that is spent had stood in the territory, which is on the board therefore.
      obtain ⟨unit, hunit⟩ := List.exists_mem_of_ne_nil record.spent (by simpa using hempty)
      have hstood := h.stood record hrecord unit (GroupRecord.mem_of_mem_spent hunit)
      obtain ⟨territory, hterritory⟩ := Board.territory?_isSome_of_standsIn hstood
      have hknown : origin.Knows record.group.territory :=
        Option.isSome_iff_exists.2 ⟨territory, hterritory⟩
      rw [if_neg (by simp), h.board, ← hgone]
      exact Board.removeUnits_leftBy hnames hnone hgroup hdamage hknown
  refine h.replace hgroup hlosses hleft ?_ ?_ hback
  · rw [hfiring]
    exact h.stood record hrecord
  · intro earlier hearlier
    rw [hspent]
    exact (List.pairwise_append.1 h.once).2.2 earlier hearlier record List.mem_cons_self

end Balanced

end Flak
