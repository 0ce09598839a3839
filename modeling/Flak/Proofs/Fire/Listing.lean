import Flak.Proofs.Fire.Allegiance
import Mathlib

namespace Flak

/-!
# The order in which moving units are listed

Moving units are put in order before anything is aimed at them, so that it does not matter in which
order they are listed:

* `Overflight.inOrder_of_perm` — by default there is one order only for units with different numbers;
* `Board.firingTerritories_of_perm` — where anti-air fires depends on which units move;
* `Overflight.fireAlong_of_perm` — fire at a move is the same however its units are listed, as long
  as all are known and the acting player owns one of them.
-/

variable {ρ : Type} {board : Board} {units units' : List BoardUnit} {ids ids' : List UnitId}

/-! ### One order only -/

/-- By `leastMovementFirst` a unit is not behind another if it has less movement left, or the same
    and no higher number. -/
theorem BoardUnit.leastMovementFirst_ne_gt (a b : BoardUnit) :
    leastMovementFirst a b ≠ .gt ↔ a.movementLeft < b.movementLeft ∨
      a.movementLeft = b.movementLeft ∧ a.id.number ≤ b.id.number := by
  unfold leastMovementFirst
  rcases Nat.lt_trichotomy a.movementLeft b.movementLeft with hlt | heq | hgt
  · simp [Nat.compare_eq_lt.2 hlt, hlt]
  · simp [heq, Nat.compare_ne_gt]
  · have hnot : ¬ a.movementLeft < b.movementLeft := by omega
    have hne : a.movementLeft ≠ b.movementLeft := by omega
    simp [Nat.compare_eq_gt.2 hgt, hnot, hne]

/-- Units that `leastMovementFirst` puts before each other have the same number. -/
theorem BoardUnit.id_of_leastMovementFirst {a b : BoardUnit} (hab : leastMovementFirst a b ≠ .gt)
    (hba : leastMovementFirst b a ≠ .gt) : a.id = b.id := by
  rw [leastMovementFirst_ne_gt] at hab hba
  have hnumber : a.id.number = b.id.number := by omega
  exact congrArg UnitId.mk hnumber

namespace Overflight

/-- Units put in order by `leastMovementFirst` are in that order. -/
theorem pairwise_inOrder (units : List BoardUnit) :
    (inOrder BoardUnit.leastMovementFirst units).Pairwise fun a b =>
      BoardUnit.leastMovementFirst a b ≠ .gt := by
  refine (List.pairwise_mergeSort ?_ ?_ units).imp fun h => of_decide_eq_true h
  · intro a b c hab hbc
    simp only [decide_eq_true_eq, BoardUnit.leastMovementFirst_ne_gt] at hab hbc ⊢
    omega
  · intro a b
    simp only [Bool.or_eq_true, decide_eq_true_eq, BoardUnit.leastMovementFirst_ne_gt]
    omega

/-- By `leastMovementFirst` there is one order for `units` of which no two have the same number. -/
theorem inOrder_of_perm (hperm : units.Perm units')
    (hnumbers : ∀ a ∈ units, ∀ b ∈ units, a.id = b.id → a = b) :
    inOrder BoardUnit.leastMovementFirst units = inOrder BoardUnit.leastMovementFirst units' := by
  have hfirst : (inOrder BoardUnit.leastMovementFirst units).Perm units := List.mergeSort_perm _ _
  have hsecond : (inOrder BoardUnit.leastMovementFirst units').Perm units' :=
    List.mergeSort_perm _ _
  apply @List.Perm.eq_of_pairwise _ fun a b => BoardUnit.leastMovementFirst a b ≠ .gt
  · intro a b ha hb hab hba
    have hmem : a ∈ units := hfirst.mem_iff.1 ha
    have hmem' : b ∈ units := hperm.mem_iff.2 (hsecond.mem_iff.1 hb)
    exact hnumbers a hmem b hmem' (BoardUnit.id_of_leastMovementFirst hab hba)
  · exact pairwise_inOrder units
  · exact pairwise_inOrder units'
  · exact hfirst.trans (hperm.trans hsecond.symm)

end Overflight

/-! ### Where anti-air fires -/

namespace Board

/-- Units that are all known are found by `findUnits`. -/
theorem findUnits_of_known (hknown : ∀ id ∈ ids, board.hasUnit id = true) :
    board.findUnits ids = .ok (ids.filterMap board.unit?) := by
  induction ids with
  | nil => rfl
  | cons id rest ih =>
    obtain ⟨hhead, hrest⟩ := List.forall_mem_cons.1 hknown
    obtain ⟨unit, hunit⟩ := Option.isSome_iff_exists.1 hhead
    have hfirst : board.unit id = .ok unit := by simp only [Board.unit, hunit]
    have hothers : rest.mapM board.unit = .ok (rest.filterMap board.unit?) := ih hrest
    rw [findUnits, List.mapM_cons, hfirst, hothers, List.filterMap_cons_some hunit]
    rfl

/-- Units found by `unit?` differ if they are two. -/
theorem eq_of_mem_filterMap_unit? {a b : BoardUnit} (ha : a ∈ ids.filterMap board.unit?)
    (hb : b ∈ ids.filterMap board.unit?) (h : a.id = b.id) : a = b := by
  have hfound {unit : BoardUnit} (hunit : unit ∈ ids.filterMap board.unit?) :
      board.unit? unit.id = some unit := by
    obtain ⟨id, -, hid⟩ := List.mem_filterMap.1 hunit
    have hsame : unit.id = id := by simpa using List.find?_some hid
    rw [hsame, hid]
  have hsome : some a = some b := by rw [← hfound ha, ← hfound hb, h]
  exact Option.some.inj hsome

/-- Whether a gun can fire does not depend on the order of those who move, the `units`. -/
theorem canFireAt_of_perm (hperm : units.Perm units') (player : PlayerId) :
    board.canFireAt units player = board.canFireAt units' player := by
  ext id
  simp only [canFireAt, hperm.any_eq]

/-- Nor does it matter for the territories that fire, by `firingAmong`. -/
theorem firingAmong_of_perm (hperm : units.Perm units') (player : PlayerId)
    (territories : List String) :
    board.firingAmong units player territories = board.firingAmong units' player territories := by
  induction territories with
  | nil => rfl
  | cons territory rest ih =>
    simp only [firingAmong, firesAt, canFireAt_of_perm hperm, ih]

/-- The `firingTerritories` are the same for the same units, if these fight for the same player. -/
theorem firingTerritories_of_perm {acting : PlayerId} (hperm : ids.Perm ids')
    (hknown : ∀ id ∈ ids, board.hasUnit id = true)
    (hplayer : movingPlayer acting (ids.filterMap board.unit?) =
      movingPlayer acting (ids'.filterMap board.unit?)) (route : Route) :
    board.firingTerritories acting route ids = board.firingTerritories acting route ids' := by
  have hknown' : ∀ id ∈ ids', board.hasUnit id = true := fun id hid =>
    hknown id (hperm.mem_iff.2 hid)
  have hunits : (ids.filterMap board.unit?).Perm (ids'.filterMap board.unit?) := hperm.filterMap _
  unfold firingTerritories
  rw [findUnits_of_known hknown, findUnits_of_known hknown']
  simp only [bind, Except.bind, hplayer, firingAmong_of_perm hunits]

end Board

/-! ### Fire at a move -/

namespace Overflight

/-- Units of which the `acting` player owns one fight for that player, however they are listed. -/
theorem movingPlayer_of_perm {acting : PlayerId} (hperm : ids.Perm ids')
    (howner : ∃ id ∈ ids, ∃ unit, board.unit? id = some unit ∧ unit.owner = acting) :
    movingPlayer acting (ids.filterMap board.unit?) =
      movingPlayer acting (ids'.filterMap board.unit?) := by
  obtain ⟨id, hid, unit, hunit, hacting⟩ := howner
  have hmem : unit ∈ ids.filterMap board.unit? := List.mem_filterMap.2 ⟨id, hid, hunit⟩
  have hmem' : unit ∈ ids'.filterMap board.unit? := (hperm.filterMap _).mem_iff.1 hmem
  rw [movingPlayer_of_mem hmem hacting, movingPlayer_of_mem hmem' hacting]

/-- What `prepare` makes of a move does not depend on the order of the units that it is given. -/
theorem prepare_of_perm {host : Host ρ} (hperm : ids.Perm ids')
    (hknown : ∀ id ∈ ids, host.board.hasUnit id = true)
    (howner : ∃ id ∈ ids, ∃ unit, host.board.unit? id = some unit ∧ unit.owner = host.player)
    (fire : Overflight) (route : Route) :
    fire.prepare host route ids BoardUnit.leastMovementFirst =
      fire.prepare host route ids' BoardUnit.leastMovementFirst := by
  have hknown' : ∀ id ∈ ids', host.board.hasUnit id = true := fun id hid =>
    hknown id (hperm.mem_iff.2 hid)
  have hterritories := Board.firingTerritories_of_perm hperm hknown
    (movingPlayer_of_perm hperm howner) route
  have horder : inOrder BoardUnit.leastMovementFirst (ids.filterMap host.board.unit?) =
      inOrder BoardUnit.leastMovementFirst (ids'.filterMap host.board.unit?) :=
    inOrder_of_perm (hperm.filterMap _) fun _ ha _ hb => Board.eq_of_mem_filterMap_unit? ha hb
  unfold prepare
  simp only [hterritories, Board.findUnits_of_known hknown, Board.findUnits_of_known hknown',
    bind, Except.bind, horder]

variable [RandomSource ρ]

/-- Fire at a move does not depend on the order in which its `units` are listed, if all of them are
    known and the acting player owns one: `prepare` makes the same of it, and `fireAlong` comes to
    the same, with the same ledger, move and host after it. -/
theorem fireAlong_of_perm {host : Host ρ} {units units' : List UnitId}
    (hperm : units.Perm units') (hknown : ∀ id ∈ units, host.board.hasUnit id = true)
    (howner : ∃ id ∈ units, ∃ unit, host.board.unit? id = some unit ∧ unit.owner = host.player)
    (fire : Overflight) (route : Route) (handle : MoveHandle) :
    fire.prepare host route units BoardUnit.leastMovementFirst =
        fire.prepare host route units' BoardUnit.leastMovementFirst ∧
      fire.fireAlong host route units BoardUnit.leastMovementFirst handle =
        fire.fireAlong host route units' BoardUnit.leastMovementFirst handle := by
  have hprepare := prepare_of_perm hperm hknown howner fire route
  refine ⟨hprepare, ?_⟩
  unfold fireAlong
  rw [hprepare]

/-- The two bombers of the `Convoy` over the gun, moved by the owner of one of them. -/
theorem fireAlong_of_perm_convoy :
    let host : Host ScriptedDice := { Convoy.host with player := ⟨"Reds"⟩ }
    Overflight.prepare {} host Sortie.route [⟨1⟩, ⟨3⟩] BoardUnit.leastMovementFirst =
        Overflight.prepare {} host Sortie.route [⟨3⟩, ⟨1⟩] BoardUnit.leastMovementFirst ∧
      Overflight.fireAlong {} host Sortie.route [⟨1⟩, ⟨3⟩] BoardUnit.leastMovementFirst {} =
        Overflight.fireAlong {} host Sortie.route [⟨3⟩, ⟨1⟩] BoardUnit.leastMovementFirst {} :=
  fireAlong_of_perm (List.Perm.swap _ _ _) (by decide)
    ⟨⟨1⟩, List.mem_cons_self, Sortie.bomber, rfl, rfl⟩ {} Sortie.route {}

end Overflight

end Flak
