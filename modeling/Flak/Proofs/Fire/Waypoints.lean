import Flak.Proofs.Board.Reach
import Flak.Proofs.Board.Wear
import Flak.Proofs.Fire.Course
import Mathlib.Data.List.Basic

namespace Flak

/-!
# The order in which the territories of a route fire

Anti-air fires at the steps of a route in its order, but for the start: where that fires, it comes
after all other steps.

* `Route.steps_eq` — a route is its start, its middle and its end;
* `Board.HoldsFire`, `Board.firingAmong_eq_ok` — the territories of a list that fire;
* `Board.stepsUnderFire` — the steps of a route where anti-air may fire, in the order of the route;
* `Board.firingTerritories_eq_ok`, `Board.firesAt_of_mem_firingTerritories` — what is found when all
  that is looked up is known;
* `Board.firingTerritories_in_turn` — how this differs from the order of the route;
* `Hop`, `Board.not_in_route_order` — a route on which it does.
-/

namespace Route

/-- The `route` of more than one step is its start, its middle and its end. -/
theorem steps_eq {route : Route} (h : route.steps.tail ≠ []) :
    route.steps = route.start :: (route.middle ++ [route.finish]) := by
  have hfinish : route.finish = route.steps.tail.getLast h := by
    unfold finish
    exact (List.getLast_tail h).symm
  rw [middle, hfinish, List.dropLast_concat_getLast, start, List.cons_head_tail]

end Route

namespace Board

variable {board : Board} {moving : List BoardUnit} {player acting : PlayerId} {route : Route}
  {units : List UnitId} {name : String} {names firing : List String}

/-! ### Territories that fire -/

/-- A known territory, called `name`, with a unit that is able to fire at those who move. -/
def HoldsFire (board : Board) (moving : List BoardUnit) (player : PlayerId) (name : String) :
    Prop :=
  ∃ territory, board.territory? name = some territory ∧
    ∃ gun ∈ territory.units, board.AbleToFire moving player gun

theorem any_canFireAt_iff {territory : Territory} :
    territory.units.any (board.canFireAt moving player) = true ↔
      ∃ gun ∈ territory.units, board.AbleToFire moving player gun := by
  simp only [List.any_eq_true, canFireAt_iff]

instance (board : Board) (moving : List BoardUnit) (player : PlayerId) (name : String) :
    Decidable (board.HoldsFire moving player name) :=
  decidable_of_iff ((board.territory? name).any fun territory =>
      territory.units.any (board.canFireAt moving player)) <| by
    simp only [Option.any_eq_true, any_canFireAt_iff, HoldsFire]

/-- A territory can be asked by `firesAt` whether it `fires` if it is known. -/
theorem firesAt_eq_ok {fires : Bool} :
    board.firesAt moving player name = .ok fires ↔
      board.Knows name ∧ fires = decide (board.HoldsFire moving player name) := by
  unfold firesAt
  cases hfound : board.territory? name with
  | none => simp [territory, Knows, hfound, bind, Except.bind]
  | some territory =>
    have hfires : decide (board.HoldsFire moving player name) =
        territory.units.any (board.canFireAt moving player) := by
      rw [Bool.eq_iff_iff, decide_eq_true_eq, any_canFireAt_iff]
      simp [HoldsFire, hfound]
    simp [Board.territory, Knows, hfound, bind, Except.bind, pure, Except.pure, hfires, eq_comm]

/-- Of known territories `firingAmong` finds those that hold fire. -/
theorem firingAmong_eq_ok :
    board.firingAmong moving player names = .ok firing ↔
      (∀ name ∈ names, board.Knows name) ∧
        firing = names.filter fun name => board.HoldsFire moving player name := by
  -- By induction on the names, which are asked one after another.
  induction names generalizing firing with
  | nil => simp [firingAmong, eq_comm]
  | cons name rest ih =>
    constructor
    · intro h
      obtain ⟨fires, hfires, hothers⟩ := Fault.exists_of_bind h
      obtain ⟨others, hrest, hfiring⟩ := Fault.exists_of_bind hothers
      obtain ⟨hknown, rfl⟩ := firesAt_eq_ok.1 hfires
      obtain ⟨hrestKnown, rfl⟩ := ih.1 hrest
      obtain rfl := Except.ok.inj hfiring
      refine ⟨List.forall_mem_cons.2 ⟨hknown, hrestKnown⟩, ?_⟩
      rw [List.filter_cons]
    · rintro ⟨hall, rfl⟩
      obtain ⟨hknown, hrestKnown⟩ := List.forall_mem_cons.1 hall
      rw [firingAmong, firesAt_eq_ok.2 ⟨hknown, rfl⟩, ih.2 ⟨hrestKnown, rfl⟩, List.filter_cons]
      rfl

/-! ### Along a route -/

/-- The start of the `route`, if anti-air may fire there: where no battle was fought, unless the
    rules force fire at the end instead. -/
def startUnderFire (board : Board) (route : Route) : List String :=
  if board.rules.forceLastStep || board.wasBattleFoughtIn route.start then [] else [route.start]

/-- The steps of the `route` behind its start where anti-air may fire: those in the middle, and the
    last if the rules force fire there. -/
def restUnderFire (board : Board) (route : Route) : List String :=
  route.middle ++ if board.rules.forceLastStep then [route.finish] else []

/-- The steps of a `route` where anti-air may fire, in the order of the route. -/
def stepsUnderFire (board : Board) (route : Route) : List String :=
  board.startUnderFire route ++ board.restUnderFire route

/-- The `startUnderFire` is the start, if it is anything. -/
theorem startUnderFire_sublist (board : Board) (route : Route) :
    (board.startUnderFire route).Sublist [route.start] := by
  unfold startUnderFire
  split
  · exact List.nil_sublist _
  · exact List.Sublist.refl _

/-- The `stepsUnderFire` are steps of the `route`, in its order. -/
theorem stepsUnderFire_sublist (board : Board) (route : Route) :
    (board.stepsUnderFire route).Sublist route.steps := by
  unfold stepsUnderFire restUnderFire
  by_cases hshort : route.steps.tail = []
  · -- The only step is start and end, and not both may fire.
    have hmiddle : route.middle = [] := by rw [Route.middle, hshort, List.dropLast_nil]
    have hstart : [route.start].Sublist route.steps := List.singleton_sublist.2 (List.head_mem _)
    have hfinish : [route.finish].Sublist route.steps :=
      List.singleton_sublist.2 (List.getLast_mem _)
    rw [hmiddle, List.nil_append]
    split
    · rename_i hforced
      simpa [startUnderFire, hforced] using hfinish
    · rw [List.append_nil]
      exact (startUnderFire_sublist board route).trans hstart
  · rw [Route.steps_eq hshort]
    apply List.Sublist.append (startUnderFire_sublist board route)
    apply List.Sublist.append (List.Sublist.refl _)
    split
    · exact List.Sublist.refl _
    · exact List.nil_sublist _

/-- Fire at fly-overs is switched off by the rules, or in a move that is no combat move. -/
theorem flyOverFires_eq_false_iff :
    board.flyOverFires = false ↔ board.rules.alwaysOn = false ∧
      (board.rules.territoryRestricted = true ∨ board.phase = .nonCombat) := by
  unfold flyOverFires
  cases board.rules.alwaysOn <;> cases board.rules.territoryRestricted <;> cases board.phase <;>
    simp

/-- Where fire at fly-overs is on, the territories that fire are those on the `route` that hold
    fire, with the start behind the others. -/
theorem firingTerritories_eq_ok (hon : board.flyOverFires = true)
    (h : board.firingTerritories acting route units = .ok firing) :
    ∃ moving, board.findUnits units = .ok moving ∧
      firing = (board.restUnderFire route ++ board.startUnderFire route).filter fun name =>
        board.HoldsFire moving (movingPlayer acting moving) name := by
  rw [firingTerritories, if_pos hon] at h
  obtain ⟨moving, hmoving, hplayer⟩ := Fault.exists_of_bind h
  obtain ⟨middle, hmiddle, hends⟩ := Fault.exists_of_bind hplayer
  obtain ⟨-, rfl⟩ := firingAmong_eq_ok.1 hmiddle
  refine ⟨moving, hmoving, ?_⟩
  by_cases hforced : board.rules.forceLastStep = true
  · rw [if_pos hforced] at hends
    obtain ⟨finish, hfinish, hfiring⟩ := Fault.exists_of_bind hends
    obtain ⟨-, rfl⟩ := firingAmong_eq_ok.1 hfinish
    obtain rfl := Except.ok.inj hfiring
    simp [restUnderFire, startUnderFire, hforced]
  · rw [if_neg hforced] at hends
    obtain ⟨start, hstart, hfiring⟩ := Fault.exists_of_bind hends
    obtain ⟨-, rfl⟩ := firingAmong_eq_ok.1 hstart
    obtain rfl := Except.ok.inj hfiring
    have hopen : [route.start].filter (fun name => !board.wasBattleFoughtIn name) =
        board.startUnderFire route := by
      by_cases hfought : board.wasBattleFoughtIn route.start = true
      · simp [startUnderFire, hfought]
      · simp [startUnderFire, hfought, hforced]
    -- Whether a battle was fought is asked after whether the start fires, which is all the same.
    rw [List.filter_filter, List.filter_append, restUnderFire, if_neg hforced, List.append_nil,
      ← hopen, List.filter_filter]
    simp only [Bool.and_comm]

/-- Territories that are found, the `firing` ones, have been asked whether they fire. -/
theorem firesAt_of_mem_firingTerritories (h : board.firingTerritories acting route units = .ok firing)
    (hname : name ∈ firing) :
    ∃ moving, board.findUnits units = .ok moving ∧
      board.firesAt moving (movingPlayer acting moving) name = .ok true := by
  by_cases hon : board.flyOverFires = true
  · obtain ⟨moving, hmoving, rfl⟩ := firingTerritories_eq_ok hon h
    have hholds := of_decide_eq_true (List.mem_filter.1 hname).2
    refine ⟨moving, hmoving, firesAt_eq_ok.2 ⟨?_, (decide_eq_true hholds).symm⟩⟩
    obtain ⟨territory, hfound, -⟩ := hholds
    exact Option.isSome_iff_exists.2 ⟨territory, hfound⟩
  · rw [firingTerritories, if_neg hon] at h
    obtain rfl := Except.ok.inj h
    simp at hname

/-- Territories that are found, the `firing` ones, are on the `board`. -/
theorem knows_of_firingTerritories (h : board.firingTerritories acting route units = .ok firing) :
    ∀ name ∈ firing, board.Knows name := by
  intro name hname
  obtain ⟨moving, -, hfires⟩ := firesAt_of_mem_firingTerritories h hname
  exact (firesAt_eq_ok.1 hfires).1

/-- A list with its `first` element moved to the end is the same just if it repeats that element. -/
theorem append_singleton_eq_cons_iff {first : String} {others : List String} :
    others ++ [first] = first :: others ↔ ∀ other ∈ others, other = first := by
  induction others with
  | nil => simp
  | cons other rest ih =>
    rw [List.cons_append, List.cons.injEq, List.forall_mem_cons]
    apply and_congr_right
    rintro rfl
    exact ih

/-- Nothing fires where fire at fly-overs is switched off. Where it is not, those of the
    `stepsUnderFire` fire that hold fire, in the order of the `route` but for its start, which comes
    behind the others. So the order is that of the route just if the start is not among them or
    nothing else is. -/
theorem firingTerritories_in_turn (h : board.firingTerritories acting route units = .ok firing) :
    (board.rules.alwaysOn = false →
      board.rules.territoryRestricted = true ∨ board.phase = .nonCombat → firing = []) ∧
    (board.rules.alwaysOn = true ∨
        board.rules.territoryRestricted = false ∧ board.phase = .combat →
      ∃ moving, board.findUnits units = .ok moving ∧
        let fires := fun name => decide (board.HoldsFire moving (movingPlayer acting moving) name)
        let first := (board.startUnderFire route).filter fires
        let others := (board.restUnderFire route).filter fires
        let inTurn := (board.stepsUnderFire route).filter fires
        (board.stepsUnderFire route).Sublist route.steps ∧ firing.Perm inTurn ∧
          firing = others ++ first ∧
          (firing = inTurn ↔ ∀ start ∈ first, ∀ other ∈ others, other = start)) := by
  refine ⟨fun hoff hwhy => ?_, fun hon => ?_⟩
  · have hsilent := flyOverFires_eq_false_iff.2 ⟨hoff, hwhy⟩
    rw [firingTerritories, if_neg (by simp [hsilent])] at h
    exact (Except.ok.inj h).symm
  · have hfires : board.flyOverFires = true := by
      unfold flyOverFires
      rcases hon with hon | ⟨hfree, hcombat⟩
      · rw [hon, Bool.true_or]
      · simp [hfree, hcombat]
    obtain ⟨moving, hmoving, rfl⟩ := firingTerritories_eq_ok hfires h
    refine ⟨moving, hmoving, ?_⟩
    intro fires first others inTurn
    have hinTurn : inTurn = first ++ others := List.filter_append _ _
    have hfirst : first.Sublist [route.start] :=
      List.filter_sublist.trans (startUnderFire_sublist board route)
    rw [List.filter_append, hinTurn]
    refine ⟨stepsUnderFire_sublist board route, List.perm_append_comm, rfl, ?_⟩
    show others ++ first = first ++ others ↔ _
    -- Either the start does not fire, or it fires and is alone in front.
    rcases List.sublist_singleton.1 hfirst with hnone | hstart
    · simp [hnone]
    · rw [hstart, List.forall_mem_singleton]
      exact append_singleton_eq_cons_iff

end Board

/-! ### A gun at the start -/

namespace Hop

/-- A `route` of one hop, with a territory on the way. -/
def route : Route := ⟨["Home", "Fort", "Goal"], by simp⟩

/-- A `board` with a gun where the bomber starts and one on its way. -/
def board : Board := { Sortie.board with
  units := Sortie.board.units ++ [⟨⟨3⟩, "Gun", ⟨"Blues"⟩, 0, 0, false, none⟩]
  territories := [⟨"Home", ⟨"Reds"⟩, [⟨1⟩, ⟨2⟩]⟩, ⟨"Fort", ⟨"Blues"⟩, [⟨3⟩]⟩,
    ⟨"Goal", ⟨"Reds"⟩, []⟩] }

/-- The gun at the start, in Home, fires last. -/
theorem firingTerritories_eq :
    board.firingTerritories ⟨"Reds"⟩ route [⟨1⟩] = .ok ["Fort", "Home"] := rfl

end Hop

namespace Board

/-- In the `Hop` the start is among the territories that fire, and so is another. -/
theorem firingTerritories_in_turn_hop :
    ∃ moving, Hop.board.firingTerritories ⟨"Reds"⟩ Hop.route [⟨1⟩] = .ok ["Fort", "Home"] ∧
      Hop.board.findUnits [⟨1⟩] = .ok moving ∧ ["Fort", "Home"].Perm
        ((Hop.board.stepsUnderFire Hop.route).filter fun name =>
          Hop.board.HoldsFire moving (movingPlayer ⟨"Reds"⟩ moving) name) := by
  obtain ⟨moving, hmoving, -, hperm, -, -⟩ :=
    (firingTerritories_in_turn Hop.firingTerritories_eq).2 (.inr ⟨rfl, rfl⟩)
  exact ⟨moving, rfl, hmoving, hperm⟩

/-- The territories that fire need not come in the order of the `route`, as the `Hop` shows. -/
theorem not_in_route_order :
    ¬ ∀ (board : Board) (acting : PlayerId) (route : Route) (units : List UnitId)
        (firing : List String) (moving : List BoardUnit),
        board.firingTerritories acting route units = .ok firing →
        board.rules.alwaysOn = true ∨
          board.rules.territoryRestricted = false ∧ board.phase = .combat →
        board.findUnits units = .ok moving →
        firing = (board.stepsUnderFire route).filter fun name =>
          board.HoldsFire moving (movingPlayer acting moving) name := by
  intro hall
  have horder := hall Hop.board ⟨"Reds"⟩ Hop.route [⟨1⟩] ["Fort", "Home"] [Sortie.bomber]
    Hop.firingTerritories_eq (.inr ⟨rfl, rfl⟩) rfl
  revert horder
  decide

end Board

end Flak
