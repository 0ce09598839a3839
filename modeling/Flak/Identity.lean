namespace Flak

/-!
# Names of things

Players are known by name; units, battles and firing groups by number. Each kind of name is a type
of its own, ordered as what it wraps.
-/

/-- A player, identified by a `name`. -/
structure PlayerId where
  name : String
  deriving DecidableEq

namespace PlayerId

/-- Players with the same `name` are the same player. -/
theorem mk_name (player : PlayerId) : mk player.name = player := rfl

/-- The player without a `name`, who owns nothing and fights nobody. -/
def nobody : PlayerId := ⟨""⟩

instance : Inhabited PlayerId := ⟨nobody⟩

instance : Ord PlayerId := ⟨fun a b => compare a.name b.name⟩

instance : Std.TransOrd PlayerId :=
  inferInstanceAs (Std.TransCmp fun a b : PlayerId => compareOn PlayerId.name a b)

instance : Std.LawfulEqOrd PlayerId where
  eq_of_compare {a b} h := by
    cases a; cases b
    exact congrArg PlayerId.mk (Std.LawfulEqOrd.eq_of_compare (α := String) h)

end PlayerId

/-- A unit on the board, identified by its `number`. -/
structure UnitId where
  number : Nat
  deriving DecidableEq

/-- The battle, or the move, that a firing belongs to, by its `number`. -/
structure BattleId where
  number : Nat
  deriving DecidableEq

/-- A firing group, by its `index` among the groups of its action. -/
structure GroupId where
  index : Nat
  deriving DecidableEq

namespace GroupId

instance : Ord GroupId := ⟨fun a b => compare a.index b.index⟩

instance : Std.TransOrd GroupId :=
  inferInstanceAs (Std.TransCmp fun a b : GroupId => compareOn GroupId.index a b)

instance : Std.LawfulEqOrd GroupId where
  eq_of_compare {a b} h := by
    cases a; cases b
    exact congrArg GroupId.mk (Std.LawfulEqOrd.eq_of_compare (α := Nat) h)

end GroupId

/-! ### Wording -/

/-- The `unit` as messages name it. -/
def UnitId.wording (unit : UnitId) : String := s!"UnitId({unit.number})"

/-- The firing `group` as messages name it. -/
def GroupId.wording (group : GroupId) : String := s!"GroupId({group.index})"

end Flak
