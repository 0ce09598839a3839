namespace Flak

/-!
# Rules of the game

* `Rules` — the switches that shape anti-air fire.
* `CasualtyMode` — how casualties are picked; choosing beats chance, chance beats the fixed rule.
-/

/-- The kind of move that is being played, `combat` or not. -/
inductive MovePhase where
  | combat
  | nonCombat
  deriving DecidableEq

/-- How casualties are picked once the hits are known: by the fixed rule, by chance, or by the
    player. -/
inductive CasualtyMode where
  /-- Damage first, then kill, in target order. -/
  | automatic
  /-- Each hit falls on a random target. -/
  | random
  /-- The player who is hit chooses. -/
  | interactive
  deriving DecidableEq

/-- The switches of the game that anti-air fire depends on, and the `diceSides` of a gun that has
    none of its own. -/
structure Rules where
  /-- Anti-air fires at every fly-over, also in non-combat moves. -/
  alwaysOn : Bool := false
  /-- Anti-air fires in the attacked territory only. -/
  territoryRestricted : Bool := false
  /-- Fire at the end of a route in place of its start. -/
  forceLastStep : Bool := false
  /-- Pool the strengths and roll for the remainder only. -/
  lowLuck : Bool := false
  chooseCasualties : Bool := false
  randomCasualties : Bool := false
  /-- The size of the die of anti-air that names none. -/
  diceSides : Nat := 6
  deriving DecidableEq

/-- The `CasualtyMode` that `rules` ask for. Choosing beats chance; chance beats the fixed rule. -/
def Rules.casualtyMode (rules : Rules) : CasualtyMode :=
  if rules.chooseCasualties then .interactive
  else if rules.randomCasualties then .random
  else .automatic

end Flak
