import Flak.Dice.Roll
import Flak.Losses.Basic
import Flak.Remote.Call

namespace Flak

/-!
# What remote players are told and asked

* `CasualtyNotice`, `CasualtyRequest` — what a player is shown.
* `Remote` — a player who can be reached, with the calls that answer the questions put to them.
* `Question`, `Asked`, `Request` — a question to the player who is hit, on its way and unanswered.
* `Event` — an entry of the correspondence with all remote players.
-/

/-- The `losses` of a group, shown to both sides. -/
structure CasualtyNotice where
  battle : BattleId
  message : String
  dice : Roll
  losses : Losses
  deriving DecidableEq

/-- The question which `targets` of a group are lost. -/
structure CasualtyRequest where
  battle : BattleId
  territory : String
  kind : String
  dice : Roll
  /-- The units that the hits may go to, in target order. -/
  targets : List UnitId
  /-- What the fixed rule would choose. -/
  defaultSelection : Losses
  deriving DecidableEq

/-! ### Remote players -/

/-- A player who can be reached at an `address`. Each letter takes the next entry of its row, and
    the last entry serves for all that follow. Without any entry the player agrees at once. -/
structure Remote where
  /-- Where letters to this player are recorded. -/
  address : String
  confirmations : List (Call (Except RemoteError Unit)) := []
  choices : List (Call (Except RemoteError (Option Losses))) := []
  /-- Nobody waits for these: the player sees what another has lost. -/
  acknowledgements : List (Call (Except RemoteError Unit)) := []
  /-- Whether all waiting is called off by the time a report is read. -/
  reports : List Bool := []

/-- The next entry of a row and the row after it; `otherwise` if the row is empty. -/
def nextInRow {α : Type} (otherwise : α) : List α → α × List α
  | [] => (otherwise, [])
  | [entry] => (entry, [entry])
  | entry :: rest => (entry, rest)

/-- The call of a player who agrees at once, with this `answer`. -/
def Call.agreeing {α : Type} (answer : α) : Call (Except RemoteError α) :=
  { answer := some (.ok answer) }

/-! ### Questions -/

/-- What can be asked of the player who is hit: to `confirm` losses, or to `choose` them. -/
inductive Question where
  | confirm (notice : CasualtyNotice)
  | choose (request : CasualtyRequest)
  deriving DecidableEq

/-- A question on its way: the `address` where it went and the `call` that answers it. -/
structure Asked (κ α : Type) where
  address : String
  content : κ
  call : Call (Except RemoteError α)

/-- A question that somebody has waited for and nobody has the answer of, as it was `Asked`. -/
inductive Request where
  | confirmation (asked : Asked CasualtyNotice Unit)
  | choice (asked : Asked CasualtyRequest (Option Losses))

/-- Requests are kept under the `group` and the `player` they were sent for. -/
structure RequestKey where
  group : GroupId
  player : PlayerId
  deriving DecidableEq

namespace RequestKey

instance : Ord RequestKey := ⟨compareLex (compareOn RequestKey.group) (compareOn RequestKey.player)⟩

instance : Std.TransOrd RequestKey :=
  inferInstanceAs
    (Std.TransCmp (compareLex (compareOn RequestKey.group) (compareOn RequestKey.player)))

instance : Std.LawfulEqOrd RequestKey where
  eq_of_compare {a b} h := by
    obtain ⟨hg, hp⟩ := compareLex_eq_eq.1 h
    cases a; cases b
    cases Std.LawfulEqOrd.eq_of_compare hg
    cases Std.LawfulEqOrd.eq_of_compare hp
    rfl

end RequestKey

/-- The requests whose wait gave up, at most one for each `RequestKey`. -/
abbrev Parked := Std.ExtTreeMap RequestKey Request

/-! ### Correspondence -/

/-- An entry of the correspondence: a letter that was sent, or a question that was `settled`. -/
inductive Event where
  | reported (address message title : String)
  | asked (address : String) (player : PlayerId) (group : GroupId) (question : Question)
  /-- The question was answered, or its worker died; `accepted` if the answer is no error. -/
  | settled (player : PlayerId) (group : GroupId) (question : Question) (accepted : Bool)
  /-- The player who fired is shown the losses of the player who was hit. -/
  | informed (address : String) (group : GroupId) (notice : CasualtyNotice) (hitPlayer : PlayerId)
  deriving DecidableEq

end Flak
