import Flak.Board.Basic
import Flak.Remote.Letter

namespace Flak

/-!
# The host of an action

`Host` is all that the steps of an action reach outside their ledger: the board, the dice, the
remote players, the history and the slot in which the action executes. The host also keeps the
correspondence with remote players.
-/

/-- A line of the battle history: a `text` and the units it is about. -/
structure HistoryEntry where
  text : String
  units : List UnitId
  deriving DecidableEq

/-- The game around an action, with `dice` of type `ρ`. -/
structure Host (ρ : Type) where
  board : Board
  /-- The player whose turn it is. -/
  player : PlayerId
  /-- Nobody takes part who could be asked. -/
  headless : Bool
  dice : ρ
  remotes : Std.ExtTreeMap PlayerId Remote := ∅
  history : List HistoryEntry := []
  /-- Whether waits are to stop. -/
  cancelled : Bool := false
  /-- Whether a worker that nobody waits for calls off waiting while the next wait goes on. -/
  cancelComing : Bool := false
  /-- Whether the action holds the slot of execution. -/
  inDelegate : Bool := true
  /-- How often the slot was given up. -/
  yields : Nat := 0
  correspondence : List Event := []

namespace Host

variable {ρ : Type}

/-- Registers the `remote` `player`, in place of an earlier one. -/
def connect (player : PlayerId) (remote : Remote) (host : Host ρ) : Host ρ :=
  { host with remotes := host.remotes.insert player remote }

/-- Appends the `event` to the correspondence of the `host`. -/
def note (event : Event) (host : Host ρ) : Host ρ :=
  { host with correspondence := host.correspondence ++ [event] }

/-- Appends a line to the history of the `host`. -/
def addHistory (text : String) (units : List UnitId) (host : Host ρ) : Host ρ :=
  { host with history := host.history ++ [⟨text, units⟩] }

/-- Gives up the slot of execution of the `host`. -/
def leaveDelegate (host : Host ρ) : Host ρ :=
  { host with inDelegate := false, yields := host.yields + 1 }

/-- Takes the slot of execution of the `host` back. -/
def enterDelegate (host : Host ρ) : Host ρ := { host with inDelegate := true }

/-! ### Letters to remote players -/

/-- Tells the `player` something, if the player can be reached. Whether it succeeds does not
    matter. -/
def report (player : PlayerId) (message title : String) (host : Host ρ) : Host ρ :=
  match host.remotes[player]? with
  | some remote =>
      let (callsOff, later) := nextInRow false remote.reports
      let host := host.connect player { remote with reports := later }
      { host.note (.reported remote.address message title) with
        cancelled := host.cancelled || callsOff }
  | none => host

/-- Shows the `player` who fired what the `hitPlayer` has lost, and waits for nothing. -/
def inform (player : PlayerId) (group : GroupId) (notice : CasualtyNotice) (hitPlayer : PlayerId)
    (host : Host ρ) : Host ρ :=
  match host.remotes[player]? with
  | some remote =>
      let (call, later) := nextInRow (.agreeing ()) remote.acknowledgements
      let host := host.connect player { remote with acknowledgements := later }
      { host.note (.informed remote.address group notice hitPlayer) with
        cancelComing := host.cancelComing || call.callsOff }
  | none => host

/-- Asks the `player` to confirm their losses, if the player can be reached. -/
def askConfirmation (player : PlayerId) (group : GroupId) (notice : CasualtyNotice)
    (host : Host ρ) : Option (Asked CasualtyNotice Unit × Host ρ) :=
  host.remotes[player]?.map fun remote =>
    let (call, later) := nextInRow (.agreeing ()) remote.confirmations
    (⟨remote.address, notice, call⟩,
      (host.connect player { remote with confirmations := later }).note
        (.asked remote.address player group (.confirm notice)))

/-- Asks the `player` to choose their losses, if the player can be reached. -/
def askChoice (player : PlayerId) (group : GroupId) (request : CasualtyRequest)
    (host : Host ρ) : Option (Asked CasualtyRequest (Option Losses) × Host ρ) :=
  host.remotes[player]?.map fun remote =>
    let (call, later) := nextInRow (.agreeing none) remote.choices
    (⟨remote.address, request, call⟩,
      (host.connect player { remote with choices := later }).note
        (.asked remote.address player group (.choose request)))

/-! ### Waiting -/

/-- Waits for the `call` while the slot of execution is given up. -/
def await {α : Type} (call : Call α) (timeout : Option Nat) (host : Host ρ) :
    Waited α × Call α × Host ρ :=
  let away := host.leaveDelegate
  let result := call.wait away.cancelled away.cancelComing timeout
  (result.outcome, result.call,
    { away with
      cancelled := away.cancelled || result.cancelled
      cancelComing := false }.enterDelegate)

end Host

end Flak
