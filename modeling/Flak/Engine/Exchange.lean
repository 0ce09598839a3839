import Flak.Engine.Scene
import Flak.Timing

namespace Flak

/-!
# Asking the player who is hit

* `Engine.confirmLosses` — blocks until the player who was hit has confirmed a notice. The player
  who fired is shown the losses too, once for each group, and nobody waits for that.
* `Engine.askForLosses` — lets the player who is hit choose, within a time limit; no answer means
  that the default stands.

A wait that is interrupted or out of time leaves its request parked in the ledger, and the next
attempt waits for that request and asks nothing new.
-/

namespace Engine

variable {ρ κ α : Type}

/-- Takes out the request that is parked for the group `id` and the `player`. -/
def unpark (id : GroupId) (player : PlayerId) : Engine ρ (Option Request) :=
  ExceptT.mk fun scene =>
    let (request, ledger) := scene.ledger.unpark id player
    (.ok request, { scene with ledger })

/-- Whether a wait ended `answered`, and by no error. -/
def accepted : Waited (Except RemoteError α) → Bool
  | .answered (.ok _) => true
  | _ => false

/-- Waits once for the `question` that is `asked`. If the wait gives up, the question is parked as
    `keep` says. -/
def await (id : GroupId) (player : PlayerId) (timeout : Option Nat) (question : Question)
    (keep : Asked κ α → Request) (asked : Asked κ α) : Engine ρ (Waited (Except RemoteError α)) :=
  ExceptT.mk fun scene =>
    let (outcome, call, host) := scene.host.await asked.call timeout
    match outcome with
    | .answered _ | .lost =>
        (.ok outcome,
          { scene with host := host.note (.settled player id question (accepted outcome)) })
    | .timedOut | .interrupted =>
        (.ok outcome,
          ⟨host, scene.ledger.park id player (keep { asked with call })⟩)

/-! ### Confirmation -/

/-- Sends the `notice` to the `player` who was hit, who has to be reachable. -/
def sendConfirmation (id : GroupId) (player : PlayerId) (notice : CasualtyNotice) :
    Engine ρ (Asked CasualtyNotice Unit) :=
  ExceptT.mk fun scene =>
    match scene.host.askConfirmation player id notice with
    | some (asked, host) => (.ok asked, { scene with host })
    | none => (.error (.remote (.noRemote player)), scene)

/-- Shows the losses of the `group` to the player who fired, the first time only. A group that was
    never entered has nobody to be shown anything. -/
def informFiringPlayer (id : GroupId) (group : FiringGroup) (notice : CasualtyNotice) :
    Engine ρ Unit := do
  let scene ← get
  match scene.ledger.record id with
  | .error _ => pure ()
  | .ok record =>
      if !record.enemyNotified then
        changeLedger (·.updateRecord id fun record => { record with enemyNotified := true })
        changeHost (·.inform group.firingPlayer id notice group.hitPlayer)

/-- Waits without limit for the confirmation of the notice that is `asked`. -/
def awaitConfirmation (id : GroupId) (player : PlayerId) (asked : Asked CasualtyNotice Unit) :
    Engine ρ Unit := do
  match ← await id player none (.confirm asked.content) .confirmation asked with
  | .answered (.ok ()) => pure ()
  | .answered (.error e) => throw (.remote e)
  | .lost => throw (.remote .workerLost)
  | .timedOut => throw (.remote (.timeout player))
  | .interrupted => throw .interrupted

/-- Waits without limit for a choice, `asked` for earlier, that comes too late to matter. -/
def awaitLateChoice (id : GroupId) (player : PlayerId)
    (asked : Asked CasualtyRequest (Option Losses)) : Engine ρ Unit := do
  match ← await id player none (.choose asked.content) .choice asked with
  | .answered _ => pure ()
  | .lost => throw (.remote .workerLost)
  | .timedOut => throw (.remote (.timeout player))
  | .interrupted => throw .interrupted

/-- Blocks until the player who was hit has confirmed the `notice`. -/
def confirmLosses (id : GroupId) (group : FiringGroup) (notice : CasualtyNotice) :
    Engine ρ Unit := do
  match ← unpark id group.hitPlayer with
  | some (.confirmation asked) =>
      informFiringPlayer id group notice
      awaitConfirmation id group.hitPlayer asked
  | some (.choice asked) =>
      -- The default was taken long ago, but the player is asked one thing at a time.
      informFiringPlayer id group notice
      awaitLateChoice id group.hitPlayer asked
      let asked ← sendConfirmation id group.hitPlayer notice
      awaitConfirmation id group.hitPlayer asked
  | none =>
      let asked ← sendConfirmation id group.hitPlayer notice
      informFiringPlayer id group notice
      awaitConfirmation id group.hitPlayer asked

/-! ### Choice -/

/-- Waits for a choice as long as the `player` may take by `timing`. -/
def awaitChoice (timing : Timing) (id : GroupId) (player : PlayerId)
    (asked : Asked CasualtyRequest (Option Losses)) : Engine ρ (Option Losses) := do
  match ← await id player (some timing.choiceTimeout) (.choose asked.content) .choice asked with
  | .answered (.ok choice) => pure choice
  | .answered (.error _) | .lost | .timedOut => pure none
  | .interrupted => throw .interrupted

/-- Waits as long as the `player` may take to choose by `timing` for a confirmation that is still
    out; its answer chooses nothing. -/
def awaitEarlyConfirmation (timing : Timing) (id : GroupId) (player : PlayerId)
    (asked : Asked CasualtyNotice Unit) : Engine ρ Unit := do
  match ← await id player (some timing.choiceTimeout) (.confirm asked.content) .confirmation
      asked with
  | .answered _ | .lost | .timedOut => pure ()
  | .interrupted => throw .interrupted

/-- Puts the question to the `player` who is hit, if the player can be reached. -/
def sendChoice (id : GroupId) (player : PlayerId) (request : CasualtyRequest) :
    Engine ρ (Option (Asked CasualtyRequest (Option Losses))) :=
  ExceptT.mk fun scene =>
    match scene.host.askChoice player id request with
    | some (asked, host) => (.ok (some asked), { scene with host })
    | none => (.ok none, scene)

/-- Lets the `player` who is hit choose. No choice means that the default stands: nobody could be
    asked, no answer came in time, the answer was an error, or the player accepts the default. Only
    an interrupted wait is a failure. -/
def askForLosses (timing : Timing) (id : GroupId) (player : PlayerId) (request : CasualtyRequest) :
    Engine ρ (Option Losses) := do
  match ← unpark id player with
  | some (.choice asked) => awaitChoice timing id player asked
  | some (.confirmation asked) =>
      awaitEarlyConfirmation timing id player asked
      return none
  | none =>
      match ← sendChoice id player request with
      | some asked => awaitChoice timing id player asked
      | none => return none

end Engine

end Flak
