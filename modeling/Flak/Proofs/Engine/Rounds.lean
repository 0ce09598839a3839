import Flak.Proofs.Engine.Exchange

namespace Flak

/-!
# The rounds of a confirmation

To have losses confirmed is a loop. Somebody waits for the request that is out; if the answer is a
choice, which comes too late to matter, the notice is sent and somebody waits again. Nothing counts
the rounds, but a notice is never answered with a choice:

* `Answer`, `Wait` — what a request of either kind is answered, and one wait for it;
* `Accounts` — what a stretch of a confirmation does to the scene, read off its waits;
* `Rounds` — the loop, with every wait in it; `Rounds.eq_singleton` and `Rounds.length_le_two` — a
  notice takes one round, and what was parked at most one more;
* `Confirming` — a whole confirmation: what is parked is taken out or the notice is sent, the player
  who fired is informed, and then come the rounds;
* `Engine.confirmLosses_confirming` — having losses confirmed is just that;
* `Engine.confirmLosses_ends` — so it waits twice at most, and what it leaves parked is the request
  of a last wait that gave up.
-/

variable {ρ α β κ : Type}

/-! ### Waits for a request of either kind -/

/-- What a request is answered: `confirmed`, or `chosen` otherwise. -/
inductive Answer where
  | confirmed (result : Except RemoteError Unit)
  | chosen (choice : Except RemoteError (Option Losses))

/-- The end of a wait, with its answer put in another way by `read`. -/
def Waited.map (read : α → β) : Waited α → Waited β
  | .answered answer => .answered (read answer)
  | .lost => .lost
  | .timedOut => .timedOut
  | .interrupted => .interrupted

/-- Whether a wait was `interrupted` or ran out of time. -/
def Waited.gaveUp : Waited α → Bool
  | .timedOut | .interrupted => true
  | .answered _ | .lost => false

/-- To `read` its answer in another way does not change whether a wait gave up. -/
@[simp] theorem Waited.gaveUp_map (read : α → β) (waited : Waited α) :
    (waited.map read).gaveUp = waited.gaveUp := by
  cases waited <;> rfl

/-- A wait without limit: the `host` when it begins, and the `request` that is waited for. -/
structure Wait (ρ : Type) where
  host : Host ρ
  request : Request

/-- The wait for the `request` that begins in the `scene`. -/
def Scene.waitFor (scene : Scene ρ) (request : Request) : Wait ρ := ⟨scene.host, request⟩

namespace Wait

/-- How the `wait` ends. -/
def outcome (wait : Wait ρ) : Waited Answer :=
  match wait.request with
  | .confirmation asked => (wait.host.await asked.call none).1.map .confirmed
  | .choice asked => (wait.host.await asked.call none).1.map .chosen

/-- The request when the `wait` is over. It is the same request, and its call has gone on. -/
def left (wait : Wait ρ) : Request :=
  match wait.request with
  | .confirmation asked =>
      .confirmation { asked with call := (wait.host.await asked.call none).2.1 }
  | .choice asked => .choice { asked with call := (wait.host.await asked.call none).2.1 }

/-- Whether the `wait` was interrupted or ran out of time. -/
def gaveUp (wait : Wait ρ) : Bool := wait.outcome.gaveUp

/-- Whether the `wait` ended with a choice, which is of no use to a confirmation. -/
def isLateChoice (wait : Wait ρ) : Bool :=
  match wait.outcome with
  | .answered (.chosen _) => true
  | _ => false

/-- Only a choice is answered with one: no wait for a confirmation `isLateChoice`. -/
theorem isLateChoice_confirmation (scene : Scene ρ) (asked : Asked CasualtyNotice Unit) :
    (scene.waitFor (.confirmation asked)).isLateChoice = false := by
  simp only [isLateChoice, outcome, Scene.waitFor]
  cases (scene.host.await asked.call none).1 <;> rfl

/-- The request that the `waits` leave behind: that of the last one, if it gave up. -/
def leftover (waits : List (Wait ρ)) : Option Request :=
  (waits.getLast?.filter gaveUp).map left

/-- A single `wait` leaves its request behind if it gave up. -/
theorem leftover_singleton (wait : Wait ρ) :
    leftover [wait] = if wait.gaveUp then some wait.left else none := by
  cases h : wait.gaveUp <;> simp [leftover, Option.filter, h]

/-- After `waits` that leave nothing behind, only later ones do. -/
theorem leftover_append {waits : List (Wait ρ)} (h : leftover waits = none)
    (later : List (Wait ρ)) : leftover (waits ++ later) = leftover later := by
  rcases List.eq_nil_or_concat later with rfl | ⟨front, last, rfl⟩
  · rw [List.append_nil, h]
    rfl
  · simp [leftover, ← List.append_assoc]

/-- What is left over is the request of the last of the `waits`, which gave up. -/
theorem leftover_eq_some_iff {waits : List (Wait ρ)} {request : Request} :
    leftover waits = some request ↔
      ∃ last, waits.getLast? = some last ∧ last.gaveUp = true ∧ last.left = request := by
  simp [leftover, Option.filter_eq_some_iff, and_assoc]

end Wait

/-- Whether an `Event` asks a player to confirm losses. -/
def Event.asksToConfirm : Event → Bool
  | .asked _ _ _ (.confirm _) => true
  | _ => false

/-- A stretch of a confirmation with these `waits` and so many requests for a confirmation. Each
    wait counts a yield, and only the last one may have parked its request. -/
structure Accounts (id : GroupId) (player : PlayerId) (waits : List (Wait ρ)) (asks : Nat)
    (before after : Scene ρ) : Prop where
  yields : after.host.yields = before.host.yields + waits.length
  parked : ∀ key, after.ledger.parked[key]? =
    if key = (⟨id, player⟩ : RequestKey) then
      (Wait.leftover waits).or before.ledger.parked[key]?
    else before.ledger.parked[key]?
  letters : ∃ sent, after.host.correspondence = before.host.correspondence ++ sent ∧
    sent.countP Event.asksToConfirm = asks

namespace Accounts

variable {id : GroupId} {player : PlayerId} {waits waits' : List (Wait ρ)} {asks asks' : Nat}
  {before mid after : Scene ρ}

/-- The events `sent` are noted, and nobody waits. -/
theorem of_letters (sent : List Event) (hyields : after.host.yields = before.host.yields)
    (hparked : after.ledger.parked = before.ledger.parked)
    (hsent : after.host.correspondence = before.host.correspondence ++ sent)
    (hasks : sent.countP Event.asksToConfirm = asks) : Accounts id player [] asks before after where
  yields := hyields
  parked key := by simp [hparked, Wait.leftover]
  letters := ⟨sent, hsent, hasks⟩

/-- Two stretches on account make one, by `Accounts`, if the first leaves no request behind. -/
theorem trans (h : Accounts id player waits asks before mid) (hnone : Wait.leftover waits = none)
    (h' : Accounts id player waits' asks' mid after) :
    Accounts id player (waits ++ waits') (asks + asks') before after where
  yields := by
    rw [h'.yields, h.yields, List.length_append, Nat.add_assoc]
  parked key := by
    rw [h'.parked, h.parked, hnone, Wait.leftover_append hnone waits', Option.none_or, ite_self]
  letters := by
    obtain ⟨sent, hsent, rfl⟩ := h.letters
    obtain ⟨sent', hsent', rfl⟩ := h'.letters
    exact ⟨sent ++ sent', by rw [hsent', hsent, List.append_assoc], List.countP_append⟩

end Accounts

/-! ### The parts of a confirmation -/

namespace Engine

variable (id : GroupId) (player : PlayerId)

/-- Waits without limit for a `Request` of either kind. -/
def awaitRequest : Request → Engine ρ (Waited Answer)
  | .confirmation asked =>
      Waited.map .confirmed <$> await id player none (.confirm asked.content) .confirmation asked
  | .choice asked =>
      Waited.map .chosen <$> await id player none (.choose asked.content) .choice asked

/-- A wait for a request of one kind, by `await`; `read` says which answers the kind has. -/
theorem await_accounts (question : Question) (keep : Asked κ α → Request)
    (read : Except RemoteError α → Answer) (asked : Asked κ α) (scene : Scene ρ)
    (houtcome : (scene.waitFor (keep asked)).outcome =
      (scene.host.await asked.call none).1.map read)
    (hleft : (scene.waitFor (keep asked)).left =
      keep { asked with call := (scene.host.await asked.call none).2.1 }) :
    ∃ outcome after, (await id player none question keep asked).onScene scene =
        (.ok outcome, after) ∧
      (scene.waitFor (keep asked)).outcome = outcome.map read ∧
      Accounts id player [scene.waitFor (keep asked)] 0 scene after := by
  have hgaveUp : (scene.waitFor (keep asked)).gaveUp =
      (scene.host.await asked.call none).1.gaveUp := by
    rw [Wait.gaveUp, houtcome, Waited.gaveUp_map]
  rw [await_onScene]
  obtain ⟨cancelled, hhost⟩ := await_host asked.call none scene.host
  rcases hwait : scene.host.await asked.call none with ⟨outcome, call, host⟩
  rw [hwait] at houtcome hhost hgaveUp hleft
  obtain rfl : host = _ := hhost
  -- What was answered, or lost, is an event and leaves nothing behind; otherwise the request is
  -- parked.
  cases outcome with
  | answered _ =>
    refine ⟨_, _, rfl, houtcome, rfl, fun key => ?_, [_], rfl, rfl⟩
    simp [Wait.leftover_singleton, hgaveUp, Waited.gaveUp]
  | lost =>
    refine ⟨_, _, rfl, houtcome, rfl, fun key => ?_, [_], rfl, rfl⟩
    simp [Wait.leftover_singleton, hgaveUp, Waited.gaveUp]
  | timedOut =>
    refine ⟨_, _, rfl, houtcome, rfl, fun key => ?_, [], by simp, rfl⟩
    simp [Wait.leftover_singleton, hgaveUp, Waited.gaveUp, hleft, Ledger.getElem?_parked_park]
  | interrupted =>
    refine ⟨_, _, rfl, houtcome, rfl, fun key => ?_, [], by simp, rfl⟩
    simp [Wait.leftover_singleton, hgaveUp, Waited.gaveUp, hleft, Ledger.getElem?_parked_park]

/-- A wait by `awaitRequest` is a stretch with this one wait and no letter that asks. -/
theorem awaitRequest_accounts (request : Request) (scene : Scene ρ) :
    ∃ after, (awaitRequest id player request).onScene scene =
        (.ok (scene.waitFor request).outcome, after) ∧
      Accounts id player [scene.waitFor request] 0 scene after := by
  cases request with
  | confirmation asked =>
    obtain ⟨outcome, after, hrun, houtcome, haccounts⟩ := await_accounts id player
      (.confirm asked.content) .confirmation .confirmed asked scene rfl rfl
    refine ⟨after, ?_, haccounts⟩
    rw [awaitRequest, map_eq_pure_bind, onScene_bind_ok hrun, houtcome, onScene_pure]
  | choice asked =>
    obtain ⟨outcome, after, hrun, houtcome, haccounts⟩ := await_accounts id player
      (.choose asked.content) .choice .chosen asked scene rfl rfl
    refine ⟨after, ?_, haccounts⟩
    rw [awaitRequest, map_eq_pure_bind, onScene_bind_ok hrun, houtcome, onScene_pure]

/-- To send the notice, by `sendConfirmation`, is a stretch that asks once and waits for nothing. -/
theorem sendConfirmation_accounts (notice : CasualtyNotice) (scene : Scene ρ) :
    (∃ fault, (sendConfirmation id player notice).onScene scene = (.error fault, scene)) ∨
      ∃ asked sent, (sendConfirmation id player notice).onScene scene = (.ok asked, sent) ∧
        Accounts id player [] 1 scene sent := by
  rw [sendConfirmation_onScene, Host.askConfirmation]
  cases scene.host.remotes[player]? with
  | none => exact .inl ⟨_, rfl⟩
  | some remote => exact .inr ⟨_, _, rfl, .of_letters [_] rfl rfl rfl rfl⟩

/-- To inform the player who fired, by `informFiringPlayer`, is a stretch that neither asks nor
    waits. -/
theorem informFiringPlayer_accounts (group : FiringGroup) (notice : CasualtyNotice)
    (scene : Scene ρ) :
    ∃ told, (informFiringPlayer id group notice).onScene scene = (.ok (), told) ∧
      Accounts id player [] 0 scene told := by
  rcases informFiringPlayer_onScene id group notice scene with hrun | ⟨_, -, -, hrun⟩
  · exact ⟨scene, hrun, .of_letters [] rfl rfl (List.append_nil _).symm rfl⟩
  · refine ⟨_, hrun, ?_⟩
    rw [Host.inform]
    cases scene.host.remotes[group.firingPlayer]? with
    | none => exact .of_letters [] rfl rfl (List.append_nil _).symm rfl
    | some remote => exact .of_letters [_] rfl rfl rfl rfl

end Engine

/-! ### The rounds -/

/-- What the end of a wait makes of a confirmation. A `chosen` answer leaves it undecided. -/
def verdict? (player : PlayerId) : Waited Answer → Option (Except Fault Unit)
  | .answered (.confirmed (.ok ())) => some (.ok ())
  | .answered (.confirmed (.error e)) => some (.error (.remote e))
  | .answered (.chosen _) => none
  | .lost => some (.error (.remote .workerLost))
  | .timedOut => some (.error (.remote (.timeout player)))
  | .interrupted => some (.error .interrupted)

/-- A wait `isLateChoice` just if it leaves the confirmation undecided. -/
theorem Wait.isLateChoice_iff (player : PlayerId) (wait : Wait ρ) :
    wait.isLateChoice = true ↔ verdict? player wait.outcome = none := by
  rw [isLateChoice]
  rcases wait.outcome with ((_ | _) | _) | _ | _ | _ <;> simp [verdict?]

/-- A choice that was not answered fails the confirmation: its `verdict?` is a fault. -/
theorem verdict?_choice (player : PlayerId) {scene : Scene ρ}
    {asked : Asked CasualtyRequest (Option Losses)}
    (h : (scene.waitFor (.choice asked)).isLateChoice = false) :
    ∃ fault, verdict? player (scene.waitFor (.choice asked)).outcome = some (.error fault) := by
  simp only [Wait.isLateChoice, Wait.outcome, Scene.waitFor] at h ⊢
  cases houtcome : (scene.host.await asked.call none).1 with
  | answered _ => simp [houtcome, Waited.map] at h
  | lost => exact ⟨_, rfl⟩
  | timedOut => exact ⟨_, rfl⟩
  | interrupted => exact ⟨_, rfl⟩

/-- A `wait` that ended with a choice did not give up, so nothing is left over. -/
theorem Wait.leftover_of_isLateChoice {wait : Wait ρ} (h : wait.isLateChoice = true) :
    leftover [wait] = none := by
  rw [leftover_singleton, gaveUp]
  rw [isLateChoice] at h
  cases houtcome : wait.outcome with
  | answered _ => rfl
  | lost => rfl
  | timedOut => simp [houtcome] at h
  | interrupted => simp [houtcome] at h

/-- The loop of a confirmation: from `before` on somebody waits for `request`, and after a late
    choice the `notice` is sent and waited for in its turn. Its length is not bounded here. -/
inductive Rounds (id : GroupId) (player : PlayerId) (notice : CasualtyNotice) :
    Request → Scene ρ → List (Wait ρ) → Except Fault Unit → Scene ρ → Prop
  | ends {request : Request} {before after : Scene ρ} {result : Except Fault Unit}
      (hwait : (Engine.awaitRequest id player request).onScene before =
        (.ok (before.waitFor request).outcome, after))
      (hverdict : verdict? player (before.waitFor request).outcome = some result) :
      Rounds id player notice request before [before.waitFor request] result after
  | unsent {request : Request} {before after : Scene ρ} {fault : Fault}
      (hwait : (Engine.awaitRequest id player request).onScene before =
        (.ok (before.waitFor request).outcome, after))
      (hlate : (before.waitFor request).isLateChoice = true)
      (hsend : (Engine.sendConfirmation id player notice).onScene after = (.error fault, after)) :
      Rounds id player notice request before [before.waitFor request] (.error fault) after
  | again {request : Request} {before late sent after : Scene ρ} {waits : List (Wait ρ)}
      {asked : Asked CasualtyNotice Unit} {result : Except Fault Unit}
      (hwait : (Engine.awaitRequest id player request).onScene before =
        (.ok (before.waitFor request).outcome, late))
      (hlate : (before.waitFor request).isLateChoice = true)
      (hsend : (Engine.sendConfirmation id player notice).onScene late = (.ok asked, sent))
      (hrest : Rounds id player notice (.confirmation asked) sent waits result after) :
      Rounds id player notice request before (before.waitFor request :: waits) result after

/-- A wait by `awaitRequest` leads to one scene, and what it did is on account. -/
theorem Engine.accounts_of_awaitRequest {id : GroupId} {player : PlayerId} {request : Request}
    {outcome : Waited Answer} {before after : Scene ρ}
    (h : (awaitRequest id player request).onScene before = (.ok outcome, after)) :
    Accounts id player [before.waitFor request] 0 before after := by
  obtain ⟨_, hrun, haccounts⟩ := awaitRequest_accounts id player request before
  cases hrun.symm.trans h
  exact haccounts

/-- So does the `notice` that could be sent, by `sendConfirmation`. -/
theorem Engine.accounts_of_sendConfirmation {id : GroupId} {player : PlayerId}
    {notice : CasualtyNotice} {asked : Asked CasualtyNotice Unit} {before after : Scene ρ}
    (h : (sendConfirmation id player notice).onScene before = (.ok asked, after)) :
    Accounts id player [] 1 before after := by
  rcases sendConfirmation_accounts id player notice before with ⟨_, hrun⟩ |
    ⟨_, _, hrun, haccounts⟩
  · cases hrun.symm.trans h
  · cases hrun.symm.trans h
    exact haccounts

/-- And so does a letter to the player who fired, by `informFiringPlayer`. -/
theorem Engine.accounts_of_informFiringPlayer {id : GroupId} {player : PlayerId}
    {group : FiringGroup} {notice : CasualtyNotice} {before after : Scene ρ}
    (h : (informFiringPlayer id group notice).onScene before = (.ok (), after)) :
    Accounts id player [] 0 before after := by
  obtain ⟨_, hrun, haccounts⟩ := informFiringPlayer_accounts id player group notice before
  cases hrun.symm.trans h
  exact haccounts

namespace Rounds

variable {id : GroupId} {player : PlayerId} {notice : CasualtyNotice} {request : Request}
  {asked : Asked CasualtyNotice Unit} {before after : Scene ρ} {waits : List (Wait ρ)}
  {result : Except Fault Unit}

/-- A confirmation that is out takes one round of `Rounds`. -/
theorem eq_singleton
    (h : Rounds id player notice (.confirmation asked) before waits result after) :
    waits = [before.waitFor (.confirmation asked)] := by
  have hnever := Wait.isLateChoice_confirmation before asked
  cases h with
  | ends _ _ => rfl
  | unsent _ hlate _ => simp [hlate] at hnever
  | again _ hlate _ _ => simp [hlate] at hnever

/-- There are two `Rounds` at most: after a late choice it is a confirmation that is waited for. -/
theorem length_le_two (h : Rounds id player notice request before waits result after) :
    waits.length ≤ 2 := by
  cases h with
  | ends _ _ => simp
  | unsent _ _ _ => simp
  | again _ _ _ hrest => simp [hrest.eq_singleton]

/-- One late choice is dropped by `Rounds` at most. -/
theorem countP_isLateChoice_le_one
    (h : Rounds id player notice request before waits result after) :
    waits.countP Wait.isLateChoice ≤ 1 := by
  cases h with
  | ends _ _ => exact List.countP_le_length
  | unsent _ _ _ => exact List.countP_le_length
  | again _ hlate _ hrest =>
    rw [hrest.eq_singleton]
    simp [hlate, Wait.isLateChoice_confirmation]

/-- Each of the `Rounds` but the first asks for the confirmation once. -/
theorem accounts (h : Rounds id player notice request before waits result after) :
    ∃ asks, asks + 1 ≤ waits.length ∧ Accounts id player waits asks before after := by
  induction h with
  | ends hwait _ => exact ⟨0, by simp, Engine.accounts_of_awaitRequest hwait⟩
  | unsent hwait _ _ => exact ⟨0, by simp, Engine.accounts_of_awaitRequest hwait⟩
  | again hwait hlate hsend _ ih =>
    obtain ⟨asks, hasks, hrest⟩ := ih
    have hnone := Wait.leftover_of_isLateChoice hlate
    have hround := (Engine.accounts_of_awaitRequest hwait).trans hnone
      (Engine.accounts_of_sendConfirmation hsend)
    refine ⟨0 + 1 + asks, ?_, hround.trans hnone hrest⟩
    rw [List.length_cons]
    omega

end Rounds

/-! ### Confirmations -/

/-- A confirmation: the request that is parked is taken out and waited for, or the `notice` is sent
    first. Before the first wait the player who fired is informed. -/
inductive Confirming (id : GroupId) (group : FiringGroup) (notice : CasualtyNotice)
    (scene : Scene ρ) : List (Wait ρ) → Except Fault Unit → Scene ρ → Prop
  | unsent {free : Scene ρ} {fault : Fault}
      (hunpark : (Engine.unpark id group.hitPlayer).onScene scene = (.ok none, free))
      (hsend : (Engine.sendConfirmation id group.hitPlayer notice).onScene free =
        (.error fault, free)) :
      Confirming id group notice scene [] (.error fault) free
  | sent {free sent told after : Scene ρ} {asked : Asked CasualtyNotice Unit}
      {waits : List (Wait ρ)} {result : Except Fault Unit}
      (hunpark : (Engine.unpark id group.hitPlayer).onScene scene = (.ok none, free))
      (hsend : (Engine.sendConfirmation id group.hitPlayer notice).onScene free =
        (.ok asked, sent))
      (hinform : (Engine.informFiringPlayer id group notice).onScene sent = (.ok (), told))
      (hrounds : Rounds id group.hitPlayer notice (.confirmation asked) told waits result after) :
      Confirming id group notice scene waits result after
  | parked {free told after : Scene ρ} {request : Request} {waits : List (Wait ρ)}
      {result : Except Fault Unit}
      (hunpark : (Engine.unpark id group.hitPlayer).onScene scene = (.ok (some request), free))
      (hinform : (Engine.informFiringPlayer id group notice).onScene free = (.ok (), told))
      (hrounds : Rounds id group.hitPlayer notice request told waits result after) :
      Confirming id group notice scene waits result after

/-- Nothing but the `request` is taken out by `unpark`. -/
theorem Engine.free_of_unpark {id : GroupId} {player : PlayerId} {scene free : Scene ρ}
    {request : Option Request} (h : (unpark id player).onScene scene = (.ok request, free)) :
    free.host = scene.host ∧ ∀ key, free.ledger.parked[key]? =
      if key = (⟨id, player⟩ : RequestKey) then none else scene.ledger.parked[key]? := by
  obtain rfl : _ = free := congrArg Prod.snd h
  exact ⟨rfl, scene.ledger.getElem?_parked_unpark id player⟩

namespace Engine

variable (id : GroupId)

/-- Either wait is an `awaitRequest`, and then its end is judged: this one for a confirmation. -/
theorem awaitConfirmation_eq (player : PlayerId) (asked : Asked CasualtyNotice Unit) :
    (awaitConfirmation id player asked : Engine ρ Unit) =
      awaitRequest id player (.confirmation asked) >>= fun outcome =>
        of ((verdict? player outcome).getD (.ok ())) := by
  rw [awaitConfirmation, awaitRequest, bind_map_left]
  congr 1
  funext outcome
  rcases outcome with (_ | _) | _ | _ | _ <;> rfl

/-- And so is the wait for a choice that is too late: an `awaitRequest` whose end is judged. -/
theorem awaitLateChoice_eq (player : PlayerId) (asked : Asked CasualtyRequest (Option Losses)) :
    (awaitLateChoice id player asked : Engine ρ Unit) =
      awaitRequest id player (.choice asked) >>= fun outcome =>
        of ((verdict? player outcome).getD (.ok ())) := by
  rw [awaitLateChoice, awaitRequest, bind_map_left]
  congr 1
  funext outcome
  cases outcome <;> rfl

/-- A notice that is out takes one round of `Rounds`. -/
theorem awaitConfirmation_rounds (player : PlayerId) (notice : CasualtyNotice)
    (asked : Asked CasualtyNotice Unit) (scene : Scene ρ) :
    ∃ result after waits, (awaitConfirmation id player asked).onScene scene = (result, after) ∧
      Rounds id player notice (.confirmation asked) scene waits result after := by
  obtain ⟨after, hwait, -⟩ := awaitRequest_accounts id player (.confirmation asked) scene
  have hnever : ¬ (scene.waitFor (.confirmation asked)).isLateChoice = true := by
    simp [Wait.isLateChoice_confirmation]
  rw [Wait.isLateChoice_iff player] at hnever
  obtain ⟨result, hverdict⟩ := Option.ne_none_iff_exists'.1 hnever
  refine ⟨result, after, _, ?_, .ends hwait hverdict⟩
  rw [awaitConfirmation_eq, onScene_bind_ok hwait, hverdict]
  rfl

/-- A choice that is answered takes one round more, as `Rounds` says. -/
theorem awaitChoiceFirst_rounds (player : PlayerId) (notice : CasualtyNotice)
    (asked : Asked CasualtyRequest (Option Losses)) (scene : Scene ρ) :
    ∃ result after waits,
      (awaitLateChoice id player asked >>= fun _ =>
        sendConfirmation id player notice >>= awaitConfirmation id player).onScene scene =
          (result, after) ∧
        Rounds id player notice (.choice asked) scene waits result after := by
  obtain ⟨late, hwait, -⟩ := awaitRequest_accounts id player (.choice asked) scene
  have hrun : (awaitLateChoice id player asked).onScene scene =
      ((verdict? player (scene.waitFor (.choice asked)).outcome).getD (.ok ()), late) := by
    rw [awaitLateChoice_eq, onScene_bind_ok hwait, onScene_of]
  -- A choice that comes late only leads to the notice; anything else ends the rounds.
  cases hlate : (scene.waitFor (.choice asked)).isLateChoice with
  | false =>
    obtain ⟨fault, hverdict⟩ := verdict?_choice player hlate
    rw [hverdict] at hrun
    exact ⟨_, late, _, onScene_bind_error hrun, .ends hwait hverdict⟩
  | true =>
    rw [(Wait.isLateChoice_iff player _).1 hlate] at hrun
    rw [onScene_bind_ok hrun]
    rcases sendConfirmation_accounts id player notice late with ⟨fault, hsend⟩ |
      ⟨notified, sent, hsend, -⟩
    · exact ⟨_, late, _, onScene_bind_error hsend, .unsent hwait hlate hsend⟩
    · obtain ⟨result, after, waits, hconfirm, hrounds⟩ :=
        awaitConfirmation_rounds id player notice notified sent
      refine ⟨result, after, _, ?_, .again hwait hlate hsend hrounds⟩
      rw [onScene_bind_ok hsend]
      exact hconfirm

/-- The code of `confirmLosses` runs as `Confirming` says, in whatever scene it starts. -/
theorem confirmLosses_confirming (group : FiringGroup) (notice : CasualtyNotice)
    (scene : Scene ρ) :
    ∃ result after waits, (confirmLosses id group notice).onScene scene = (result, after) ∧
      Confirming id group notice scene waits result after := by
  obtain ⟨request, free, hunpark⟩ : ∃ request free,
      (unpark id group.hitPlayer).onScene scene = (.ok request, free) := ⟨_, _, rfl⟩
  unfold confirmLosses
  rw [onScene_bind_ok hunpark]
  -- Nothing was parked, or a notice, or a choice.
  rcases request with _ | (asked | asked)
  · rcases sendConfirmation_accounts id group.hitPlayer notice free with ⟨fault, hsend⟩ |
      ⟨asked, sent, hsend, -⟩
    · exact ⟨_, _, _, onScene_bind_error hsend, .unsent hunpark hsend⟩
    · obtain ⟨told, hinform, -⟩ := informFiringPlayer_accounts id group.hitPlayer group notice sent
      obtain ⟨result, after, waits, hconfirm, hrounds⟩ :=
        awaitConfirmation_rounds id group.hitPlayer notice asked told
      refine ⟨result, after, waits, ?_, .sent hunpark hsend hinform hrounds⟩
      rw [onScene_bind_ok hsend, onScene_bind_ok hinform]
      exact hconfirm
  · obtain ⟨told, hinform, -⟩ := informFiringPlayer_accounts id group.hitPlayer group notice free
    obtain ⟨result, after, waits, hconfirm, hrounds⟩ :=
      awaitConfirmation_rounds id group.hitPlayer notice asked told
    refine ⟨result, after, waits, ?_, .parked hunpark hinform hrounds⟩
    rw [onScene_bind_ok hinform]
    exact hconfirm
  · obtain ⟨told, hinform, -⟩ := informFiringPlayer_accounts id group.hitPlayer group notice free
    obtain ⟨result, after, waits, hconfirm, hrounds⟩ :=
      awaitChoiceFirst_rounds id group.hitPlayer notice asked told
    refine ⟨result, after, waits, ?_, .parked hunpark hinform hrounds⟩
    rw [onScene_bind_ok hinform]
    exact hconfirm

end Engine

namespace Confirming

variable {id : GroupId} {group : FiringGroup} {notice : CasualtyNotice} {scene after : Scene ρ}
  {waits : List (Wait ρ)} {result : Except Fault Unit}

/-- While `Confirming` somebody waits twice at most. -/
theorem length_le_two (h : Confirming id group notice scene waits result after) :
    waits.length ≤ 2 := by
  cases h with
  | unsent _ _ => simp
  | sent _ _ _ hrounds => exact hrounds.length_le_two
  | parked _ _ hrounds => exact hrounds.length_le_two

/-- While `Confirming` one late choice is dropped at most. -/
theorem countP_isLateChoice_le_one (h : Confirming id group notice scene waits result after) :
    waits.countP Wait.isLateChoice ≤ 1 := by
  cases h with
  | unsent _ _ => simp
  | sent _ _ _ hrounds => exact hrounds.countP_isLateChoice_le_one
  | parked _ _ hrounds => exact hrounds.countP_isLateChoice_le_one

/-- While `Confirming` the `notice` goes out once at most: what is sent first is not sent again. -/
theorem accounts (h : Confirming id group notice scene waits result after) :
    ∃ request free, (Engine.unpark id group.hitPlayer).onScene scene = (.ok request, free) ∧
      ∃ asks ≤ 1, Accounts id group.hitPlayer waits asks free after := by
  cases h with
  | unsent hunpark _ =>
    exact ⟨_, _, hunpark, 0, by simp, .of_letters [] rfl rfl (List.append_nil _).symm rfl⟩
  | sent hunpark hsend hinform hrounds =>
    obtain ⟨asks, hasks, haccounts⟩ := hrounds.accounts
    rw [hrounds.eq_singleton, List.length_singleton] at hasks
    have hsent := (Engine.accounts_of_sendConfirmation hsend).trans rfl
      (Engine.accounts_of_informFiringPlayer hinform)
    exact ⟨_, _, hunpark, 1 + 0 + asks, by omega, hsent.trans rfl haccounts⟩
  | parked hunpark hinform hrounds =>
    obtain ⟨asks, hasks, haccounts⟩ := hrounds.accounts
    have hlength := hrounds.length_le_two
    exact ⟨_, _, hunpark, 0 + asks, by omega,
      (Engine.accounts_of_informFiringPlayer hinform).trans rfl haccounts⟩

end Confirming

/-- To have losses confirmed, by `confirmLosses`, ends, whatever is parked and whatever the waits
    return. It waits twice at most, asks for the confirmation once at most and drops one late choice
    at most. It leaves a request parked for the `group` and the player hit just if its last wait
    gave up, and then it is the request of that wait. What is parked for others stays as it is. -/
theorem Engine.confirmLosses_ends (id : GroupId) (group : FiringGroup) (notice : CasualtyNotice)
    (scene : Scene ρ) :
    ∃ result after waits sent,
      (confirmLosses id group notice).onScene scene = (result, after) ∧
        Confirming id group notice scene waits result after ∧
        waits.length ≤ 2 ∧ after.host.yields = scene.host.yields + waits.length ∧
        after.host.correspondence = scene.host.correspondence ++ sent ∧
        sent.countP Event.asksToConfirm ≤ 1 ∧ waits.countP Wait.isLateChoice ≤ 1 ∧
        (∀ request,
          after.ledger.parked[(⟨id, group.hitPlayer⟩ : RequestKey)]? = some request ↔
            ∃ last, waits.getLast? = some last ∧ last.gaveUp = true ∧ last.left = request) ∧
        ∀ key : RequestKey, key ≠ ⟨id, group.hitPlayer⟩ →
          after.ledger.parked[key]? = scene.ledger.parked[key]? := by
  obtain ⟨result, after, waits, hrun, hconfirming⟩ :=
    confirmLosses_confirming id group notice scene
  obtain ⟨_, free, hunpark, asks, hasks, haccounts⟩ := hconfirming.accounts
  obtain ⟨hhost, hfree⟩ := free_of_unpark hunpark
  obtain ⟨sent, hsent, hcount⟩ := haccounts.letters
  refine ⟨result, after, waits, sent, hrun, hconfirming, hconfirming.length_le_two,
    hhost ▸ haccounts.yields, hhost ▸ hsent, hcount ▸ hasks,
    hconfirming.countP_isLateChoice_le_one, ?_, ?_⟩
  · intro request
    rw [haccounts.parked, if_pos rfl, hfree, if_pos rfl, Option.or_none]
    exact Wait.leftover_eq_some_iff
  · intro key hkey
    rw [haccounts.parked, if_neg hkey, hfree, if_neg hkey]

end Flak
