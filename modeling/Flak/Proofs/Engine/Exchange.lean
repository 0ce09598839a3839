import Flak.Engine.Exchange
import Flak.Proofs.Engine.Run
import Flak.Proofs.Fault

namespace Flak

/-!
# What asking remote players leaves alone

An exchange with remote players about a firing group moves letters and waits for answers. It does
not touch the game:

* `Exchanged` — two scenes between which only letters went out and waits took place;
* `Consulted` — the same, and nothing at all if nobody takes part;
* `Engine.Exchanges` — a computation that leads to such a scene, whether it fails or not, and does
  not fail for the phase of the group;
* `Engine.Letters` — computations that are put together from sending letters and waiting for
  answers;
* `Engine.confirmLosses_exchanges`, `Engine.askForLosses_exchanges` — both exchanges are of this
  kind.
-/

variable {ρ α β κ : Type}

/-- Whether an `Event` is a report to a player. -/
def Event.isReport : Event → Bool
  | .reported _ _ _ => true
  | _ => false

/-- The `record` after its firing player was `told`, or not. -/
def GroupRecord.tell (told : Bool) (record : GroupRecord) : GroupRecord :=
  { record with enemyNotified := record.enemyNotified || told }

/-- To `tell` nobody leaves the record as it is. -/
@[simp] theorem GroupRecord.tell_false (record : GroupRecord) : record.tell false = record := by
  simp [tell]

/-- To `tell` twice is to tell once, if either did. -/
theorem GroupRecord.tell_tell (first second : Bool) (record : GroupRecord) :
    (record.tell first).tell second = record.tell (first || second) := by
  simp [tell, Bool.or_assoc]

/-- The scene `after` differs from `before` by letters and waits that concern one group. The slot
    of execution is held if it was held before or if it was given up in between. -/
structure Exchanged (id : GroupId) (before after : Scene ρ) : Prop where
  board : after.host.board = before.host.board
  player : after.host.player = before.host.player
  headless : after.host.headless = before.host.headless
  dice : after.host.dice = before.host.dice
  history : after.host.history = before.host.history
  letters : ∃ sent, after.host.correspondence = before.host.correspondence ++ sent ∧
    ∀ event ∈ sent, event.isReport = false
  yields : before.host.yields ≤ after.host.yields
  slot : after.host.inDelegate =
    (before.host.inDelegate || decide (before.host.yields < after.host.yields))
  ledger : ∃ told parked,
    after.ledger = { before.ledger.updateRecord id (GroupRecord.tell told) with parked }

/-- As `Exchanged` says, letters and waits; and none of them if nobody takes part. -/
structure Consulted (id : GroupId) (before after : Scene ρ) : Prop
    extends Exchanged id before after where
  nobody : before.ledger.headless = true → after = before

/-! ### Changes of the ledger -/

namespace Ledger

/-- Two changes by `updateRecord` are one after the other. -/
theorem updateRecord_updateRecord (id : GroupId) (first second : GroupRecord → GroupRecord)
    (ledger : Ledger) :
    (ledger.updateRecord id first).updateRecord id second =
      ledger.updateRecord id (second ∘ first) := by
  simp [updateRecord, List.modify_modify_eq]

/-- By `updateRecord` one record changes and the others stay. -/
theorem getElem?_updateRecord (id : GroupId) (change : GroupRecord → GroupRecord)
    (ledger : Ledger) (index : Nat) :
    (ledger.updateRecord id change).groups[index]? =
      (ledger.groups[index]?).map fun record =>
        if index = id.index then change record else record := by
  rw [updateRecord, List.getElem?_modify]
  by_cases hindex : id.index = index
  · simp [hindex]
  · have hne : index ≠ id.index := fun h => hindex h.symm
    cases ledger.groups[index]? <;> simp [hindex, hne]

/-- No record comes or goes by `updateRecord`. -/
theorem length_updateRecord (id : GroupId) (change : GroupRecord → GroupRecord) (ledger : Ledger) :
    (ledger.updateRecord id change).groups.length = ledger.groups.length :=
  List.length_modify _ _ _

/-- The record of a group is the one at the place that its `id` gives. -/
theorem record_eq_ok {id : GroupId} {ledger : Ledger} {record : GroupRecord} :
    ledger.record id = .ok record ↔ ledger.groups[id.index]? = some record := by
  rw [Ledger.record]
  cases ledger.groups[id.index]? with
  | none => simp
  | some found => simp

/-- There is only one `record` under an `id`. -/
theorem eq_of_record {id : GroupId} {ledger : Ledger} {record is : GroupRecord}
    (hrecord : ledger.record id = .ok record) (his : ledger.groups[id.index]? = some is) :
    record = is :=
  Option.some.inj ((record_eq_ok.1 hrecord).symm.trans his)

/-- To `tell` nobody leaves the whole ledger as it is. -/
theorem updateRecord_tell_false (group : GroupId) (ledger : Ledger) :
    ledger.updateRecord group (GroupRecord.tell false) = ledger := by
  have hsame : GroupRecord.tell false = id := funext GroupRecord.tell_false
  rw [updateRecord, hsame, List.modify_id]

/-- What was put under a key by `park` is kept there; other keys keep what they had. -/
theorem getElem?_parked_park (ledger : Ledger) (id : GroupId) (player : PlayerId)
    (request : Request) (key : RequestKey) :
    (ledger.park id player request).parked[key]? =
      if key = ⟨id, player⟩ then some request else ledger.parked[key]? := by
  have hkey : compare (⟨id, player⟩ : RequestKey) key = .eq ↔ key = ⟨id, player⟩ :=
    Std.compare_eq_iff_eq.trans eq_comm
  simp only [park, Std.ExtTreeMap.getElem?_insert, hkey]

/-- What was taken out by `unpark` is no longer kept; other keys keep what they had. -/
theorem getElem?_parked_unpark (ledger : Ledger) (id : GroupId) (player : PlayerId)
    (key : RequestKey) :
    (ledger.unpark id player).2.parked[key]? =
      if key = ⟨id, player⟩ then none else ledger.parked[key]? := by
  have hkey : compare (⟨id, player⟩ : RequestKey) key = .eq ↔ key = ⟨id, player⟩ :=
    Std.compare_eq_iff_eq.trans eq_comm
  simp only [unpark, Std.ExtTreeMap.getElem?_erase, hkey]

end Ledger

namespace Exchanged

variable {id : GroupId} {first second third : Scene ρ}

/-- Nothing is `Exchanged` where nothing happens. -/
theorem refl (id : GroupId) (scene : Scene ρ) : Exchanged id scene scene where
  board := rfl
  player := rfl
  headless := rfl
  dice := rfl
  history := rfl
  letters := ⟨[], by simp⟩
  yields := Nat.le_refl _
  slot := by simp
  ledger := ⟨false, scene.ledger.parked, by rw [Ledger.updateRecord_tell_false]⟩

/-- Nobody dies by what is `Exchanged`. -/
theorem casualties (h : Exchanged id first second) :
    second.ledger.casualties = first.ledger.casualties := by
  obtain ⟨_, _, hledger⟩ := h.ledger
  rw [hledger]
  rfl

/-- Whether the fire can be undone is as before what is `Exchanged`. -/
theorem cantUndo (h : Exchanged id first second) :
    second.ledger.cantUndo = first.ledger.cantUndo := by
  obtain ⟨_, _, hledger⟩ := h.ledger
  rw [hledger]
  rfl

/-- No record comes or goes by what is `Exchanged`. -/
theorem length_groups (h : Exchanged id first second) :
    second.ledger.groups.length = first.ledger.groups.length := by
  obtain ⟨_, _, hledger⟩ := h.ledger
  rw [hledger]
  exact Ledger.length_updateRecord _ _ _

/-- What is `Exchanged` first and what is exchanged then is exchanged altogether. -/
theorem trans (h : Exchanged id first second) (h' : Exchanged id second third) :
    Exchanged id first third where
  board := h'.board.trans h.board
  player := h'.player.trans h.player
  headless := h'.headless.trans h.headless
  dice := h'.dice.trans h.dice
  history := h'.history.trans h.history
  letters := by
    obtain ⟨sent, hsent, hno⟩ := h.letters
    obtain ⟨sent', hsent', hno'⟩ := h'.letters
    refine ⟨sent ++ sent', by rw [hsent', hsent, List.append_assoc], fun event hevent => ?_⟩
    rcases List.mem_append.1 hevent with hevent | hevent
    · exact hno event hevent
    · exact hno' event hevent
  yields := Nat.le_trans h.yields h'.yields
  slot := by
    have hle := h.yields
    have hle' := h'.yields
    -- The slot was given up in between if one of the two numbers of waits has grown.
    rw [h'.slot, h.slot, Bool.or_assoc]
    congr 1
    rw [← Bool.decide_or]
    exact decide_eq_decide.2 (by omega)
  ledger := by
    obtain ⟨told, parked, htold⟩ := h.ledger
    obtain ⟨told', parked', htold'⟩ := h'.ledger
    refine ⟨told || told', parked', ?_⟩
    have htell : GroupRecord.tell told' ∘ GroupRecord.tell told =
        GroupRecord.tell (told || told') := funext fun record => record.tell_tell told told'
    rw [htold', htold, ← htell, ← Ledger.updateRecord_updateRecord]
    rfl

end Exchanged

/-- Nobody is `Consulted` where nothing happens. -/
theorem Consulted.refl (id : GroupId) (scene : Scene ρ) : Consulted id scene scene :=
  { Exchanged.refl id scene with nobody := fun _ => rfl }

/-- Letters that go out only if somebody takes part: what was `Exchanged` was `Consulted`. -/
theorem Exchanged.consulted {id : GroupId} {before after : Scene ρ} (h : Exchanged id before after)
    (hsomebody : before.ledger.headless = false) : Consulted id before after :=
  { h with nobody := fun hnobody => by simp [hsomebody] at hnobody }

/-! ### Computations that exchange letters -/

namespace Engine

/-- A computation `x` that leaves the game alone, whether it fails or not, and never fails because
    of the phase of a group. -/
def Exchanges (id : GroupId) (x : Engine ρ α) : Prop :=
  ∀ scene, Exchanged id scene (x.onScene scene).2 ∧ Orderly (x.onScene scene).1

namespace Exchanges

variable {id : GroupId}

/-- A value `a` alone exchanges nothing. -/
theorem pure (a : α) : Exchanges id (Pure.pure a : Engine ρ α) :=
  fun scene => ⟨.refl id scene, .ok a⟩

/-- A `fault` that is no mismatch of phases exchanges nothing. -/
theorem throw {fault : Fault} (h : fault.isMismatch = false) :
    Exchanges id (MonadExcept.throw fault : Engine ρ α) :=
  fun scene => ⟨.refl id scene, .error h⟩

/-- One computation that `Exchanges` letters can go on to another. -/
theorem bind {x : Engine ρ α} {f : α → Engine ρ β} (hx : Exchanges id x)
    (hf : ∀ a, Exchanges id (f a)) : Exchanges id (x >>= f) := by
  intro scene
  have hscene := hx scene
  rw [onScene_bind]
  rcases h : x.onScene scene with ⟨fault | a, after⟩
  · rw [h] at hscene
    exact ⟨hscene.1, .error (hscene.2 fault rfl)⟩
  · rw [h] at hscene
    obtain ⟨hlater, horderly⟩ := hf a after
    exact ⟨hscene.1.trans hlater, horderly⟩

/-- To look at the scene, by `get`, exchanges nothing. -/
theorem scene : Exchanges id (get : Engine ρ (Scene ρ)) :=
  fun scene => ⟨.refl id scene, .ok scene⟩

end Exchanges

/-! ### The parts of an exchange -/

variable (id : GroupId) (player : PlayerId)

/-- To `unpark` a request leaves the game alone. -/
theorem unpark_exchanges : Exchanges id (unpark id player : Engine ρ (Option Request)) := by
  intro scene
  refine ⟨?_, .ok _⟩
  exact {
    Exchanged.refl id scene with
    ledger := ⟨false, scene.ledger.parked.erase ⟨id, player⟩, by
      rw [Ledger.updateRecord_tell_false]
      rfl⟩ }

/-- A wait, by `await`, changes the flags of cancellation and counts a yield; the slot is held after
    it. -/
theorem await_host (call : Call α) (timeout : Option Nat) (host : Host ρ) :
    ∃ cancelled, (host.await call timeout).2.2 = { host with
      cancelled, cancelComing := false, inDelegate := true, yields := host.yields + 1 } :=
  ⟨_, rfl⟩

/-- With an answer `await` settles the `question`; without one it is parked. -/
theorem await_onScene (timeout : Option Nat) (question : Question) (keep : Asked κ α → Request)
    (asked : Asked κ α) (scene : Scene ρ) :
    (await id player timeout question keep asked).onScene scene =
      match scene.host.await asked.call timeout with
      | (outcome, call, host) =>
          match outcome with
          | .answered _ | .lost =>
              (.ok outcome,
                { scene with host := host.note (.settled player id question (accepted outcome)) })
          | .timedOut | .interrupted =>
              (.ok outcome, ⟨host, scene.ledger.park id player (keep { asked with call })⟩) := rfl

/-- To `await` an answer leaves the game alone. -/
theorem await_exchanges (timeout : Option Nat) (question : Question) (keep : Asked κ α → Request)
    (asked : Asked κ α) :
    Exchanges id (await id player timeout question keep asked : Engine ρ _) := by
  intro scene
  obtain ⟨cancelled, hhost⟩ := await_host asked.call timeout scene.host
  rw [await_onScene]
  rcases hwait : scene.host.await asked.call timeout with ⟨outcome, call, host⟩
  rw [hwait] at hhost
  obtain rfl : host = _ := hhost
  -- A wait that is answered sends one event, and any other one parks its request.
  have hanswered (event : Event) (hevent : event.isReport = false) : Exchanged id scene
      { scene with host := { scene.host with
          cancelled
          cancelComing := false
          inDelegate := true
          yields := scene.host.yields + 1
          correspondence := scene.host.correspondence ++ [event] } } :=
    { Exchanged.refl id scene with
      letters := ⟨[event], rfl, by simpa using hevent⟩
      yields := Nat.le_succ _
      slot := by simp }
  have hparked (request : Request) : Exchanged id scene
      ⟨{ scene.host with
          cancelled
          cancelComing := false
          inDelegate := true
          yields := scene.host.yields + 1 }, scene.ledger.park id player request⟩ :=
    { Exchanged.refl id scene with
      letters := ⟨[], by simp⟩
      yields := Nat.le_succ _
      slot := by simp
      ledger := ⟨false, _, by rw [Ledger.updateRecord_tell_false]; rfl⟩ }
  cases outcome with
  | answered _ => exact ⟨hanswered _ rfl, .ok _⟩
  | lost => exact ⟨hanswered _ rfl, .ok _⟩
  | timedOut => exact ⟨hparked _, .ok _⟩
  | interrupted => exact ⟨hparked _, .ok _⟩

/-- Sending a letter to the `player` changes that player's rows, those of the `remote`, and the
    correspondence. -/
theorem Exchanged.of_letter (scene : Scene ρ) (player : PlayerId) (remote : Remote) (event : Event)
    (hevent : event.isReport = false) (cancelComing : Bool) :
    Exchanged id scene { scene with host := { (scene.host.connect player remote).note event with
      cancelComing } } :=
  { Exchanged.refl id scene with letters := ⟨[event], rfl, by simpa using hevent⟩ }

/-- The letter of `sendConfirmation` goes out, or the fault is `noRemote`. -/
theorem sendConfirmation_onScene (notice : CasualtyNotice) (scene : Scene ρ) :
    (sendConfirmation id player notice).onScene scene =
      match scene.host.askConfirmation player id notice with
      | some (asked, host) => (.ok asked, { scene with host })
      | none => (.error (.remote (.noRemote player)), scene) := rfl

/-- To send a notice, by `sendConfirmation`, leaves the game alone. -/
theorem sendConfirmation_exchanges (notice : CasualtyNotice) :
    Exchanges id (sendConfirmation id player notice : Engine ρ _) := by
  intro scene
  rw [sendConfirmation_onScene, Host.askConfirmation]
  cases hremote : scene.host.remotes[player]? with
  | none => exact ⟨.refl id scene, .error rfl⟩
  | some remote => exact ⟨Exchanged.of_letter id scene player _ _ rfl _, .ok _⟩

/-- The letter of `sendChoice` goes out, or there is nobody to ask. -/
theorem sendChoice_onScene (request : CasualtyRequest) (scene : Scene ρ) :
    (sendChoice id player request).onScene scene =
      match scene.host.askChoice player id request with
      | some (asked, host) => (.ok (some asked), { scene with host })
      | none => (.ok none, scene) := rfl

/-- To send a question, by `sendChoice`, leaves the game alone. -/
theorem sendChoice_exchanges (request : CasualtyRequest) :
    Exchanges id (sendChoice id player request : Engine ρ _) := by
  intro scene
  rw [sendChoice_onScene, Host.askChoice]
  cases hremote : scene.host.remotes[player]? with
  | none => exact ⟨.refl id scene, .ok _⟩
  | some remote => exact ⟨Exchanged.of_letter id scene player _ _ rfl _, .ok _⟩

/-- To note that the player who fired was told leaves the game alone: it changes the ledger by
    `tell`. -/
theorem told_exchanges :
    Exchanges id (changeLedger (ρ := ρ)
      (·.updateRecord id fun record => { record with enemyNotified := true })) := by
  refine fun scene => ⟨?_, .ok ()⟩
  have htell : (fun record => { record with enemyNotified := true }) = GroupRecord.tell true :=
    funext fun record => by simp [GroupRecord.tell]
  exact { Exchanged.refl id scene with
    ledger := ⟨true, scene.ledger.parked, by rw [← htell]; rfl⟩ }

/-- To `inform` the player who fired leaves the game alone. -/
theorem inform_exchanges (notice : CasualtyNotice) (hit : PlayerId) :
    Exchanges id (changeHost (ρ := ρ) (·.inform player id notice hit)) := by
  refine fun scene => ⟨?_, .ok ()⟩
  rw [onScene_changeHost, Host.inform]
  cases hremote : scene.host.remotes[player]? with
  | none => exact .refl id scene
  | some remote => exact Exchanged.of_letter id scene _ _ _ rfl _

/-- By `informFiringPlayer`, the player who fired need not be informed, or the ledger has no note of
    it yet: then the note is made and the letter goes out. -/
theorem informFiringPlayer_onScene (group : FiringGroup) (notice : CasualtyNotice)
    (scene : Scene ρ) :
    (informFiringPlayer id group notice).onScene scene = (.ok (), scene) ∨
      ∃ record, scene.ledger.record id = .ok record ∧ record.enemyNotified = false ∧
        (informFiringPlayer id group notice).onScene scene =
          (.ok (), ⟨scene.host.inform group.firingPlayer id notice group.hitPlayer,
            scene.ledger.updateRecord id fun record => { record with enemyNotified := true }⟩) := by
  rcases hrecord : scene.ledger.record id with fault | record
  · exact .inl (by simp [informFiringPlayer, onScene_bind, hrecord])
  cases htold : record.enemyNotified with
  | true => exact .inl (by simp [informFiringPlayer, onScene_bind, hrecord, htold])
  | false =>
    exact .inr ⟨record, rfl, htold, by simp [informFiringPlayer, onScene_bind, hrecord, htold]⟩

/-! ### The exchanges -/

/-- What exchanges of letters about the group `id` are put together from. -/
inductive Letters (id : GroupId) : {α : Type} → Engine ρ α → Prop
  | pure {α : Type} (a : α) : Letters id (Pure.pure a)
  | throw {α : Type} {fault : Fault} (h : fault.isRemote = true) :
      Letters id (MonadExcept.throw fault : Engine ρ α)
  | bind {α β : Type} {x : Engine ρ α} {f : α → Engine ρ β} (hx : Letters id x)
      (hf : ∀ a, Letters id (f a)) : Letters id (x >>= f)
  | scene : Letters id (get : Engine ρ (Scene ρ))
  | told : Letters id
      (changeLedger (·.updateRecord id fun record => { record with enemyNotified := true }))
  | inform (player : PlayerId) (notice : CasualtyNotice) (hit : PlayerId) :
      Letters id (changeHost (·.inform player id notice hit))
  | unpark (player : PlayerId) : Letters id (Engine.unpark id player)
  | await {κ α : Type} (player : PlayerId) (timeout : Option Nat) (question : Question)
      (keep : Asked κ α → Request) (asked : Asked κ α) :
      Letters id (Engine.await id player timeout question keep asked)
  | sendConfirmation (player : PlayerId) (notice : CasualtyNotice) :
      Letters id (Engine.sendConfirmation id player notice)
  | sendChoice (player : PlayerId) (request : CasualtyRequest) :
      Letters id (Engine.sendChoice id player request)

/-- Whatever is put together from `Letters` leaves the game alone. -/
theorem Letters.exchanges {x : Engine ρ α} (h : Letters id x) : Exchanges id x := by
  induction h with
  | pure a => exact .pure a
  | throw h => exact .throw (Fault.isMismatch_of_isRemote h)
  | bind _ _ ihx ihf => exact ihx.bind ihf
  | scene => exact .scene
  | told => exact told_exchanges id
  | inform player notice hit => exact inform_exchanges id player notice hit
  | unpark player => exact unpark_exchanges id player
  | await player timeout question keep asked =>
    exact await_exchanges id player timeout question keep asked
  | sendConfirmation player notice => exact sendConfirmation_exchanges id player notice
  | sendChoice player request => exact sendChoice_exchanges id player request

/-- To inform the player who fired, by `informFiringPlayer`, takes only letters. -/
theorem informFiringPlayer_letters (group : FiringGroup) (notice : CasualtyNotice) :
    Letters id (informFiringPlayer id group notice : Engine ρ Unit) := by
  refine Letters.scene.bind fun scene => ?_
  cases scene.ledger.record id with
  | error _ => exact .pure ()
  | ok record =>
    dsimp only
    cases record.enemyNotified with
    | true => exact .pure ()
    | false => exact Letters.told.bind fun _ => .inform group.firingPlayer notice group.hitPlayer

/-- To wait for a confirmation, by `awaitConfirmation`, takes only letters. -/
theorem awaitConfirmation_letters (asked : Asked CasualtyNotice Unit) :
    Letters id (awaitConfirmation id player asked : Engine ρ Unit) := by
  refine (Letters.await player _ _ _ asked).bind fun outcome => ?_
  rcases outcome with (_ | _) | _ | _ | _
  · exact .throw rfl
  · exact .pure _
  · exact .throw rfl
  · exact .throw rfl
  · exact .throw rfl

/-- To wait for a choice that is too late, by `awaitLateChoice`, takes only letters. -/
theorem awaitLateChoice_letters (asked : Asked CasualtyRequest (Option Losses)) :
    Letters id (awaitLateChoice id player asked : Engine ρ Unit) := by
  refine (Letters.await player _ _ _ asked).bind fun outcome => ?_
  cases outcome with
  | answered _ => exact .pure _
  | lost => exact .throw rfl
  | timedOut => exact .throw rfl
  | interrupted => exact .throw rfl

/-- To have losses confirmed, by `confirmLosses`, takes only letters. -/
theorem confirmLosses_letters (group : FiringGroup) (notice : CasualtyNotice) :
    Letters id (confirmLosses id group notice : Engine ρ Unit) := by
  -- What was parked decides what is still to be sent.
  refine (Letters.unpark group.hitPlayer).bind fun request => ?_
  rcases request with _ | (asked | asked)
  · refine (Letters.sendConfirmation group.hitPlayer notice).bind fun asked => ?_
    exact (informFiringPlayer_letters id group notice).bind fun _ =>
      awaitConfirmation_letters id group.hitPlayer asked
  · exact (informFiringPlayer_letters id group notice).bind fun _ =>
      awaitConfirmation_letters id group.hitPlayer asked
  · refine (informFiringPlayer_letters id group notice).bind fun _ => ?_
    refine (awaitLateChoice_letters id group.hitPlayer asked).bind fun _ => ?_
    exact (Letters.sendConfirmation group.hitPlayer notice).bind fun asked =>
      awaitConfirmation_letters id group.hitPlayer asked

/-- To wait for a choice in time, by `awaitChoice`, takes only letters. -/
theorem awaitChoice_letters (timing : Timing) (asked : Asked CasualtyRequest (Option Losses)) :
    Letters id (awaitChoice timing id player asked : Engine ρ _) := by
  refine (Letters.await player _ _ _ asked).bind fun outcome => ?_
  rcases outcome with (_ | _) | _ | _ | _
  · exact .pure _
  · exact .pure _
  · exact .pure _
  · exact .pure _
  · exact .throw rfl

/-- To wait for a confirmation that is still out, by `awaitEarlyConfirmation`, takes only
    letters. -/
theorem awaitEarlyConfirmation_letters (timing : Timing) (asked : Asked CasualtyNotice Unit) :
    Letters id (awaitEarlyConfirmation timing id player asked : Engine ρ Unit) := by
  refine (Letters.await player _ _ _ asked).bind fun outcome => ?_
  cases outcome with
  | answered _ => exact .pure _
  | lost => exact .pure _
  | timedOut => exact .pure _
  | interrupted => exact .throw rfl

/-- To ask for a choice, by `askForLosses`, takes only letters. -/
theorem askForLosses_letters (timing : Timing) (request : CasualtyRequest) :
    Letters id (askForLosses timing id player request : Engine ρ _) := by
  refine (Letters.unpark player).bind fun earlier => ?_
  rcases earlier with _ | (asked | asked)
  · refine (Letters.sendChoice player request).bind fun asked => ?_
    cases asked with
    | none => exact .pure none
    | some asked => exact awaitChoice_letters id player timing asked
  · exact (awaitEarlyConfirmation_letters id player timing asked).bind fun _ => .pure none
  · exact awaitChoice_letters id player timing asked

/-- To have losses confirmed, by `confirmLosses`, leaves the game alone. -/
theorem confirmLosses_exchanges (group : FiringGroup) (notice : CasualtyNotice) :
    Exchanges id (confirmLosses id group notice : Engine ρ Unit) :=
  (confirmLosses_letters id group notice).exchanges

/-- To ask for a choice, by `askForLosses`, leaves the game alone. -/
theorem askForLosses_exchanges (timing : Timing) (request : CasualtyRequest) :
    Exchanges id (askForLosses timing id player request : Engine ρ _) :=
  (askForLosses_letters id player timing request).exchanges

end Engine

end Flak
