import Flak.Proofs.Engine.Exchange

namespace Flak

/-!
# Conversations with remote players

What an exchange with remote players says, and in which order:

* `Ledger.question?` — what the request asks that is parked for a group and player;
* `outAfter?` — the question that is out to a player about a group after some events, if they took
  turns: nothing was asked while something was out, and only what was out was settled;
* `Conversed` — two scenes between which letters about one group and player were exchanged in turn,
  and the firing player was informed only if the ledger had no note of it;
* `Settles`, `Parks` — the two ways in which a wait can end;
* `Confirms` — a conversation that was after the confirmation of a notice;
* `Engine.confirmLosses_cases`, `Engine.askForLosses_cases` — both exchanges are of this kind, and
  what they leave parked.
-/

variable {ρ κ α : Type}

/-! ### What is out -/

/-- What a `Request` asks, as a `Question`. -/
def Request.question : Request → Question
  | .confirmation asked => .confirm asked.content
  | .choice asked => .choose asked.content

namespace Event

/-- What is out to a player about a group after an event, with `out` before it, if it may happen:
    nothing is asked while something is out, and only what is out is settled. -/
def turn (key : RequestKey) (out : Option Question) : Event → Option (Option Question)
  | .asked _ player group question =>
      if key = ⟨group, player⟩ then (if out = none then some (some question) else none)
      else some out
  | .settled player group question _ =>
      if key = ⟨group, player⟩ then (if out = some question then some none else none) else some out
  | .reported _ _ _ => some out
  | .informed _ _ _ _ => some out

/-- Whether an event shows the losses of the group `id` to the player who fired. -/
def informs (id : GroupId) : Event → Bool
  | .informed _ group _ _ => group = id
  | _ => false

end Event

/-- What is out under a `key` after `events` that took turns. -/
def outAfter? (key : RequestKey) (out : Option Question) (events : List Event) :
    Option (Option Question) :=
  events.foldlM (fun out event => event.turn key out) out

/-- Without events, what was `out` is out. -/
@[simp] theorem outAfter?_nil (key : RequestKey) (out : Option Question) :
    outAfter? key out [] = some out := rfl

/-- What is out after `first` and then `second` is what the second leaves out when it starts with
    what the first left. -/
theorem outAfter?_append (key : RequestKey) (out : Option Question) (first second : List Event) :
    outAfter? key out (first ++ second) =
      (outAfter? key out first).bind fun mid => outAfter? key mid second := by
  simp [outAfter?, List.foldlM_append]

/-- After a single `event`, what is out is what its `turn` says. -/
theorem outAfter?_singleton (key : RequestKey) (out : Option Question) (event : Event) :
    outAfter? key out [event] = event.turn key out := by
  simp [outAfter?]

/-! ### Requests and notes in the ledger -/

namespace Ledger

/-- What the request asks that is parked under the `key`. -/
def question? (ledger : Ledger) (key : RequestKey) : Option Question :=
  (ledger.parked[key]?).map Request.question

/-- Whether the firing player of the group `id` was told, or need not be told any more. -/
def told (ledger : Ledger) (id : GroupId) : Bool :=
  (ledger.groups[id.index]?).any GroupRecord.enemyNotified

/-- Nothing is out as a `question?` where nothing is parked. -/
theorem question?_of_parked_eq_empty {ledger : Ledger} (h : ledger.parked = ∅) (key : RequestKey) :
    ledger.question? key = none := by
  rw [question?, h, Std.ExtTreeMap.getElem?_empty]
  rfl

/-- By `unpark` nothing is parked under the key of a group and player any more; other keys keep what
    they had. -/
theorem question?_unpark (ledger : Ledger) (id : GroupId) (player : PlayerId) (key : RequestKey) :
    (ledger.unpark id player).2.question? key =
      if key = ⟨id, player⟩ then none else ledger.question? key := by
  rw [question?, getElem?_parked_unpark]
  split <;> rfl

/-- By `park` the question of the `request` is parked; other keys keep what they had. -/
theorem question?_park (ledger : Ledger) (id : GroupId) (player : PlayerId) (request : Request)
    (key : RequestKey) :
    (ledger.park id player request).question? key =
      if key = ⟨id, player⟩ then some request.question else ledger.question? key := by
  rw [question?, getElem?_parked_park]
  split <;> rfl

/-- A `change` of records that leaves `enemyNotified` alone leaves it who was told. -/
theorem told_updateRecord {id : GroupId} {change : GroupRecord → GroupRecord} (ledger : Ledger)
    (h : ∀ record, (change record).enemyNotified = record.enemyNotified) (group : GroupId) :
    (ledger.updateRecord id change).told group = ledger.told group := by
  unfold told
  rw [getElem?_updateRecord]
  cases ledger.groups[group.index]? with
  | none => rfl
  | some record =>
    show (if group.index = id.index then change record else record).enemyNotified = _
    split
    · exact h record
    · rfl

end Ledger

/-! ### Conversations -/

/-- Between two scenes the letters `sent` were exchanged about one group and player, in turn: first
    `out` was out, then `out'`. Nobody else was asked anything, and a firing player who was informed
    was not noted as told before and is afterwards. -/
structure Conversed (key : RequestKey) (out out' : Option Question) (sent : List Event)
    (before after : Scene ρ) : Prop where
  letters : after.host.correspondence = before.host.correspondence ++ sent
  turns : outAfter? key out sent = some out'
  aside : ∀ other, other ≠ key → ∀ out, outAfter? other out sent = some out
  requests : ∀ other, other ≠ key → after.ledger.question? other = before.ledger.question? other
  informed : ∀ group, sent.countP (Event.informs group) + (before.ledger.told group).toNat ≤
    (after.ledger.told group).toNat

namespace Conversed

variable {key : RequestKey} {out out' out'' : Option Question} {sent sent' : List Event}
  {before after last : Scene ρ}

/-- Nobody has `Conversed` where nothing happens. -/
theorem refl (key : RequestKey) (out : Option Question) (scene : Scene ρ) :
    Conversed key out out [] scene scene where
  letters := by simp
  turns := rfl
  aside _ _ _ := rfl
  requests _ _ := rfl
  informed group := by simp

/-- What was `Conversed` first and then is a conversation altogether. -/
theorem trans (h : Conversed key out out' sent before after)
    (h' : Conversed key out' out'' sent' after last) :
    Conversed key out out'' (sent ++ sent') before last where
  letters := by rw [h'.letters, h.letters, List.append_assoc]
  turns := by
    rw [outAfter?_append, h.turns]
    exact h'.turns
  aside other hother out := by
    rw [outAfter?_append, h.aside other hother]
    exact h'.aside other hother out
  requests other hother := (h'.requests other hother).trans (h.requests other hother)
  informed group := by
    have hfirst := h.informed group
    have hsecond := h'.informed group
    rw [List.countP_append]
    omega

/-- A request is taken out, or parked, without a letter: nothing was `sent`. -/
theorem of_requests (hletters : after.host.correspondence = before.host.correspondence)
    (hgroups : after.ledger.groups = before.ledger.groups)
    (hrequests : ∀ other, other ≠ key →
      after.ledger.question? other = before.ledger.question? other) :
    Conversed key out out [] before after where
  letters := by simp [hletters]
  turns := rfl
  aside _ _ _ := rfl
  requests := hrequests
  informed group := by simp [Ledger.told, hgroups]

/-- One `event` about the group and player, and the ledger stays as it is. -/
theorem of_letter {event : Event}
    (hletters : after.host.correspondence = before.host.correspondence ++ [event])
    (hledger : after.ledger = before.ledger) (hturn : event.turn key out = some out')
    (haside : ∀ other, other ≠ key → ∀ out, event.turn other out = some out)
    (hinforms : ∀ group, event.informs group = false) :
    Conversed key out out' [event] before after where
  letters := hletters
  turns := by rw [outAfter?_singleton, hturn]
  aside other hother out := by rw [outAfter?_singleton, haside other hother]
  requests other _ := by rw [hledger]
  informed group := by simp [hledger, hinforms group]

end Conversed

/-- The scene `after` differs from `before` in that a `question` was settled. -/
structure Settles (id : GroupId) (player : PlayerId) (question : Question) (accepted : Bool)
    (before after : Scene ρ) : Prop where
  letters : after.host.correspondence =
    before.host.correspondence ++ [.settled player id question accepted]
  ledger : after.ledger = before.ledger

/-- The scene `after` differs from `before` in that a `question` was parked. -/
structure Parks (id : GroupId) (player : PlayerId) (question : Question)
    (before after : Scene ρ) : Prop where
  letters : after.host.correspondence = before.host.correspondence
  ledger : ∃ request : Request, request.question = question ∧
    after.ledger = before.ledger.park id player request

section Ends

variable {id : GroupId} {player : PlayerId} {question : Question} {accepted : Bool}
  {before after : Scene ρ}

/-- What `Settles` a question that was out is a conversation after which nothing is out. -/
theorem Settles.conversed (h : Settles id player question accepted before after) :
    Conversed ⟨id, player⟩ (some question) none [.settled player id question accepted] before
      after := by
  refine .of_letter h.letters h.ledger ?_ ?_ fun _ => rfl
  · simp [Event.turn]
  · intro other hother out
    simp [Event.turn, hother]

/-- What was settled is not parked again: if nothing was parked before, nothing is parked
    `after`. -/
theorem Settles.question?_eq_none (h : Settles id player question accepted before after)
    (hfree : before.ledger.question? ⟨id, player⟩ = none) :
    after.ledger.question? ⟨id, player⟩ = none := by
  rw [h.ledger, hfree]

/-- After what `Parks` a question it is parked, and other keys keep what they had. -/
theorem Parks.question? (h : Parks id player question before after) (key : RequestKey) :
    after.ledger.question? key =
      if key = ⟨id, player⟩ then some question else before.ledger.question? key := by
  obtain ⟨request, hquestion, hledger⟩ := h.ledger
  rw [hledger, Ledger.question?_park, hquestion]

/-- After what `Parks` a question it is the one that is parked. -/
theorem Parks.question?_self (h : Parks id player question before after) :
    after.ledger.question? ⟨id, player⟩ = some question := by
  rw [h.question?, if_pos rfl]

/-- What `Parks` a question is a conversation without letters. -/
theorem Parks.conversed (h : Parks id player question before after) (out : Option Question) :
    Conversed ⟨id, player⟩ out out [] before after := by
  have hgroups : after.ledger.groups = before.ledger.groups := by
    obtain ⟨request, -, hledger⟩ := h.ledger
    rw [hledger]
    rfl
  refine .of_requests h.letters hgroups fun other hother => ?_
  rw [h.question?, if_neg hother]

/-- At the end of a wait the `question` that was out is settled, or it is still out and parked. -/
theorem conversed_of_end (hfree : before.ledger.question? ⟨id, player⟩ = none)
    (h : (∃ accepted, Settles id player question accepted before after) ∨
      Parks id player question before after) :
    ∃ sent, Conversed ⟨id, player⟩ (some question) (after.ledger.question? ⟨id, player⟩) sent
        before after ∧
      ∀ left, after.ledger.question? ⟨id, player⟩ = some left → left = question := by
  rcases h with ⟨accepted, hsettles⟩ | hparks
  · rw [hsettles.question?_eq_none hfree]
    exact ⟨_, hsettles.conversed, by simp⟩
  · rw [hparks.question?_self]
    exact ⟨[], hparks.conversed _, fun left hleft => (Option.some.inj hleft).symm⟩

end Ends

namespace Engine

variable (id : GroupId) (player : PlayerId)

/-! ### The parts of an exchange -/

/-- The parked request is taken out by `unpark`, so that nothing is parked while somebody waits for
    it. -/
theorem unpark_cases (scene : Scene ρ) :
    ∃ free : Scene ρ, (unpark id player).onScene scene =
        (.ok (scene.ledger.parked[(⟨id, player⟩ : RequestKey)]?), free) ∧
      free.ledger.question? ⟨id, player⟩ = none ∧ free.ledger.record = scene.ledger.record ∧
      ∀ out, Conversed ⟨id, player⟩ out out [] scene free := by
  refine ⟨{ scene with ledger := (scene.ledger.unpark id player).2 }, rfl, ?_, rfl, fun out => ?_⟩
  · show (scene.ledger.unpark id player).2.question? _ = none
    rw [Ledger.question?_unpark, if_pos rfl]
  · refine .of_requests rfl rfl fun other hother => ?_
    show (scene.ledger.unpark id player).2.question? other = _
    rw [Ledger.question?_unpark, if_neg hother]

/-- By `sendConfirmation` a question is sent to a `player` who can be reached, and then it is
    out. -/
theorem sendConfirmation_cases (notice : CasualtyNotice) (scene : Scene ρ) :
    (∃ fault, (sendConfirmation id player notice).onScene scene = (.error fault, scene)) ∨
      ∃ asked after sent, (sendConfirmation id player notice).onScene scene = (.ok asked, after) ∧
        asked.content = notice ∧ after.ledger = scene.ledger ∧
        Conversed ⟨id, player⟩ none (some (.confirm notice)) sent scene after := by
  rw [sendConfirmation_onScene, Host.askConfirmation]
  cases hremote : scene.host.remotes[player]? with
  | none => exact .inl ⟨_, rfl⟩
  | some remote =>
    refine .inr ⟨_, _, _, rfl, rfl, rfl, .of_letter rfl rfl ?_ ?_ fun _ => rfl⟩
    · simp [Event.turn]
    · intro other hother out
      simp [Event.turn, hother]

/-- By `sendChoice` a question is sent to a `player` who can be reached, and then it is out. -/
theorem sendChoice_cases (request : CasualtyRequest) (scene : Scene ρ) :
    (sendChoice id player request).onScene scene = (.ok none, scene) ∨
      ∃ asked after sent, (sendChoice id player request).onScene scene = (.ok (some asked), after) ∧
        asked.content = request ∧ after.ledger = scene.ledger ∧
        Conversed ⟨id, player⟩ none (some (.choose request)) sent scene after := by
  rw [sendChoice_onScene, Host.askChoice]
  cases hremote : scene.host.remotes[player]? with
  | none => exact .inl rfl
  | some remote =>
    refine .inr ⟨_, _, _, rfl, rfl, rfl, .of_letter rfl rfl ?_ ?_ fun _ => rfl⟩
    · simp [Event.turn]
    · intro other hother out
      simp [Event.turn, hother]

/-- By `informFiringPlayer` the firing player of a `group` that is entered is informed unless it is
    noted as told. -/
theorem informFiringPlayer_cases (group : FiringGroup) (notice : CasualtyNotice)
    (key : RequestKey) (out : Option Question) (scene : Scene ρ) :
    ∃ after sent, (informFiringPlayer id group notice).onScene scene = (.ok (), after) ∧
      after.ledger.question? = scene.ledger.question? ∧ Conversed key out out sent scene after := by
  rcases informFiringPlayer_onScene id group notice scene with hrun | ⟨record, hrecord, htold, hrun⟩
  · exact ⟨scene, [], hrun, rfl, .refl key out scene⟩
  · have hfound := Ledger.record_eq_ok.1 hrecord
    have hbefore : scene.ledger.told id = false := by
      simp [Ledger.told, hfound, htold]
    -- The note is made first, then the letter goes out if there is somebody to read it.
    have hnoted (group : GroupId) : (scene.ledger.told group).toNat +
        (if id = group then 1 else 0) ≤ ((scene.ledger.updateRecord id fun record =>
          { record with enemyNotified := true }).told group).toNat := by
      by_cases hsame : id = group
      · subst hsame
        have hafter : (scene.ledger.updateRecord id fun record =>
            { record with enemyNotified := true }).told id = true := by
          simp [Ledger.told, Ledger.getElem?_updateRecord, hfound]
        simp [hbefore, hafter]
      · have hindex : group.index ≠ id.index := fun h => hsame (congrArg GroupId.mk h.symm)
        simp [Ledger.told, Ledger.getElem?_updateRecord, hindex, hsame]
    cases hremote : scene.host.remotes[group.firingPlayer]? with
    | none =>
      refine ⟨_, [], hrun, rfl, ?_, rfl, fun _ _ _ => rfl, fun _ _ => rfl, fun group => ?_⟩
      · simp [Host.inform, hremote]
      · have := hnoted group
        simp only [List.countP_nil]
        omega
    | some remote =>
      refine ⟨_, [.informed remote.address id notice group.hitPlayer], hrun, rfl, ?_, rfl,
        fun _ _ _ => rfl, fun _ _ => rfl, fun group => ?_⟩
      · simp [Host.inform, hremote, Host.note, Host.connect]
      · have := hnoted group
        simp only [List.countP_cons, List.countP_nil, Event.informs, decide_eq_true_eq]
        omega

/-- To `await` an answer settles the `question`, or it gives up and parks it. -/
theorem await_cases (timeout : Option Nat) (question : Question) (keep : Asked κ α → Request)
    (asked : Asked κ α) (hkeep : ∀ call, (keep { asked with call }).question = question)
    (scene : Scene ρ) :
    ∃ outcome after,
      (await id player timeout question keep asked).onScene scene = (.ok outcome, after) ∧
        match outcome with
        | .answered _ | .lost => Settles id player question (accepted outcome) scene after
        | .timedOut | .interrupted => Parks id player question scene after := by
  obtain ⟨cancelled, hhost⟩ := await_host asked.call timeout scene.host
  rw [await_onScene]
  rcases hwait : scene.host.await asked.call timeout with ⟨outcome, call, host⟩
  rw [hwait] at hhost
  obtain rfl : host = _ := hhost
  cases outcome with
  | answered _ => exact ⟨_, _, rfl, rfl, rfl⟩
  | lost => exact ⟨_, _, rfl, rfl, rfl⟩
  | timedOut => exact ⟨_, _, rfl, rfl, _, hkeep call, rfl⟩
  | interrupted => exact ⟨_, _, rfl, rfl, _, hkeep call, rfl⟩

/-! ### Waits -/

/-- A wait by `awaitConfirmation` succeeds only if the notice was accepted. -/
theorem awaitConfirmation_cases (asked : Asked CasualtyNotice Unit) (scene : Scene ρ) :
    ∃ result after, (awaitConfirmation id player asked).onScene scene = (result, after) ∧
      ((∃ accepted, Settles id player (.confirm asked.content) accepted scene after ∧
          (result = .ok () → accepted = true)) ∨
        Parks id player (.confirm asked.content) scene after ∧ result ≠ .ok ()) := by
  obtain ⟨outcome, after, hawait, hends⟩ := await_cases id player none (.confirm asked.content)
    .confirmation asked (fun _ => rfl) scene
  unfold awaitConfirmation
  rw [onScene_bind_ok hawait]
  rcases outcome with (fault | _) | _ | _ | _
  · exact ⟨_, _, rfl, .inl ⟨false, hends, by simp⟩⟩
  · exact ⟨_, _, rfl, .inl ⟨true, hends, fun _ => rfl⟩⟩
  · exact ⟨_, _, rfl, .inl ⟨false, hends, by simp⟩⟩
  · exact ⟨_, _, rfl, .inr ⟨hends, by simp⟩⟩
  · exact ⟨_, _, rfl, .inr ⟨hends, by simp⟩⟩

/-- A wait by `awaitLateChoice` succeeds only if the choice was settled. -/
theorem awaitLateChoice_cases (asked : Asked CasualtyRequest (Option Losses)) (scene : Scene ρ) :
    ∃ result after, (awaitLateChoice id player asked).onScene scene = (result, after) ∧
      ((∃ accepted, Settles id player (.choose asked.content) accepted scene after) ∨
        Parks id player (.choose asked.content) scene after ∧ result ≠ .ok ()) := by
  obtain ⟨outcome, after, hawait, hends⟩ := await_cases id player none (.choose asked.content)
    .choice asked (fun _ => rfl) scene
  unfold awaitLateChoice
  rw [onScene_bind_ok hawait]
  cases outcome with
  | answered _ => exact ⟨_, _, rfl, .inl ⟨_, hends⟩⟩
  | lost => exact ⟨_, _, rfl, .inl ⟨_, hends⟩⟩
  | timedOut => exact ⟨_, _, rfl, .inr ⟨hends, by simp⟩⟩
  | interrupted => exact ⟨_, _, rfl, .inr ⟨hends, by simp⟩⟩

/-- A wait by `awaitChoice`, for a choice that is still in time: its question is settled or
    parked. -/
theorem awaitChoice_cases (timing : Timing) (asked : Asked CasualtyRequest (Option Losses))
    (scene : Scene ρ) :
    ∃ result after, (awaitChoice timing id player asked).onScene scene = (result, after) ∧
      ((∃ accepted, Settles id player (.choose asked.content) accepted scene after) ∨
        Parks id player (.choose asked.content) scene after) := by
  obtain ⟨outcome, after, hawait, hends⟩ := await_cases id player (some timing.choiceTimeout)
    (.choose asked.content) .choice asked (fun _ => rfl) scene
  unfold awaitChoice
  rw [onScene_bind_ok hawait]
  rcases outcome with (_ | _) | _ | _ | _
  · exact ⟨_, _, rfl, .inl ⟨_, hends⟩⟩
  · exact ⟨_, _, rfl, .inl ⟨_, hends⟩⟩
  · exact ⟨_, _, rfl, .inl ⟨_, hends⟩⟩
  · exact ⟨_, _, rfl, .inr hends⟩
  · exact ⟨_, _, rfl, .inr hends⟩

/-- A wait by `awaitEarlyConfirmation`: its notice is settled or parked, and it chooses nothing. -/
theorem awaitEarlyConfirmation_cases (timing : Timing) (asked : Asked CasualtyNotice Unit)
    (scene : Scene ρ) :
    ∃ result after,
      (awaitEarlyConfirmation timing id player asked).onScene scene = (result, after) ∧
        ((∃ accepted, Settles id player (.confirm asked.content) accepted scene after) ∨
          Parks id player (.confirm asked.content) scene after) := by
  obtain ⟨outcome, after, hawait, hends⟩ := await_cases id player (some timing.choiceTimeout)
    (.confirm asked.content) .confirmation asked (fun _ => rfl) scene
  unfold awaitEarlyConfirmation
  rw [onScene_bind_ok hawait]
  cases outcome with
  | answered _ => exact ⟨_, _, rfl, .inl ⟨_, hends⟩⟩
  | lost => exact ⟨_, _, rfl, .inl ⟨_, hends⟩⟩
  | timedOut => exact ⟨_, _, rfl, .inr hends⟩
  | interrupted => exact ⟨_, _, rfl, .inr hends⟩

end Engine

/-! ### Confirmations -/

/-- The computation that led from `before` to `after` was after the player's confirmation of a
    `notice` while `out` was out: the letters went in turn, what is still out is parked, and it is
    the notice or was out before. If the computation succeeded, nothing is out, and the last letter
    accepted the notice. -/
structure Confirms (id : GroupId) (player : PlayerId) (notice : CasualtyNotice)
    (out : Option Question) (result : Except Fault Unit) (sent : List Event)
    (before after : Scene ρ) : Prop where
  conversed : Conversed ⟨id, player⟩ out (after.ledger.question? ⟨id, player⟩) sent before after
  left : ∀ question, after.ledger.question? ⟨id, player⟩ = some question →
    question = .confirm notice ∨ out = some question
  accepted : result = .ok () → after.ledger.question? ⟨id, player⟩ = none ∧
    ∃ front, sent = front ++ [.settled player id (.confirm notice) true]

/-- What `Confirms` a notice does so too if letters were exchanged before it. -/
theorem Confirms.after {id : GroupId} {player : PlayerId} {notice : CasualtyNotice}
    {out out' : Option Question} {result : Except Fault Unit} {sent sent' : List Event}
    {before mid after : Scene ρ} (h : Confirms id player notice out' result sent' mid after)
    (hbefore : Conversed ⟨id, player⟩ out out' sent before mid)
    (hout : ∀ question, out' = some question → question = .confirm notice ∨ out = some question) :
    Confirms id player notice out result (sent ++ sent') before after where
  conversed := hbefore.trans h.conversed
  left question hquestion := by
    rcases h.left question hquestion with hnotice | hparked
    · exact .inl hnotice
    · exact hout question hparked
  accepted hresult := by
    obtain ⟨hnone, front, hsent⟩ := h.accepted hresult
    exact ⟨hnone, sent ++ front, by rw [hsent, List.append_assoc]⟩

namespace Engine

variable (id : GroupId)

section Parts

variable (player : PlayerId)

/-- A wait by `awaitConfirmation` for a notice that is out `Confirms` it. -/
theorem awaitConfirmation_confirms (asked : Asked CasualtyNotice Unit) (scene : Scene ρ)
    (hfree : scene.ledger.question? ⟨id, player⟩ = none) :
    ∃ result after sent, (awaitConfirmation id player asked).onScene scene = (result, after) ∧
      Confirms id player asked.content (some (.confirm asked.content)) result sent scene after := by
  obtain ⟨result, after, hrun, ⟨accepted, hsettles, hok⟩ | ⟨hparks, hfails⟩⟩ :=
    awaitConfirmation_cases id player asked scene
  · have hnone := hsettles.question?_eq_none hfree
    refine ⟨result, after, [.settled player id (.confirm asked.content) accepted], hrun, ?_, ?_, ?_⟩
    · rw [hnone]
      exact hsettles.conversed
    · simp [hnone]
    · exact fun hresult => ⟨hnone, [], by rw [hok hresult, List.nil_append]⟩
  · refine ⟨result, after, [], hrun, ?_, ?_, fun hresult => absurd hresult hfails⟩
    · rw [hparks.question?_self]
      exact hparks.conversed _
    · intro question hquestion
      rw [hparks.question?_self] at hquestion
      exact .inr hquestion

/-- If what follows on `sendConfirmation` confirms the `notice`, the whole does. -/
theorem sendConfirmation_confirms (notice : CasualtyNotice)
    (next : Asked CasualtyNotice Unit → Engine ρ Unit) (scene : Scene ρ)
    (hfree : scene.ledger.question? ⟨id, player⟩ = none)
    (hnext : ∀ asked sent, asked.content = notice → sent.ledger = scene.ledger →
      ∃ result after letters, (next asked).onScene sent = (result, after) ∧
        Confirms id player notice (some (.confirm notice)) result letters sent after) :
    ∃ result after letters,
      (sendConfirmation id player notice >>= next).onScene scene = (result, after) ∧
        Confirms id player notice none result letters scene after := by
  rcases sendConfirmation_cases id player notice scene with ⟨fault, hsend⟩ |
    ⟨asked, sent, letter, hsend, hcontent, hledger, hasked⟩
  · refine ⟨_, scene, [], onScene_bind_error hsend, ?_, by simp [hfree], by simp⟩
    rw [hfree]
    exact .refl _ _ _
  · obtain ⟨result, after, letters, hrun, hconfirms⟩ := hnext asked sent hcontent hledger
    refine ⟨result, after, letter ++ letters, ?_, hconfirms.after hasked ?_⟩
    · rw [onScene_bind_ok hsend]
      exact hrun
    · rintro question ⟨⟩
      exact .inl rfl

/-- A choice that is still out is waited for before the `notice` is sent, and that `Confirms` it. -/
theorem awaitChoiceFirst_confirms (notice : CasualtyNotice)
    (asked : Asked CasualtyRequest (Option Losses)) (scene : Scene ρ)
    (hfree : scene.ledger.question? ⟨id, player⟩ = none) :
    ∃ result after sent,
      (awaitLateChoice id player asked >>= fun _ =>
        sendConfirmation id player notice >>= awaitConfirmation id player).onScene scene =
          (result, after) ∧
        Confirms id player notice (some (.choose asked.content)) result sent scene after := by
  obtain ⟨result, late, hlate, hends⟩ := awaitLateChoice_cases id player asked scene
  cases result with
  | error fault =>
    obtain ⟨sent, hconversed, hleft⟩ := conversed_of_end hfree (hends.imp_right And.left)
    exact ⟨_, late, sent, onScene_bind_error hlate, hconversed,
      fun question h => .inr (congrArg some (hleft question h).symm), by simp⟩
  | ok _ =>
    -- After an answer, of whatever kind, the notice is sent. A wait that ends otherwise has failed.
    rcases hends with ⟨accepted, hsettles⟩ | ⟨-, hfails⟩
    · have hnone := hsettles.question?_eq_none hfree
      obtain ⟨result, after, sent, hrun, hconfirms⟩ := sendConfirmation_confirms id player notice
        (awaitConfirmation id player) late hnone fun asked sent hcontent hledger =>
          hcontent ▸ awaitConfirmation_confirms id player asked sent (hledger ▸ hnone)
      refine ⟨result, after, _, ?_, hconfirms.after hsettles.conversed (by simp)⟩
      rw [onScene_bind_ok hlate]
      exact hrun
    · exact absurd rfl hfails

end Parts

/-- To inform the firing player first makes no difference to what is out to the player hit, so it is
    no matter to what `Confirms` a notice. -/
theorem informFirst_confirms {notice asked : CasualtyNotice} {out : Option Question}
    (group : FiringGroup) (next : Engine ρ Unit) (scene : Scene ρ)
    (hfree : scene.ledger.question? ⟨id, group.hitPlayer⟩ = none)
    (hnext : ∀ told : Scene ρ, told.ledger.question? ⟨id, group.hitPlayer⟩ = none →
      ∃ result after sent, next.onScene told = (result, after) ∧
        Confirms id group.hitPlayer asked out result sent told after) :
    ∃ result after sent,
      (informFiringPlayer id group notice >>= fun _ => next).onScene scene = (result, after) ∧
        Confirms id group.hitPlayer asked out result sent scene after := by
  obtain ⟨told, letters, htell, hsame, htold⟩ := informFiringPlayer_cases id group notice
    ⟨id, group.hitPlayer⟩ out scene
  obtain ⟨result, after, sent, hrun, hconfirms⟩ := hnext told (by rw [hsame, hfree])
  refine ⟨result, after, letters ++ sent, ?_, hconfirms.after htold fun _ h => .inr h⟩
  rw [onScene_bind_ok htell]
  exact hrun

/-- To have losses confirmed, by `confirmLosses`, is after the confirmation of the `notice`, or of
    one that is parked for the `group`. -/
theorem confirmLosses_cases (group : FiringGroup) (notice : CasualtyNotice) (scene : Scene ρ) :
    ∃ result after sent notice',
      (confirmLosses id group notice).onScene scene = (result, after) ∧
        (notice' = notice ∨
          scene.ledger.question? ⟨id, group.hitPlayer⟩ = some (.confirm notice')) ∧
        Confirms id group.hitPlayer notice' (scene.ledger.question? ⟨id, group.hitPlayer⟩) result
          sent scene after := by
  obtain ⟨free, hunpark, hfree, -, hunparked⟩ := unpark_cases id group.hitPlayer scene
  unfold confirmLosses Ledger.question?
  rw [onScene_bind_ok hunpark]
  -- Nothing was parked, or a notice, or a choice that has come too late.
  rcases scene.ledger.parked[(⟨id, group.hitPlayer⟩ : RequestKey)]? with _ | (asked | asked)
  · obtain ⟨result, after, sent, hrun, hconfirms⟩ := sendConfirmation_confirms id group.hitPlayer
      notice (fun asked => informFiringPlayer id group notice >>= fun _ =>
        awaitConfirmation id group.hitPlayer asked) free hfree fun asked sent hcontent hledger =>
          hcontent ▸ informFirst_confirms id group _ sent (hledger ▸ hfree)
            (awaitConfirmation_confirms id group.hitPlayer asked)
    exact ⟨result, after, _, notice, hrun, .inl rfl, hconfirms.after (hunparked _) (by simp)⟩
  · obtain ⟨result, after, sent, hrun, hconfirms⟩ :=
      informFirst_confirms id group _ free hfree
        (awaitConfirmation_confirms id group.hitPlayer asked)
    exact ⟨result, after, _, asked.content, hrun, .inr rfl,
      hconfirms.after (hunparked _) fun _ h => .inr h⟩
  · obtain ⟨result, after, sent, hrun, hconfirms⟩ :=
      informFirst_confirms id group _ free hfree
        (awaitChoiceFirst_confirms id group.hitPlayer notice asked)
    exact ⟨result, after, _, notice, hrun, .inl rfl,
      hconfirms.after (hunparked _) fun _ h => .inr h⟩

/-! ### Choices -/

/-- A choice that is sent by `sendChoice` is waited for. -/
theorem sendChoice_conversed (timing : Timing) (player : PlayerId) (request : CasualtyRequest)
    (scene : Scene ρ) (hfree : scene.ledger.question? ⟨id, player⟩ = none) :
    ∃ result after sent,
      (sendChoice id player request >>= fun asked => match asked with
        | some asked => awaitChoice timing id player asked
        | none => pure none).onScene scene = (result, after) ∧
      Conversed ⟨id, player⟩ none (after.ledger.question? ⟨id, player⟩) sent scene after ∧
      ∀ question, after.ledger.question? ⟨id, player⟩ = some question →
        question = .choose request := by
  rcases sendChoice_cases id player request scene with hsend |
    ⟨asked, sent, letter, hsend, rfl, hledger, hasked⟩
  · refine ⟨_, scene, [], onScene_bind_ok hsend, ?_, by simp [hfree]⟩
    rw [hfree]
    exact .refl _ _ _
  · obtain ⟨result, after, hrun, hends⟩ := awaitChoice_cases id player timing asked sent
    obtain ⟨letters, hconversed, hleft⟩ := conversed_of_end (by rw [hledger, hfree]) hends
    refine ⟨result, after, letter ++ letters, ?_, hasked.trans hconversed, hleft⟩
    rw [onScene_bind_ok hsend]
    exact hrun

/-- To ask for losses, by `askForLosses`, is a conversation in turn, and what is still out `after`
    it is parked: it is the question itself or was parked before. -/
theorem askForLosses_cases (timing : Timing) (player : PlayerId) (request : CasualtyRequest)
    (scene : Scene ρ) :
    ∃ result after sent, (askForLosses timing id player request).onScene scene = (result, after) ∧
      Conversed ⟨id, player⟩ (scene.ledger.question? ⟨id, player⟩)
        (after.ledger.question? ⟨id, player⟩) sent scene after ∧
      ∀ question, after.ledger.question? ⟨id, player⟩ = some question →
        question = .choose request ∨ scene.ledger.question? ⟨id, player⟩ = some question := by
  obtain ⟨free, hunpark, hfree, -, hunparked⟩ := unpark_cases id player scene
  have hquestion : scene.ledger.question? ⟨id, player⟩ =
      (scene.ledger.parked[(⟨id, player⟩ : RequestKey)]?).map Request.question := rfl
  unfold askForLosses
  rw [onScene_bind_ok hunpark, hquestion]
  rcases scene.ledger.parked[(⟨id, player⟩ : RequestKey)]? with _ | (asked | asked)
  · obtain ⟨result, after, sent, hrun, hconversed, hleft⟩ :=
      sendChoice_conversed id timing player request free hfree
    exact ⟨result, after, _, hrun, (hunparked _).trans hconversed,
      fun question h => .inl (hleft question h)⟩
  · obtain ⟨result, after, hrun, hends⟩ :=
      awaitEarlyConfirmation_cases id player timing asked free
    obtain ⟨letters, hconversed, hleft⟩ := conversed_of_end hfree hends
    have hold : ∀ question, after.ledger.question? ⟨id, player⟩ = some question →
        question = .choose request ∨ some (.confirm asked.content) = some question :=
      fun question h => .inr (congrArg some (hleft question h).symm)
    -- Its answer chooses nothing, and only an interruption ends the attempt.
    cases result with
    | error fault =>
      exact ⟨_, after, _, onScene_bind_error hrun, (hunparked _).trans hconversed, hold⟩
    | ok _ =>
      exact ⟨_, after, _, onScene_bind_ok hrun, (hunparked _).trans hconversed, hold⟩
  · obtain ⟨result, after, hrun, hends⟩ := awaitChoice_cases id player timing asked free
    obtain ⟨letters, hconversed, hleft⟩ := conversed_of_end hfree hends
    exact ⟨result, after, _, hrun, (hunparked _).trans hconversed,
      fun question h => .inr (congrArg some (hleft question h).symm)⟩

end Engine

end Flak
