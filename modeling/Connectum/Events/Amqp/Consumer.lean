import Connectum.Events.Delivery

/-! The AMQP consumer: the `consume` callback around the bus's delivery callback, and the
settlements it issues on the channel for one message. -/
namespace Connectum.Events.Amqp

def publishIdHeader : String := "x-connectum-publish-id"

/-- A delivered message. Header values are already stringified, with `none` for `undefined`
and `null`; the timestamp is in seconds. -/
structure ConsumeMessage where
  headers : List (String × Option String)
  messageId : Option String
  timestamp : Option ℤ
  routingKey : String
  redelivered : Bool
  content : List UInt8
  deriving DecidableEq, Repr

/-- What the callback reads from its surroundings: a fresh uuid, the clock, and date
parsing, where `none` is an invalid date. -/
structure Environment where
  randomUUID : String
  now : ℤ
  parseDate : String → Option ℤ

def parseHeaders (headers : List (String × Option String)) : List (String × String) :=
  headers.filterMap fun entry => entry.2.map fun value => (entry.1, value)

def publishedAt (env : Environment) (header : Option String) (timestamp : Option ℤ) : ℤ :=
  match header.filter (· ≠ ""), timestamp.filter (· ≠ 0) with
  | some text, _ => (env.parseDate text).getD env.now
  | none, some seconds => seconds * 1000
  | none, none => env.now

def internalHeaders : List String := ["x-event-id", "x-published-at", publishIdHeader]

def rawEvent (env : Environment) (msg : ConsumeMessage) (payload : List UInt8) : RawEvent :=
  let msgHeaders := parseHeaders msg.headers
  { eventId := ((msgHeaders.lookup "x-event-id").or msg.messageId).getD env.randomUUID
    eventType := msg.routingKey
    payload := payload
    publishedAt := publishedAt env (msgHeaders.lookup "x-published-at") msg.timestamp
    attempt := if msg.redelivered then 2 else 1
    metadata := msgHeaders.filter fun entry => entry.1 ∉ internalHeaders }

/-- `ch.ack(msg)` and `ch.nack(msg, allUpTo, requeue)`. -/
inductive ChannelCall where
  | ack
  | nack (allUpTo requeue : Bool)
  deriving DecidableEq, Repr

/-- The `ack` and `nack` closures handed to the bus. -/
def channelCall : AdapterCall → ChannelCall
  | .ack => .ack
  | .nack requeue => if requeue = false then .nack false false else .nack false true

/-- One message in the consumer: `delivery` is absent when the payload could not be decoded,
and `caught` records that the `catch` on the bus's promise has run. -/
structure Callback where
  delivery : Option Delivery
  caught : Bool
  deriving DecidableEq, Repr

inductive Action where
  | bus (a : DeliveryAction)
  | catchError
  deriving DecidableEq, Repr

/-- The synchronous head of the `consume` callback. A payload that cannot be decoded is
rejected without requeue. -/
def consume {Handler : Type*} (topicHandlerMap : List (String × Handler)) (draining : Bool)
    (signal : List AbortSource) (env : Environment)
    (decode : Option (List UInt8 → Option (List UInt8))) (msg : ConsumeMessage) :
    Callback × List ChannelCall :=
  match (match decode with | some f => f msg.content | none => some msg.content) with
  | none => (⟨none, false⟩, [.nack false false])
  | some payload =>
    let r := Delivery.receive topicHandlerMap draining signal (rawEvent env msg payload)
    (⟨some r.1, false⟩, r.2.map channelCall)

namespace Callback

def rejected (c : Callback) : Bool := c.delivery.any Delivery.rejected

def step : Machine.Step Callback Action ChannelCall
  | ⟨some d, caught⟩, .bus a =>
    (d.step a).map fun r => (⟨some r.1, caught⟩, r.2.map channelCall)
  | ⟨some d, false⟩, .catchError =>
    if d.rejected then some (⟨some d, true⟩, [.nack false true]) else none
  | _, _ => none

/-- What a step of the consumer can do: a step of the bus's delivery, or the catch-all. -/
theorem step_cases {c c' : Callback} {a : Action} {out : List ChannelCall}
    (h : step c a = some (c', out)) :
    (∃ d b d' calls, c = ⟨some d, c.caught⟩ ∧ a = .bus b ∧ Delivery.Step d b d' calls ∧
      c' = ⟨some d', c.caught⟩ ∧ out = calls.map channelCall) ∨
    (∃ d, c = ⟨some d, false⟩ ∧ a = .catchError ∧ d.rejected = true ∧
      c' = ⟨some d, true⟩ ∧ out = [.nack false true]) := by
  unfold step at h
  split at h
  next d caught b =>
    obtain ⟨r, hr, he⟩ := Option.map_eq_some_iff.mp h
    obtain ⟨rfl, rfl⟩ := Prod.mk.inj he
    exact .inl ⟨d, b, r.1, r.2, rfl, rfl, Delivery.step_cases hr, rfl, rfl⟩
  next d =>
    split at h
    next hd =>
      obtain ⟨rfl, rfl⟩ := Prod.mk.inj (Option.some.inj h)
      exact .inr ⟨d, rfl, rfl, hd, rfl, rfl⟩
    next => simp at h
  next => simp at h

/-- The steps after which the message is settled a second time: the pipeline throws after
the handler has settled, the answer to an event that is not handed over fails, or the
context is first used once the pipeline has ended. -/
def settlesAgain : Callback → Action → Bool
  | ⟨some (.handed ctx _ .handling), _⟩, .bus .handlerThrows => ctx.settled
  | ⟨some .dismissing, _⟩, .bus (.brokerAnswers ok) => !ok
  | ⟨some (.handed ctx _ phase), _⟩, .bus a =>
    a.callback.isSome && !ctx.settled && decide (phase ≠ .handling)
  | _, _ => false

/-- Settlements issued on the channel, as the state tells them when no step has settled
again. -/
def Accounts : Callback → List ChannelCall → Prop
  | ⟨none, _⟩, log => log.length = 1
  | ⟨some .dismissing, caught⟩, log => caught = false ∧ log.length = 1
  | ⟨some (.dismissed ok), _⟩, log => ok = true ∧ log.length = 1
  | ⟨some (.handed ctx settled phase), caught⟩, log => settled = ctx.settled ∧
    match phase with
    | .handling => caught = false ∧ log.length = settled.toNat
    | .autoAcking | .resolved => caught = false ∧ log.length = 1
    | .rejected => settled = false ∧ log.length = caught.toNat

theorem Accounts.length_le {c : Callback} {log : List ChannelCall} (h : Accounts c log) :
    log.length ≤ 1 := by
  match c, h with
  | ⟨none, _⟩, h => exact Nat.le_of_eq h
  | ⟨some .dismissing, _⟩, h => exact Nat.le_of_eq h.2
  | ⟨some (.dismissed _), _⟩, h => exact Nat.le_of_eq h.2
  | ⟨some (.handed _ settled .handling), _⟩, ⟨_, _, h⟩ => exact h ▸ Bool.toNat_le settled
  | ⟨some (.handed _ _ .autoAcking), _⟩, ⟨_, _, h⟩ => exact Nat.le_of_eq h
  | ⟨some (.handed _ _ .resolved), _⟩, ⟨_, _, h⟩ => exact Nat.le_of_eq h
  | ⟨some (.handed _ _ .rejected), caught⟩, ⟨_, _, h⟩ => exact h ▸ Bool.toNat_le caught

variable {Handler : Type*} (topicHandlerMap : List (String × Handler)) (draining : Bool)
  (signal : List AbortSource) (env : Environment)
  (decode : Option (List UInt8 → Option (List UInt8))) (msg : ConsumeMessage)

theorem consume_accounts : Accounts (consume topicHandlerMap draining signal env decode msg).1
    (consume topicHandlerMap draining signal env decode msg).2 := by
  unfold consume
  split
  · rfl
  next payload _ =>
    cases hr : Delivery.receive topicHandlerMap draining signal (rawEvent env msg payload) with
    | mk d calls =>
      have hinit := Delivery.receive_accounts topicHandlerMap draining signal
        (rawEvent env msg payload)
      have hnew := Delivery.receive_cases topicHandlerMap draining signal
        (rawEvent env msg payload)
      rw [hr] at hinit hnew
      rcases hnew with rfl | rfl
      · have hone : calls.length = 1 := hinit
        exact ⟨rfl, by simpa using hone⟩
      · have hnone : calls.length = 0 := hinit.2
        exact ⟨hinit.1, rfl, by simpa using hnone⟩

variable {topicHandlerMap draining signal env decode msg}

theorem Accounts.step {c c' : Callback} {a : Action} {log out : List ChannelCall}
    (h : Accounts c log) (ha : settlesAgain c a = false)
    (hstep : Callback.step c a = some (c', out)) : Accounts c' (log ++ out) := by
  rcases step_cases hstep with
    ⟨d, b, d', calls, hc, rfl, hd, rfl, rfl⟩ | ⟨d, rfl, rfl, hd, rfl, rfl⟩
  · obtain ⟨delivery, caught⟩ := c
    obtain ⟨rfl, -⟩ := Callback.mk.inj hc
    cases hd with
    | @settles ctx settled phase b callback hb ho =>
      obtain ⟨hs, h⟩ := h
      cases phase with
      | handling =>
        obtain ⟨hcaught, hlen⟩ := h
        exact ⟨rfl, hcaught, by simp [hlen, hs, ho]⟩
      | _ => cases b <;> simp [settlesAgain, ho, DeliveryAction.callback] at ha hb
    | ignored => simpa using h
    | returnsSettled =>
      obtain ⟨hs, hcaught, hlen⟩ := h
      exact ⟨hs, hcaught, by simpa using hlen⟩
    | autoAcks =>
      obtain ⟨hs, hcaught, hlen⟩ := h
      exact ⟨hs, hcaught, by simpa using hlen⟩
    | @throws ctx settled =>
      obtain ⟨hs, hcaught, hlen⟩ := h
      have ho : ctx.settled = false := ha
      exact ⟨hs, hs.trans ho, by simpa [hs, ho, show caught = false from hcaught] using hlen⟩
    | autoAcked =>
      obtain ⟨hs, hcaught, hlen⟩ := h
      exact ⟨hs, hcaught, by simpa using hlen⟩
    | answered => exact ⟨by simpa [settlesAgain] using ha, by simpa using h.2⟩
  · cases d with
    | dismissing => simp [Delivery.rejected] at hd
    | dismissed ok =>
      rw [h.1] at hd
      simp [Delivery.rejected] at hd
    | handed ctx settled phase =>
      cases phase with
      | rejected =>
        obtain ⟨hs, ho, hlen⟩ := h
        exact ⟨hs, ho, by simpa using hlen⟩
      | _ => simp [Delivery.rejected] at hd

/-- The message is settled twice already, or will be by the pending catch-all. -/
def Doomed (c : Callback) (log : List ChannelCall) : Prop :=
  2 ≤ log.length ∨ (c.rejected = true ∧ c.caught = false ∧ 1 ≤ log.length)

theorem Accounts.doomed {c c' : Callback} {a : Action} {log out : List ChannelCall}
    (h : Accounts c log) (ha : settlesAgain c a = true)
    (hstep : Callback.step c a = some (c', out)) : Doomed c' (log ++ out) := by
  rcases step_cases hstep with
    ⟨d, b, d', calls, hc, rfl, hd, rfl, rfl⟩ | ⟨d, rfl, rfl, hd, rfl, rfl⟩
  · obtain ⟨delivery, caught⟩ := c
    obtain ⟨rfl, -⟩ := Callback.mk.inj hc
    cases hd with
    | @settles ctx settled phase b callback hb ho =>
      obtain ⟨hs, h⟩ := h
      cases phase with
      | handling => cases b <;> simp [settlesAgain, DeliveryAction.callback] at ha hb
      | autoAcking => exact .inl (by simp [h.2])
      | resolved => exact .inl (by simp [h.2])
      | rejected =>
        cases caught with
        | false => exact .inr ⟨rfl, rfl, by simp⟩
        | true => exact .inl (by simp [h.2])
    | @ignored ctx settled phase b callback hb hs =>
      cases b <;> cases phase <;> simp [settlesAgain, hs, DeliveryAction.callback] at ha hb
    | @throws ctx settled =>
      obtain ⟨hs, hcaught, hlen⟩ := h
      have hsettled : ctx.settled = true := ha
      exact .inr ⟨rfl, hcaught, by simp [hlen, hs, hsettled]⟩
    | @answered ok =>
      have hok : ok = false := by simpa [settlesAgain] using ha
      subst hok
      exact .inr ⟨rfl, h.1, by simp [h.2]⟩
    | _ => simp [settlesAgain, DeliveryAction.callback] at ha
  · simp [settlesAgain] at ha

theorem Doomed.step {c c' : Callback} {a : Action} {log out : List ChannelCall}
    (h : Doomed c log) (hstep : Callback.step c a = some (c', out)) :
    Doomed c' (log ++ out) := by
  rcases h with h | ⟨hr, hcaught, hlen⟩
  · exact .inl (by rw [List.length_append]; omega)
  · rcases step_cases hstep with ⟨d, b, d', calls, hc, rfl, hd, rfl, rfl⟩ |
      ⟨d, rfl, rfl, hd, rfl, rfl⟩
    · refine .inr ⟨?_, hcaught, by rw [List.length_append]; omega⟩
      rw [hc] at hr
      exact hd.rejected hr
    · exact .inl (by simp only [List.length_append, List.length_singleton]; omega)

/-- For every message, the channel sees at most one settlement along an execution that never
takes a step of `settlesAgain`; and an execution that takes one, once the catch-all has seen
a rejected promise, has issued two. -/
theorem channel_settles_once_iff {as : List Action} {c : Callback} {log : List ChannelCall}
    (hrun : Machine.run step (consume topicHandlerMap draining signal env decode msg).1 as =
      some (c, log)) :
    (Machine.Meets step (fun c a => settlesAgain c a = false)
        (consume topicHandlerMap draining signal env decode msg).1 as →
      ((consume topicHandlerMap draining signal env decode msg).2 ++ log).length ≤ 1) ∧
    ((c.rejected = true → c.caught = true) →
      ((consume topicHandlerMap draining signal env decode msg).2 ++ log).length ≤ 1 →
      Machine.Meets step (fun c a => settlesAgain c a = false)
        (consume topicHandlerMap draining signal env decode msg).1 as) := by
  have hinit := consume_accounts topicHandlerMap draining signal env decode msg
  constructor
  · intro hmeets
    exact Accounts.length_le (Machine.run_invariant_of_meets
      (fun c log a c' out h ha hs => Accounts.step h ha hs) hinit hmeets hrun)
  · intro hquiet hle
    by_contra hviolated
    obtain ⟨before, a, after, t, l, rfl, hbefore, hmeets, ha⟩ :=
      Machine.exists_violation hrun hviolated
    have ht : Accounts t _ := Machine.run_invariant_of_meets
      (fun c log a c' out h ha hs => Accounts.step h ha hs) hinit hmeets hbefore
    obtain ⟨t', l', r, hb, hrest, rfl⟩ := Machine.run_append.mp hrun
    rw [hbefore] at hb
    obtain ⟨rfl, rfl⟩ := Prod.mk.inj (Option.some.inj hb)
    obtain ⟨u, o, rest, hstep, hafter, rfl⟩ := Machine.run_cons.mp hrest
    have hu := ht.doomed (by simpa using ha) hstep
    have hend : Doomed c _ := Machine.run_invariant
      (fun c log a c' out h hs => Doomed.step h hs) hu hafter
    rcases hend with htwo | ⟨hr, hcaught, -⟩
    · simp only [List.append_assoc] at htwo
      omega
    · simp [hquiet hr] at hcaught

/-- A concrete delivery of the channel, and surroundings to read it in. -/
def userCreated : ConsumeMessage := ⟨[], some "evt-1", none, "user.created", false, []⟩

def epoch : Environment := ⟨"uuid", 0, fun _ => none⟩

theorem channel_settles_once_iff_userCreated :
    ((consume [("user.created", ())] false [] epoch none userCreated).2 ++
      [ChannelCall.ack]).length ≤ 1 := by
  have hrun : Machine.run step (consume [("user.created", ())] false [] epoch none userCreated).1
      [.bus .ack, .bus .handlerReturns] =
      some (⟨some (.handed { createEventContext (rawEvent epoch userCreated []) [] with
        settled := true } true .resolved), false⟩, [.ack]) := by decide
  exact (channel_settles_once_iff hrun).1 (by decide)

/-- A handler that acks and then throws: the ack reaches the channel, and so does the nack
of the catch-all. -/
theorem ack_then_throw_settles_twice :
    ¬ ∀ (topicHandlerMap : List (String × Unit)) (draining : Bool) (signal : List AbortSource)
      (env : Environment) (decode : Option (List UInt8 → Option (List UInt8)))
      (msg : ConsumeMessage) (as : List Action) (c : Callback) (log : List ChannelCall),
      Machine.run step (consume topicHandlerMap draining signal env decode msg).1 as =
        some (c, log) →
      ((consume topicHandlerMap draining signal env decode msg).2 ++ log).length ≤ 1 := by
  intro h
  have hrun : Machine.run step (consume [("user.created", ())] false [] epoch none userCreated).1
      [.bus .ack, .bus .handlerThrows, .catchError] =
      some (⟨some (.handed { createEventContext (rawEvent epoch userCreated []) [] with
        settled := true } true .rejected), true⟩, [.ack, .nack false true]) := by decide
  exact absurd (h _ _ _ _ _ _ _ _ _ hrun) (by decide)

end Callback
end Connectum.Events.Amqp
