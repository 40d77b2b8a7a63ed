import Connectum.Machine
import Connectum.Events.EventContext
import Connectum.Events.Wildcard

/-! One event in the delivery callback that `start` registers with the adapter, from the
handler lookup to the settlement of the callback's promise. -/
namespace Connectum.Events

/-- The options that deliveries and the drain depend on. -/
structure BusOptions (Handler : Type*) where
  topicHandlerMap : List (String × Handler)
  handlerTimeout : ℕ := 30000
  drainTimeout : ℤ := 30000
  shutdownSignal : Bool := false

def BusOptions.signals {Handler : Type*} (o : BusOptions Handler) : List AbortSource :=
  [.timeout o.handlerTimeout, .drain] ++ if o.shutdownSignal then [.shutdown] else []

/-- An invocation of the adapter's `ack` or `nack` callback. -/
inductive AdapterCall where
  | ack
  | nack (requeue : Bool)
  deriving DecidableEq, Repr

/-- Progress of a delivery that was handed to the composed handler. `resolved` and
`rejected` are the outcomes of the callback's promise. -/
inductive Phase where
  | handling
  | autoAcking
  | resolved
  | rejected
  deriving DecidableEq, Repr

/-- The composed handler returned normally. -/
def Phase.completed : Phase → Bool
  | .autoAcking | .resolved => true
  | .handling | .rejected => false

/-- A delivery is either answered at once (no handler, or the bus is draining), or handed
to the composed handler with a context and the bus's own `settled` flag. -/
inductive Delivery where
  | dismissing
  | dismissed (ok : Bool)
  | handed (ctx : EventContext) (settled : Bool) (phase : Phase)
  deriving DecidableEq, Repr

/-- `ack` and `nack` are calls on the context, by the handler or by middleware, at any
time; `brokerAnswers` settles the adapter promise that the callback awaits. -/
inductive DeliveryAction where
  | ack
  | nack (requeue : Option Bool)
  | handlerReturns
  | handlerThrows
  | brokerAnswers (ok : Bool)
  deriving DecidableEq, Repr

def Settlement.adapterCall : Settlement → AdapterCall
  | .onAck => .ack
  | .onNack requeue => .nack requeue

/-- The context callback that an action asks for, if it is a call on the context. -/
def DeliveryAction.callback : DeliveryAction → Option Settlement
  | .ack => some .onAck
  | .nack requeue => some (.onNack (requeue.getD true))
  | .handlerReturns | .handlerThrows | .brokerAnswers _ => none

namespace Delivery

/-- `onAck` and `onNack` of the context: `settled = true; await ack()`. -/
def onSettlement (settled : Bool) (callbacks : List Settlement) : Bool × List AdapterCall :=
  (settled || !callbacks.isEmpty, callbacks.map Settlement.adapterCall)

def settleWith (settled : Bool) (phase : Phase) (r : EventContext × List Settlement) :
    Delivery × List AdapterCall :=
  (.handed r.1 (onSettlement settled r.2).1 phase, (onSettlement settled r.2).2)

def step : Machine.Step Delivery DeliveryAction AdapterCall
  | .handed ctx settled phase, .ack => some (settleWith settled phase ctx.ack)
  | .handed ctx settled phase, .nack requeue =>
    some (settleWith settled phase (ctx.nack requeue))
  | .handed ctx settled .handling, .handlerReturns =>
    if settled then some (.handed ctx settled .resolved, [])
    else some (.handed ctx settled .autoAcking, [.ack])
  | .handed ctx settled .handling, .handlerThrows => some (.handed ctx settled .rejected, [])
  -- a failed automatic ack is swallowed
  | .handed ctx settled .autoAcking, .brokerAnswers _ => some (.handed ctx settled .resolved, [])
  | .dismissing, .brokerAnswers ok => some (.dismissed ok, [])
  | _, _ => none

/-- The synchronous head of the callback: lookup, draining gate, context. -/
def receive {Handler : Type*} (topicHandlerMap : List (String × Handler)) (draining : Bool)
    (signal : List AbortSource) (event : RawEvent) : Delivery × List AdapterCall :=
  match lookupHandler topicHandlerMap event.eventType with
  | none => (.dismissing, [.ack])
  | some _ =>
    if draining then (.dismissing, [.nack true])
    else (.handed (createEventContext event signal) false .handling, [])

/-- What a step of a delivery can do. -/
inductive Step : Delivery → DeliveryAction → Delivery → List AdapterCall → Prop where
  | settles {ctx settled phase a callback} (ha : a.callback = some callback)
      (ho : ctx.settled = false) :
      Step (.handed ctx settled phase) a (.handed { ctx with settled := true } true phase)
        [callback.adapterCall]
  | ignored {ctx settled phase a callback} (ha : a.callback = some callback)
      (hs : ctx.settled = true) :
      Step (.handed ctx settled phase) a (.handed ctx settled phase) []
  | returnsSettled {ctx} :
      Step (.handed ctx true .handling) .handlerReturns (.handed ctx true .resolved) []
  | autoAcks {ctx} :
      Step (.handed ctx false .handling) .handlerReturns (.handed ctx false .autoAcking) [.ack]
  | throws {ctx settled} :
      Step (.handed ctx settled .handling) .handlerThrows (.handed ctx settled .rejected) []
  | autoAcked {ctx settled ok} :
      Step (.handed ctx settled .autoAcking) (.brokerAnswers ok)
        (.handed ctx settled .resolved) []
  | answered {ok} : Step .dismissing (.brokerAnswers ok) (.dismissed ok) []

theorem settleWith_step (ctx : EventContext) (settled : Bool) (phase : Phase)
    {a : DeliveryAction} {callback : Settlement} (ha : a.callback = some callback) :
    Step (.handed ctx settled phase) a (settleWith settled phase (ctx.settle callback)).1
      (settleWith settled phase (ctx.settle callback)).2 := by
  cases hs : ctx.settled with
  | true =>
    have hstep : Step (.handed ctx settled phase) a (.handed ctx settled phase) [] :=
      .ignored ha hs
    simpa [settleWith, onSettlement, EventContext.settle_of_settled hs] using hstep
  | false =>
    have hstep : Step (.handed ctx settled phase) a
        (.handed { ctx with settled := true } true phase) [callback.adapterCall] :=
      .settles ha hs
    simpa [settleWith, onSettlement, EventContext.settle_of_open hs] using hstep

theorem step_cases {d d' : Delivery} {a : DeliveryAction} {out : List AdapterCall}
    (h : step d a = some (d', out)) : Step d a d' out := by
  have hcall {ctx : EventContext} {settled : Bool} {phase : Phase} {callback : Settlement}
      (ha : a.callback = some callback)
      (he : settleWith settled phase (ctx.settle callback) = (d', out)) :
      Step (.handed ctx settled phase) a d' out := by
    have hstep := settleWith_step ctx settled phase ha
    rwa [he] at hstep
  unfold step at h
  split at h
  · exact hcall rfl (Option.some.inj h)
  · exact hcall rfl (Option.some.inj h)
  · split at h
    next hs =>
      obtain ⟨rfl, rfl⟩ := Prod.mk.inj (Option.some.inj h)
      subst hs
      exact .returnsSettled
    next hs =>
      obtain ⟨rfl, rfl⟩ := Prod.mk.inj (Option.some.inj h)
      rw [eq_false_of_ne_true hs]
      exact .autoAcks
  all_goals try
    obtain ⟨rfl, rfl⟩ := Prod.mk.inj (Option.some.inj h)
  · exact .throws
  · exact .autoAcked
  · exact .answered
  · simp at h

/-- The composed handler was found and entered, and it completed normally. -/
def completed : Delivery → Bool
  | .handed _ _ phase => phase.completed
  | .dismissing | .dismissed _ => false

/-- The composed handler has not finished. -/
def handling : Delivery → Bool
  | .handed _ _ .handling => true
  | _ => false

/-- The tracked promise of the handler and its automatic ack has not settled. -/
def pending : Delivery → Bool
  | .handed _ _ .handling | .handed _ _ .autoAcking => true
  | _ => false

/-- The outcome of the callback's promise. -/
def outcome : Delivery → Option Bool
  | .dismissed ok => some ok
  | .handed _ _ .resolved => some true
  | .handed _ _ .rejected => some false
  | _ => none

/-- The callback's promise is rejected, which the adapter sees. -/
def rejected : Delivery → Bool
  | .handed _ _ .rejected | .dismissed false => true
  | _ => false

theorem Step.rejected {d d' : Delivery} {a : DeliveryAction} {out : List AdapterCall}
    (h : Step d a d' out) (hd : d.rejected = true) : d'.rejected = true := by
  cases h with
  | @settles ctx settled phase a callback ha ho =>
    cases phase <;> simp [Delivery.rejected] at hd ⊢
  | ignored => exact hd
  | _ => simp [Delivery.rejected] at hd

/-- The event was handed to the composed handler. -/
def entered : Delivery → Bool
  | .handed _ _ _ => true
  | .dismissing | .dismissed _ => false

/-- The context has been settled, by `ctx.ack()` or `ctx.nack()`. -/
def contextSettled : Delivery → Bool
  | .handed ctx _ _ => ctx.settled
  | .dismissing | .dismissed _ => false

theorem Step.of_pending {d d' : Delivery} {a : DeliveryAction} {out : List AdapterCall}
    (h : Step d a d' out) (hd : d'.pending = true) : d.pending = true := by
  cases h with
  | @settles ctx settled phase a callback ha ho => cases phase <;> exact hd
  | ignored => exact hd
  | _ => first | rfl | simp [pending] at hd

theorem Step.of_handling {d d' : Delivery} {a : DeliveryAction} {out : List AdapterCall}
    (h : Step d a d' out) (hd : d'.handling = true) : d.handling = true := by
  cases h with
  | @settles ctx settled phase a callback ha ho => cases phase <;> exact hd
  | ignored => exact hd
  | _ => first | rfl | simp [Delivery.handling] at hd

/-- Only the composed handler itself ends its handling. -/
theorem Step.handling {d d' : Delivery} {a : DeliveryAction} {out : List AdapterCall}
    (h : Step d a d' out) (hd : d.handling = true) (hreturns : a ≠ .handlerReturns)
    (hthrows : a ≠ .handlerThrows) : d'.handling = true := by
  cases h with
  | @settles ctx settled phase a callback ha ho => cases phase <;> exact hd
  | ignored => exact hd
  | returnsSettled | autoAcks => exact absurd rfl hreturns
  | throws => exact absurd rfl hthrows
  | _ => simp [Delivery.handling] at hd

/-- A dismissed event is never handed over, and its adapter is not called again. -/
theorem Step.unhanded {d d' : Delivery} {a : DeliveryAction} {out : List AdapterCall}
    (h : Step d a d' out) (hd : d.entered = false) : d'.entered = false ∧ out = [] := by
  cases h with
  | answered => exact ⟨rfl, rfl⟩
  | _ => simp [entered] at hd

/-- A rejection and an answer of the broker make no adapter call. -/
theorem Step.no_call {d d' : Delivery} {a : DeliveryAction} {out : List AdapterCall}
    (h : Step d a d' out) (ha : a = .handlerThrows ∨ ∃ ok, a = .brokerAnswers ok) : out = [] := by
  cases h with
  | settles hb => rcases ha with rfl | ⟨ok, rfl⟩ <;> simp [DeliveryAction.callback] at hb
  | autoAcks => rcases ha with ha | ⟨ok, ha⟩ <;> cases ha
  | _ => rfl

theorem pending_of_handling {d : Delivery} (h : d.handling = true) : d.pending = true := by
  unfold handling at h
  split at h
  · rfl
  · simp at h

/-- The adapter calls made so far, as the flags of the delivery tell them. -/
def Accounts : Delivery → List AdapterCall → Prop
  | .dismissing, calls | .dismissed _, calls => calls.length = 1
  | .handed ctx settled phase, calls => settled = ctx.settled ∧
    calls.length = if phase.completed then 1 else settled.toNat

/-- A call on the context that is its first one and comes after the composed handler has
completed normally, that is after the automatic ack. -/
def Late : Delivery → DeliveryAction → Prop
  | .handed ctx _ phase, a =>
    a.callback.isSome ∧ ctx.settled = false ∧ phase.completed = true
  | .dismissing, _ | .dismissed _, _ => False

instance : ∀ d a, Decidable (Late d a)
  | .handed ctx _ phase, a => inferInstanceAs
      (Decidable (a.callback.isSome ∧ ctx.settled = false ∧ phase.completed = true))
  | .dismissing, _ | .dismissed _, _ => inferInstanceAs (Decidable False)

variable {Handler : Type*}

/-- A new delivery is answered at once, or starts handling with an open context. -/
theorem receive_cases (topicHandlerMap : List (String × Handler)) (draining : Bool)
    (signal : List AbortSource) (event : RawEvent) :
    (receive topicHandlerMap draining signal event).1 = .dismissing ∨
    (receive topicHandlerMap draining signal event).1 =
      .handed (createEventContext event signal) false .handling := by
  unfold receive
  split
  · exact .inl rfl
  · split
    · exact .inl rfl
    · exact .inr rfl

/-- An event that is handed over makes no adapter call yet. -/
theorem receive_of_handling {topicHandlerMap : List (String × Handler)} {draining : Bool}
    {signal : List AbortSource} {event : RawEvent}
    (h : (receive topicHandlerMap draining signal event).1.handling = true) :
    receive topicHandlerMap draining signal event =
      (.handed (createEventContext event signal) false .handling, []) := by
  unfold receive at h ⊢
  split
  next hl => simp [hl, handling] at h
  next hl =>
    cases draining with
    | false => rfl
    | true => simp [hl, handling] at h

/-- While the bus is draining, an event is answered at once: requeued if it has a handler. -/
theorem receive_draining (topicHandlerMap : List (String × Handler))
    (signal : List AbortSource) (event : RawEvent) :
    receive topicHandlerMap true signal event =
      (.dismissing,
        [if (lookupHandler topicHandlerMap event.eventType).isSome then .nack true else .ack]) := by
  cases h : lookupHandler topicHandlerMap event.eventType <;> simp [receive, h]

theorem receive_accounts (topicHandlerMap : List (String × Handler)) (draining : Bool)
    (signal : List AbortSource) (event : RawEvent) :
    Accounts (receive topicHandlerMap draining signal event).1
      (receive topicHandlerMap draining signal event).2 := by
  unfold receive
  split
  · rfl
  · split
    · rfl
    · exact ⟨rfl, rfl⟩

theorem Accounts.step {d d' : Delivery} {a : DeliveryAction} {calls out : List AdapterCall}
    (h : Accounts d calls) (hlate : ¬ Late d a) (hstep : Delivery.step d a = some (d', out)) :
    Accounts d' (calls ++ out) := by
  cases step_cases hstep with
  | @settles ctx settled phase a callback ha ho =>
    obtain ⟨hsettled, hlen⟩ := h
    have hopen : phase.completed = false := by
      by_contra hc
      exact hlate ⟨by simp [ha], ho, by simpa using hc⟩
    refine ⟨rfl, ?_⟩
    simp [hopen, hlen, hsettled, ho]
  | ignored => simpa using h
  | returnsSettled =>
    obtain ⟨hs, hlen⟩ := h
    exact ⟨hs, by simpa [Phase.completed] using hlen⟩
  | autoAcks =>
    obtain ⟨hs, hlen⟩ := h
    exact ⟨hs, by simpa [Phase.completed] using hlen⟩
  | throws =>
    obtain ⟨hs, hlen⟩ := h
    exact ⟨hs, by simpa [Phase.completed] using hlen⟩
  | autoAcked =>
    obtain ⟨hs, hlen⟩ := h
    exact ⟨hs, by simpa [Phase.completed] using hlen⟩
  | answered =>
    change calls.length = 1 at h
    simpa [Accounts] using h

theorem Accounts.length_le {d : Delivery} {calls : List AdapterCall} (h : Accounts d calls) :
    calls.length ≤ 1 := by
  cases d with
  | dismissing => exact Nat.le_of_eq h
  | dismissed => exact Nat.le_of_eq h
  | handed ctx settled phase =>
    rw [h.2]
    split
    · exact Nat.le_refl 1
    · exact Bool.toNat_le settled

theorem Accounts.of_completed {d : Delivery} {calls : List AdapterCall}
    (h : Accounts d calls) (hc : d.completed = true) : calls.length = 1 := by
  cases d with
  | dismissing => exact h
  | dismissed => exact h
  | handed ctx settled phase => exact h.2.trans (if_pos hc)

/-- A late call is a second adapter call. -/
theorem Accounts.late {d d' : Delivery} {a : DeliveryAction} {calls out : List AdapterCall}
    (h : Accounts d calls) (hlate : Late d a) (hstep : Delivery.step d a = some (d', out)) :
    (calls ++ out).length = 2 := by
  cases step_cases hstep with
  | @settles ctx settled phase a callback ha ho =>
    have hone := h.of_completed (show (Delivery.handed ctx settled phase).completed from hlate.2.2)
    simp [hone]
  | @ignored ctx settled phase a callback ha hs =>
    have ho := hlate.2.1
    simp [hs] at ho
  | answered => exact hlate.elim
  | _ => simp [Late, DeliveryAction.callback] at hlate

/-- Over every execution of one delivery, the adapter's callbacks are invoked at most once,
and exactly once after a normal completion of the composed handler, if and only if no late
call is made. -/
theorem settles_once_iff_no_late_call (topicHandlerMap : List (String × Handler))
    (draining : Bool) (signal : List AbortSource) (event : RawEvent)
    {as : List DeliveryAction} {d : Delivery} {out : List AdapterCall}
    (hrun : Machine.run step (receive topicHandlerMap draining signal event).1 as =
      some (d, out)) :
    Machine.Meets step (fun d a => ¬ Late d a)
        (receive topicHandlerMap draining signal event).1 as ↔
      ((receive topicHandlerMap draining signal event).2 ++ out).length ≤ 1 ∧
      (d.completed = true →
        ((receive topicHandlerMap draining signal event).2 ++ out).length = 1) := by
  have hinit := receive_accounts topicHandlerMap draining signal event
  constructor
  · intro hmeets
    have hfinal : Accounts d _ := Machine.run_invariant_of_meets
      (fun d calls a d' out h hl hs => Accounts.step h hl hs) hinit hmeets hrun
    exact ⟨hfinal.length_le, hfinal.of_completed⟩
  · rintro ⟨hle, -⟩
    by_contra hviolated
    obtain ⟨before, a, after, t, l, rfl, hbefore, hmeets, hlate⟩ :=
      Machine.exists_violation hrun hviolated
    have ht : Accounts t _ := Machine.run_invariant_of_meets
      (fun d calls a d' out h hl hs => Accounts.step h hl hs) hinit hmeets hbefore
    obtain ⟨t', l', r, hb, hrest, rfl⟩ := Machine.run_append.mp hrun
    rw [hbefore] at hb
    obtain ⟨rfl, rfl⟩ := Prod.mk.inj (Option.some.inj hb)
    obtain ⟨u, o, rest, hstep, -, rfl⟩ := Machine.run_cons.mp hrest
    have htwo := ht.late (not_not.mp hlate) hstep
    simp only [List.length_append] at htwo hle
    omega

/-- A concrete event. -/
def userCreated : RawEvent := ⟨"evt-1", "user.created", [], 0, 1, []⟩

theorem settles_once_iff_no_late_call_userCreated :
    ((receive [("user.created", ())] false [] userCreated).2 ++ [AdapterCall.ack]).length ≤ 1 ∧
      ((receive [("user.created", ())] false [] userCreated).2 ++
        [AdapterCall.ack]).length = 1 := by
  have hrun : Machine.run step (receive [("user.created", ())] false [] userCreated).1
      [.handlerReturns] =
      some (.handed (createEventContext userCreated []) false .autoAcking, [.ack]) := by decide
  have h := (settles_once_iff_no_late_call [("user.created", ())] false [] userCreated hrun).mp
    (by decide)
  exact ⟨h.1, h.2 rfl⟩

/-- The automatic ack leaves both `settled` flags unset, so a later `ctx.ack()` acks again. -/
theorem late_ack_settles_twice :
    ¬ ∀ (topicHandlerMap : List (String × Unit)) (draining : Bool) (signal : List AbortSource)
      (event : RawEvent) (as : List DeliveryAction) (d : Delivery) (out : List AdapterCall),
      Machine.run step (receive topicHandlerMap draining signal event).1 as = some (d, out) →
      ((receive topicHandlerMap draining signal event).2 ++ out).length ≤ 1 := by
  intro h
  have hrun : Machine.run step (receive [("user.created", ())] false [] userCreated).1
      [.handlerReturns, .brokerAnswers true, .ack] =
      some (.handed { createEventContext userCreated [] with settled := true } true .resolved,
        [.ack, .ack]) := by decide
  exact absurd (h _ _ _ _ _ _ _ hrun) (by decide)

end Delivery

/-- A bus with one route and the default timeouts. -/
def userOptions : BusOptions Unit := { topicHandlerMap := [("user.created", ())] }

end Connectum.Events
