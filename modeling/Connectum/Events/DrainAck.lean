import Connectum.Events.DrainSafety
import Connectum.Events.Redis.Reader
import Connectum.Events.Amqp.Channel

/-! Acknowledgements during the drain: which of them still find their connection open. -/
namespace Connectum.Events.Drain

variable {τ κ : Type*} {Handler : Type*} {T : Transport τ κ} {o : BusOptions Handler}

/-- An adapter call for the delivery `d`. -/
def Output.callOf (d : ℕ) : Output → Option (AdapterCall × Bool)
  | .call e c isOpen => if e = d then some (c, isOpen) else none
  | .abort | .disconnect => none

/-- The first adapter call for a delivery, and if it is an ack, on an open connection. -/
def Acknowledged (log : List Output) (d : ℕ) : Prop :=
  ∃ c isOpen, log.findSome? (Output.callOf d) = some (c, isOpen) ∧ (c = .ack → isOpen = true)

/-- Along the executions whose steps from the `stop()` on meet `cond`: a handler that is in
flight at the call of `stop()` and completes within `drainTimeout` has been acknowledged. -/
def KeepsAcks (T : Transport τ κ) (o : BusOptions Handler) (initial : τ)
    (cond : Bus τ → Action κ → Prop) : Prop :=
  ∀ before s l, Machine.run (Bus.step T o) (Bus.started initial) before = some (s, l) →
  ∀ after u l', Machine.Meets (Bus.step T o) cond s (.stop :: after) →
    Machine.run (Bus.step T o) s (.stop :: after) = some (u, l') →
  ∀ d x y, s.deliveries[d]? = some x → x.handling = true → u.deliveries[d]? = some y →
    y.completed = true → u.now ≤ s.now + o.drainTimeout → Acknowledged (l ++ l') d

/-- Every handler in flight has settled its context. -/
def InFlightSettled (s : Bus τ) : Prop :=
  ∀ x ∈ s.deliveries, x.handling = true → x.contextSettled = true

/-- A delivery that is handled or has completed, against its first adapter call: settled while
the connection was open, or still to be settled, which needs the connection. -/
def Recorded (isOpen : Bool) : Delivery → Option (AdapterCall × Bool) → Prop
  | .handed ctx settled .handling, first => settled = ctx.settled ∧
    if ctx.settled then ∃ c, first = some (c, true) else first = none ∧ isOpen = true
  | .handed _ _ .autoAcking, first | .handed _ _ .resolved, first => ∃ c, first = some (c, true)
  | .handed _ _ .rejected, _ | .dismissing, _ | .dismissed _, _ => True

theorem Recorded.step {isOpen : Bool} {x y : Delivery} {b : DeliveryAction}
    {cs : List AdapterCall} {first : Option (AdapterCall × Bool)} (h : Recorded isOpen x first)
    (hstep : Delivery.Step x b y cs) :
    Recorded isOpen y (first.or (cs.head?.map (·, isOpen))) := by
  cases hstep with
  | @settles ctx settled phase b callback hb ho =>
    cases phase with
    | handling =>
      obtain ⟨rfl, hfirst⟩ := h
      simp only [ho, Bool.false_eq_true, if_false] at hfirst
      obtain ⟨rfl, rfl⟩ := hfirst
      simp [Recorded]
    | autoAcking | resolved =>
      obtain ⟨c, rfl⟩ := h
      exact ⟨c, rfl⟩
    | rejected => trivial
  | ignored => simpa using h
  | returnsSettled =>
    obtain ⟨hctx, hfirst⟩ := h
    rw [if_pos hctx.symm] at hfirst
    simpa [Recorded] using hfirst
  | autoAcks =>
    obtain ⟨hctx, hfirst⟩ := h
    rw [← hctx] at hfirst
    simp only [Bool.false_eq_true, if_false] at hfirst
    obtain ⟨rfl, rfl⟩ := hfirst
    exact ⟨.ack, rfl⟩
  | throws => trivial
  | autoAcked => simpa [Recorded] using h
  | answered => trivial

/-- Closing the connection leaves a settled delivery recorded. -/
theorem Recorded.of_settled {isOpen isOpen' : Bool} {x : Delivery}
    {first : Option (AdapterCall × Bool)} (h : Recorded isOpen x first)
    (hx : isOpen' = true ∨ (x.handling = true → x.contextSettled = true)) :
    Recorded isOpen' x first := by
  match x, h with
  | .handed ctx settled .handling, ⟨hctx, hfirst⟩ =>
    refine ⟨hctx, ?_⟩
    cases hc : ctx.settled with
    | true => simpa [hc] using hfirst
    | false =>
      rw [hc] at hfirst
      rcases hx with ho | hs
      · exact ⟨hfirst.1, ho⟩
      · simp [Delivery.contextSettled, hc, Delivery.handling] at hs
  | .handed _ _ .autoAcking, h => exact h
  | .handed _ _ .resolved, h => exact h
  | .handed _ _ .rejected, _ => trivial
  | .dismissing, _ => trivial
  | .dismissed _, _ => trivial

theorem Recorded.of_completed {isOpen : Bool} {x : Delivery}
    {first : Option (AdapterCall × Bool)} (h : Recorded isOpen x first)
    (hx : x.completed = true) : ∃ c, first = some (c, true) := by
  match x, h with
  | .handed _ _ .handling, _ => simp [Delivery.completed, Phase.completed] at hx
  | .handed _ _ .autoAcking, h => exact h
  | .handed _ _ .resolved, h => exact h
  | .handed _ _ .rejected, _ => simp [Delivery.completed, Phase.completed] at hx
  | .dismissing, _ => simp [Delivery.completed] at hx
  | .dismissed _, _ => simp [Delivery.completed] at hx

theorem findSome_calls (s : Bus τ) (d : ℕ) (cs : List AdapterCall) :
    (s.calls T d cs).findSome? (Output.callOf d) = cs.head?.map (·, T.isOpen s.transport) := by
  cases cs <;> simp [Bus.calls, Output.callOf]

theorem findSome_eq_none {d : ℕ} {out : List Output} (h : ∀ c isOpen, .call d c isOpen ∉ out) :
    out.findSome? (Output.callOf d) = none := by
  rw [List.findSome?_eq_none_iff]
  intro e he
  cases e with
  | call e c isOpen =>
    have hne : e ≠ d := by
      rintro rfl
      exact h c isOpen he
    simp [Output.callOf, hne]
  | _ => rfl

/-- The connection of an adapter is open until `unsubscribe()` is called, and a delivery does
not change that. -/
structure OpenUntilUnsubscribe (T : Transport τ κ) (attached : τ → Prop) : Prop where
  isOpen : ∀ t, attached t → T.isOpen t = true
  accept : ∀ t d event t', T.accept t d event = some t' →
    (attached t → attached t') ∧ T.isOpen t' = T.isOpen t
  internal : ∀ callback t k t', T.internal callback t k = some t' → attached t → attached t'

theorem idle_of_step {s t : Bus τ} {a : Action κ} {out : List Output}
    (h : Bus.Step T o s a t out) (ht : t.stop = .idle) : s.stop = .idle := by
  cases h with
  | stop hs => exact hs
  | drains hc hp hdrained => cases hdrained <;> cases ht
  | settled | disconnected => cases ht
  | _ => exact ht

/-- An adapter call is for a delivery that the bus knows. -/
theorem call_lt {s t : Bus τ} {a : Action κ} {out : List Output} {d : ℕ} {c : AdapterCall}
    {isOpen : Bool} (h : Bus.Step T o s a t out) (hc : .call d c isOpen ∈ out) :
    d < t.deliveries.length := by
  cases h with
  | deliver =>
    obtain ⟨c', -, he⟩ := List.mem_map.mp hc
    simp only [Output.call.injEq] at he
    simp [Bus.receive, ← he.1]
  | bus hd =>
    obtain ⟨c', -, he⟩ := List.mem_map.mp hc
    simp only [Output.call.injEq] at he
    simpa [← he.1] using (List.getElem?_eq_some_iff.mp hd).1
  | drains _ _ hdrained => cases hdrained <;> simp at hc
  | _ => simp at hc

theorem transport_of_bus {s t : Bus τ} {d : ℕ} {b : DeliveryAction} {out : List Output}
    (h : Bus.Step T o s (.bus d b) t out) : t.transport = s.transport := by
  cases h with
  | bus => rfl
  | drains _ _ hdrained => cases hdrained <;> rfl

theorem length_le_of_step {s t : Bus τ} {a : Action κ} {out : List Output}
    (h : Bus.Step T o s a t out) : s.deliveries.length ≤ t.deliveries.length := by
  cases h with
  | deliver => simp [Bus.receive]
  | bus => simp
  | drains _ _ hdrained => cases hdrained <;> exact Nat.le_refl _
  | _ => exact Nat.le_refl _

/-- Up to the call of `stop()`, every delivery is recorded and the connection is open. -/
structure BeforeStop (attached : τ → Prop) (s : Bus τ) (log : List Output) : Prop where
  attached : attached s.transport
  recorded : ∀ d x, s.deliveries[d]? = some x →
    Recorded true x (log.findSome? (Output.callOf d))
  fresh : ∀ d, s.deliveries.length ≤ d → log.findSome? (Output.callOf d) = none

theorem BeforeStop.step {attached : τ → Prop} (hT : OpenUntilUnsubscribe T attached)
    {s t : Bus τ} {a : Action κ} {log out : List Output} (hs : BeforeStop attached s log)
    (h : Bus.Step T o s a t out) (ht : t.stop = .idle) : BeforeStop attached t (log ++ out) where
  attached := by
    cases h with
    | deliver ha => exact (hT.accept _ _ _ _ ha).1 hs.attached
    | transport hc hk => exact hT.internal _ _ _ _ hk hs.attached
    | stop => cases ht
    | drains hc hp hdrained => cases hdrained <;> cases ht
    | _ => exact hs.attached
  recorded := by
    intro d y hy
    rw [List.findSome?_append]
    rcases h.origin hy with ⟨x, hx⟩ | ⟨event, transport, rfl, rfl, rfl, rfl, rfl⟩
    · rcases h.delivery hx with ⟨hsame, hout⟩ | ⟨b, z, cs, -, hstep, hz, rfl, -⟩
      · obtain rfl : x = y := Option.some.inj (hsame.symm.trans hy)
        simpa [findSome_eq_none hout] using hs.recorded d x hx
      · obtain rfl : z = y := Option.some.inj (hz.symm.trans hy)
        rw [findSome_calls, hT.isOpen _ hs.attached]
        exact (hs.recorded d x hx).step hstep
    · rw [hs.fresh _ (Nat.le_refl _)]
      rcases Delivery.receive_cases o.topicHandlerMap s.draining o.signals event with hr | hr
      · rw [Bus.arrival, hr]
        trivial
      · have hr' := Delivery.receive_of_handling (h := by rw [hr]; rfl)
        rw [Bus.arrival, hr']
        simp [Recorded, Bus.calls, createEventContext]
  fresh := by
    intro d hd
    rw [List.findSome?_append, hs.fresh d (Nat.le_trans (length_le_of_step h) hd)]
    refine findSome_eq_none fun c isOpen hc => ?_
    exact absurd (call_lt h hc) (Nat.not_lt.mpr hd)

theorem beforeStop_of_run {attached : τ → Prop} (hT : OpenUntilUnsubscribe T attached)
    {initial : τ} (hinit : attached initial) {s : Bus τ} {as : List (Action κ)}
    {log : List Output} (hrun : Machine.run (Bus.step T o) (Bus.started initial) as = some (s, log))
    (hidle : s.stop = .idle) : BeforeStop attached s log :=
  Machine.run_invariant (l := [])
    (I := fun s log => s.stop = .idle → BeforeStop attached s log)
    (fun _ _ _ _ _ hs h ht =>
      (hs (idle_of_step (Bus.step_cases h) ht)).step hT (Bus.step_cases h) ht)
    (fun _ => ⟨hinit, by simp [Bus.started], by simp⟩) hrun hidle

/-- From the call of `stop()` on, the deliveries that were there remain recorded. -/
structure AfterStop (T : Transport τ κ) (n : ℕ) (s : Bus τ) (log : List Output) : Prop where
  length : n ≤ s.deliveries.length
  recorded : ∀ d x, d < n → s.deliveries[d]? = some x →
    Recorded (T.isOpen s.transport) x (log.findSome? (Output.callOf d))

theorem AfterStop.step {n : ℕ} {s t : Bus τ} {a : Action κ} {log out : List Output}
    (hs : AfterStop T n s log) (h : Bus.Step T o s a t out)
    (hclose : T.isOpen s.transport = true → T.isOpen t.transport = false → InFlightSettled s) :
    AfterStop T n t (log ++ out) where
  length := Nat.le_trans hs.length (length_le_of_step h)
  recorded := by
    intro d y hd hy
    rw [List.findSome?_append]
    have hx := List.getElem?_eq_getElem (Nat.lt_of_lt_of_le hd hs.length)
    rcases h.delivery hx with ⟨hsame, hout⟩ | ⟨b, z, cs, rfl, hstep, hz, rfl, -⟩
    · obtain rfl := Option.some.inj (hsame.symm.trans hy)
      rw [findSome_eq_none hout, Option.or_none]
      have hrec := hs.recorded d _ hd hx
      cases hopen : T.isOpen t.transport with
      | true => exact hrec.of_settled (.inl rfl)
      | false =>
        cases hopen' : T.isOpen s.transport with
        | true =>
          have hsettled := hclose hopen' hopen
          exact hrec.of_settled (.inr (hsettled _ (List.mem_of_getElem? hx)))
        | false => rwa [hopen'] at hrec
    · obtain rfl := Option.some.inj (hz.symm.trans hy)
      rw [findSome_calls, transport_of_bus h]
      exact (hs.recorded d _ hd hx).step hstep

/-- Acknowledgements survive if every handler in flight has settled when the connection is
closed. -/
theorem keepsAcks_of_closing {attached : τ → Prop} (hT : OpenUntilUnsubscribe T attached)
    {initial : τ} (hinit : attached initial) {cond : Bus τ → Action κ → Prop}
    (hclose : ∀ s a t out, Bus.Step T o s a t out → cond s a → T.isOpen s.transport = true →
      T.isOpen t.transport = false → InFlightSettled s) :
    KeepsAcks T o initial cond := by
  intro before s l hbefore after u l' hmeets hafter d x y hx hhandling hy hcompleted _
  obtain ⟨t, out, rest, hstop, -⟩ := Machine.run_cons.mp hafter
  have hidle : s.stop = .idle := by
    cases Bus.step_cases hstop with
    | stop h => exact h
    | drains hc hp hdrained => simp [Bus.step] at hstop; exact hstop.1
  have hpre := beforeStop_of_run hT hinit hbefore hidle
  have hpost : AfterStop T s.deliveries.length u (l ++ l') :=
    Machine.run_invariant_of_meets
      (fun s log a t out hs hc h =>
        hs.step (Bus.step_cases h) (hclose s a t out (Bus.step_cases h) hc))
      ⟨Nat.le_refl _, fun d x _ hx => by
        rw [hT.isOpen _ hpre.attached]
        exact hpre.recorded d x hx⟩ hmeets hafter
  obtain ⟨c, hfirst⟩ := (hpost.recorded d y (List.getElem?_eq_some_iff.mp hx).1 hy).of_completed
    hcompleted
  exact ⟨c, true, hfirst, fun _ => rfl⟩

/-- Handlers leave their synchronous part without any effect. -/
theorem exists_tracked (T : Transport τ κ) (o : BusOptions Handler) (s : Bus τ) :
    ∃ as inFlight, Machine.run (Bus.step T o) s as =
      some ({ s with callStack := [], inFlight }, []) := by
  induction hc : s.callStack generalizing s with
  | nil => exact ⟨[], s.inFlight, by rw [← hc]; rfl⟩
  | cons d rest ih =>
    obtain ⟨as, inFlight, hrun⟩ :=
      ih { s with callStack := rest, inFlight := s.inFlight ++ [d] } rfl
    exact ⟨.track :: as, inFlight, Machine.run_cons.mpr
      ⟨{ s with callStack := rest, inFlight := s.inFlight ++ [d] }, [], [],
        by simp [Bus.step, hc], hrun, rfl⟩⟩

/-- A handler that returns unsettled on a closed connection loses its automatic ack. -/
theorem exists_lost_ack {s : Bus τ} {log : List Output} {d : ℕ} {ctx : EventContext}
    (hclosed : T.isOpen s.transport = false)
    (hd : s.deliveries[d]? = some (.handed ctx false .handling))
    (hlog : log.findSome? (Output.callOf d) = none) :
    ∃ as u l y, Machine.run (Bus.step T o) s as = some (u, l) ∧ u.now = s.now ∧
      u.deliveries[d]? = some y ∧ y.completed = true ∧ ¬ Acknowledged (log ++ l) d := by
  obtain ⟨as, inFlight, hrun⟩ := exists_tracked T o s
  have hlt : d < s.deliveries.length := (List.getElem?_eq_some_iff.mp hd).1
  have hreturn : Bus.step T o { s with callStack := [], inFlight } (.bus d .handlerReturns) =
      some ({ s with
        callStack := []
        inFlight
        deliveries := s.deliveries.set d (.handed ctx false .autoAcking) },
        [.call d .ack false]) := by
    simp [Bus.step, hd, Delivery.step, Bus.calls, hclosed]
  have hall := Machine.run_append.mpr ⟨_, _, _, hrun, Machine.run_singleton.mpr hreturn, rfl⟩
  refine ⟨_, _, _, .handed ctx false .autoAcking, hall, rfl, by simp [hlt], rfl, ?_⟩
  rintro ⟨c, isOpen, hfirst, hopen⟩
  rw [List.findSome?_append, hlog] at hfirst
  obtain ⟨rfl, rfl⟩ : AdapterCall.ack = c ∧ false = isOpen := by
    simpa [Output.callOf] using hfirst
  cases hopen rfl

section Adapters

variable {streamKeys : List String} {env : ℕ → Redis.Environment}

theorem redis_openUntilUnsubscribe : OpenUntilUnsubscribe (Redis.transport streamKeys env)
    fun r => r.connected = true where
  isOpen _ h := h
  accept _ _ _ _ h := by
    obtain ⟨-, -, hc⟩ := Redis.Reader.accept_of_some h
    exact ⟨fun ho => hc.trans ho, hc⟩
  internal _ _ _ _ h ho := (Redis.Reader.internal_of_some h).connected.trans ho

/-- The Redis reader connection is closed by the call of `stop()`. -/
theorem redis_closing {s t : Bus Redis.Reader} {a : Action Redis.ReaderAction}
    {out : List Output} (h : Bus.Step (Redis.transport streamKeys env) o s a t out)
    (ho : s.transport.connected = true) (hc : t.transport.connected = false) : a = .stop := by
  have hsame (he : t.transport.connected = s.transport.connected) : a = .stop := by
    simp [he, ho] at hc
  cases h with
  | stop => rfl
  | deliver ha => exact hsame (Redis.Reader.accept_of_some ha).2.2
  | transport _ hk => exact hsame (Redis.Reader.internal_of_some hk).connected
  | drains _ _ hdrained => cases hdrained <;> exact hsame rfl
  | _ => exact hsame rfl

/-- A handler that is unsettled when `stop()` closes the Redis reader can lose its ack. -/
theorem redis_lost_ack_of_unsettled {before : List (Action Redis.ReaderAction)}
    {s : Bus Redis.Reader} {l : List Output} {d : ℕ} {x : Delivery}
    (hrun : Machine.run (Bus.step (Redis.transport streamKeys env) o)
      (Bus.started (Redis.Reader.started streamKeys)) before = some (s, l))
    (hidle : s.stop = .idle) (hd : s.deliveries[d]? = some x) (hx : x.handling = true)
    (hopen : x.contextSettled = false) :
    ∃ after u l' y, Machine.run (Bus.step (Redis.transport streamKeys env) o) s
        (.stop :: after) = some (u, l') ∧ u.now = s.now ∧ u.deliveries[d]? = some y ∧
      y.completed = true ∧ ¬ Acknowledged (l ++ l') d := by
  have hpre := beforeStop_of_run redis_openUntilUnsubscribe
    (Redis.Reader.internal_loopHead streamKeys _).connected hrun hidle
  match x, hx, hopen with
  | .handed ctx settled .handling, _, hopen =>
    have hctx : ctx.settled = false := hopen
    obtain ⟨hsettled, hfirst⟩ := hpre.recorded d _ hd
    rw [hctx] at hsettled hfirst
    subst hsettled
    have hstop : Bus.step (Redis.transport streamKeys env) o s .stop =
        some (s.beginStop (Redis.transport streamKeys env), []) := by simp [Bus.step, hidle]
    obtain ⟨as, u, l', y, has, hnow, hy, hcompleted, hlost⟩ :=
      exists_lost_ack (T := Redis.transport streamKeys env) (o := o)
        (s := s.beginStop (Redis.transport streamKeys env)) rfl hd hfirst.1
    exact ⟨as, u, l', y, Machine.run_cons.mpr ⟨_, _, _, hstop, has, rfl⟩, hnow, hy, hcompleted,
      hlost⟩

theorem amqp_openUntilUnsubscribe : OpenUntilUnsubscribe Amqp.transport
    fun r => r.phase = .consuming where
  isOpen r h := by
    change r.phase = .consuming at h
    simp [Amqp.transport, Amqp.SubscriptionRecord.isOpen, h]
  accept r _ _ r' h := by
    simp only [Amqp.transport, Amqp.SubscriptionRecord.accept] at h
    split at h
    next =>
      obtain rfl := Option.some.inj h
      exact ⟨id, rfl⟩
    next => simp at h
  internal _ r k r' h hc := by
    change r.phase = .consuming at hc
    cases k <;> simp [Amqp.transport, Amqp.SubscriptionRecord.internal, hc] at h

/-- The reply after which `unsubscribe()` calls `ch.close()`. -/
def ClosesChannel (s : Bus Amqp.SubscriptionRecord) (a : Action Amqp.ChannelReply) : Prop :=
  (a = .transport .cancelled ∧ s.transport.isAutoGroup = false) ∨ a = .transport .queueDeleted

theorem amqp_closing {s t : Bus Amqp.SubscriptionRecord} {a : Action Amqp.ChannelReply}
    {out : List Output} (h : Bus.Step Amqp.transport o s a t out)
    (ho : s.transport.isOpen = true) (hc : t.transport.isOpen = false) : ClosesChannel s a := by
  have hsame (he : t.transport = s.transport) : ClosesChannel s a := by
    simp [he, ho] at hc
  cases h with
  | stop => simp [Bus.beginStop, Amqp.transport, Amqp.SubscriptionRecord.unsubscribe,
      Amqp.SubscriptionRecord.isOpen] at hc
  | deliver ha =>
    simp only [Amqp.transport, Amqp.SubscriptionRecord.accept] at ha
    split at ha
    next => exact hsame (Option.some.inj ha).symm
    next => simp at ha
  | @transport k r _ hk =>
    cases k with
    | cancelled =>
      left
      refine ⟨rfl, ?_⟩
      by_contra hauto
      simp only [Amqp.transport, Amqp.SubscriptionRecord.internal, Bool.not_eq_false] at hk hauto
      rw [if_pos hauto] at hk
      split at hk
      next =>
        obtain rfl := Option.some.inj hk
        cases hc
      next => simp at hk
    | queueDeleted => exact .inr rfl
    | closed =>
      simp only [Amqp.transport, Amqp.SubscriptionRecord.internal] at hk
      split at hk
      next hp => simp [Amqp.SubscriptionRecord.isOpen, hp] at ho
      next => simp at hk
  | drains _ _ hdrained => cases hdrained <;> exact hsame rfl
  | _ => exact hsame rfl

/-- The drain keeps the acknowledgements of the Redis and the AMQP adapter in every execution
in which each handler in flight has settled by the time the connection is closed: at the call
of `stop()` with Redis, when the consumer has been cancelled with AMQP. -/
theorem keepsAcks_of_inFlightSettled (o : BusOptions Handler) (streamKeys : List String)
    (env : ℕ → Redis.Environment) (isAutoGroup : Bool) :
    KeepsAcks (Redis.transport streamKeys env) o (Redis.Reader.started streamKeys)
      (fun s a => a = .stop → InFlightSettled s) ∧
    KeepsAcks Amqp.transport o (Amqp.SubscriptionRecord.started isAutoGroup)
      (fun s a => ClosesChannel s a → InFlightSettled s) := by
  constructor
  · refine keepsAcks_of_closing redis_openUntilUnsubscribe
      (Redis.Reader.internal_loopHead streamKeys _).connected ?_
    intro s a t out h hcond ho hc
    exact hcond (redis_closing h ho hc)
  · refine keepsAcks_of_closing amqp_openUntilUnsubscribe rfl ?_
    intro s a t out h hcond ho hc
    exact hcond (amqp_closing h ho hc)

/-- A handler of a Redis entry. -/
def redisHandler (settled : Bool) (phase : Phase) : Delivery :=
  .handed { createEventContext (Redis.rawEvent (Redis.fixedEnvironment 0) Redis.userEntry 1)
    userOptions.signals with settled } settled phase

def redisInFlight (settled : Bool) : Bus Redis.Reader :=
  ⟨0, [redisHandler settled .handling], [], [0], false, false, .idle, 0,
    ⟨true, true, 1, .processing 0 []⟩⟩

/-- The handler has returned after the call of `stop()`. -/
def redisReturned (settled : Bool) (phase : Phase) : Bus Redis.Reader :=
  ⟨0, [redisHandler settled phase], [], [0], true, false, .unsubscribing, 0,
    ⟨false, false, 1, .processing 0 []⟩⟩

/-- With Redis, an event that its handler acked before `stop()` is acknowledged. -/
theorem keepsAcks_of_inFlightSettled_acked :
    Acknowledged ([.call 0 .ack true] ++ []) 0 := by
  have hbefore : Machine.run
      (Bus.step (Redis.transport ["events:user.created"] Redis.fixedEnvironment) userOptions)
      (Bus.started (Redis.Reader.started ["events:user.created"]))
      [.transport (.readReply [Redis.userEntry]),
        .deliver (Redis.rawEvent (Redis.fixedEnvironment 0) Redis.userEntry 1), .track,
        .bus 0 .ack] = some (redisInFlight true, [.call 0 .ack true]) := by decide
  have hafter : Machine.run
      (Bus.step (Redis.transport ["events:user.created"] Redis.fixedEnvironment) userOptions)
      (redisInFlight true) [.stop, .bus 0 .handlerReturns] =
      some (redisReturned true .resolved, []) := by decide
  refine (keepsAcks_of_inFlightSettled userOptions ["events:user.created"] Redis.fixedEnvironment
    false).1 _ _ _ hbefore _ _ _ ?_ hafter 0 _ _ rfl rfl rfl rfl (by decide)
  refine Machine.meets_cons.mpr ⟨fun _ => ?_, fun t out _ => ?_⟩
  · simp [InFlightSettled, redisInFlight, redisHandler, Delivery.contextSettled]
  · exact Machine.meets_cons.mpr ⟨fun h => by simp at h, fun _ _ _ => Machine.meets_nil _⟩

/-- A handler that returns during the drain: its automatic ack finds the Redis reader or the
AMQP channel closed. -/
theorem drain_loses_acks :
    (¬ KeepsAcks (Redis.transport ["events:user.created"] Redis.fixedEnvironment) userOptions
      (Redis.Reader.started ["events:user.created"]) fun _ _ => True) ∧
    (¬ KeepsAcks Amqp.transport userOptions (Amqp.SubscriptionRecord.started false)
      fun _ _ => True) := by
  constructor
  · intro h
    have hbefore : Machine.run
        (Bus.step (Redis.transport ["events:user.created"] Redis.fixedEnvironment) userOptions)
        (Bus.started (Redis.Reader.started ["events:user.created"]))
        [.transport (.readReply [Redis.userEntry]),
          .deliver (Redis.rawEvent (Redis.fixedEnvironment 0) Redis.userEntry 1), .track] =
        some (redisInFlight false, []) := by decide
    have hafter : Machine.run
        (Bus.step (Redis.transport ["events:user.created"] Redis.fixedEnvironment) userOptions)
        (redisInFlight false) [.stop, .bus 0 .handlerReturns] =
        some (redisReturned false .autoAcking, [.call 0 .ack false]) := by decide
    obtain ⟨c, isOpen, hfirst, hopen⟩ :=
      h _ _ _ hbefore _ _ _ (Machine.meets_true _ _) hafter 0 _ _ rfl rfl rfl rfl (by decide)
    obtain ⟨rfl, rfl⟩ : AdapterCall.ack = c ∧ false = isOpen := by
      simpa [Output.callOf] using hfirst
    cases hopen rfl
  · intro h
    have hbefore : Machine.run (Bus.step Amqp.transport userOptions)
        (Bus.started (Amqp.SubscriptionRecord.started false))
        [.deliver Delivery.userCreated, .track] =
        some (⟨0, [.handed (createEventContext Delivery.userCreated userOptions.signals) false
          .handling], [], [0], false, false, .idle, 0, ⟨false, .consuming⟩⟩, []) := by decide
    have hafter : Machine.run (Bus.step Amqp.transport userOptions)
        ⟨0, [.handed (createEventContext Delivery.userCreated userOptions.signals) false
          .handling], [], [0], false, false, .idle, 0, ⟨false, .consuming⟩⟩
        [.stop, .transport .cancelled, .bus 0 .handlerReturns] =
        some (⟨0, [.handed (createEventContext Delivery.userCreated userOptions.signals) false
          .autoAcking], [], [0], true, false, .unsubscribing, 0, ⟨false, .closing⟩⟩,
          [.call 0 .ack false]) := by decide
    obtain ⟨c, isOpen, hfirst, hopen⟩ :=
      h _ _ _ hbefore _ _ _ (Machine.meets_true _ _) hafter 0 _ _ rfl rfl rfl rfl (by decide)
    obtain ⟨rfl, rfl⟩ : AdapterCall.ack = c ∧ false = isOpen := by
      simpa [Output.callOf] using hfirst
    cases hopen rfl

end Adapters

end Connectum.Events.Drain
