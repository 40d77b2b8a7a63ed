import Connectum.Events.Delivery

/-! A started bus with its deliveries and one `stop()`: unsubscribe, drain the handlers in
flight, abort the rest, disconnect. The adapter's side is a parameter. -/
namespace Connectum.Events

/-- The adapter's side of one subscription. `accept` hands the delivery with the given number
to the bus; `internal` is a step of the adapter, which sees how the callbacks it awaits have
settled; `unsubscribe` is the synchronous part of `unsubscribe()`; and acknowledgements reach
the broker while `isOpen`. -/
structure Transport (τ κ : Type*) where
  accept : τ → ℕ → RawEvent → Option τ
  internal : (ℕ → Option Bool) → τ → κ → Option τ
  unsubscribe : τ → τ
  unsubscribed : τ → Bool
  isOpen : τ → Bool

/-- The memory adapter: it keeps no connection, `unsubscribe()` completes at once, and a
`publish` in progress still delivers. -/
def memory : Transport Unit Empty where
  accept := fun t _ _ => some t
  internal := fun _ _ k => nomatch k
  unsubscribe := id
  unsubscribed := fun _ => true
  isOpen := fun _ => true

namespace Drain

/-- The await at which `stop()` is suspended, with the promises it waits for. -/
inductive StopPhase where
  | idle
  | unsubscribing
  | racing (deadline timer : ℤ) (waiting : List ℕ)
  | settling (waiting : List ℕ)
  | disconnecting
  | stopped
  deriving DecidableEq, Repr

/-- `stop()` has set `draining` and has not finished. -/
def StopPhase.active : StopPhase → Bool
  | .idle | .stopped => false
  | .unsubscribing | .racing _ _ _ | .settling _ | .disconnecting => true

/-- Deliveries are numbered by arrival. `callStack` holds those whose handler is in its
synchronous part, before its promise is added to `inFlight`. -/
structure Bus (τ : Type*) where
  now : ℤ
  deliveries : List Delivery
  callStack : List ℕ
  inFlight : List ℕ
  draining : Bool
  aborted : Bool
  stop : StopPhase
  calledAt : ℤ
  transport : τ
  deriving DecidableEq, Repr

inductive Action (κ : Type*) where
  | deliver (event : RawEvent)
  | bus (d : ℕ) (a : DeliveryAction)
  | track
  | untrack (d : ℕ)
  | stop
  | unsubscribed
  | wake
  | settled
  | disconnected (ok : Bool)
  | transport (k : κ)
  | tick (ms : ℕ)
  deriving DecidableEq, Repr

/-- An adapter call for a delivery, with whether its connection was open; the forced abort;
and the call of `adapter.disconnect()`. -/
inductive Output where
  | call (d : ℕ) (c : AdapterCall) (isOpen : Bool)
  | abort
  | disconnect
  deriving DecidableEq, Repr

namespace Bus
variable {τ κ : Type*} {Handler : Type*}

def started (transport : τ) : Bus τ :=
  ⟨0, [], [], [], false, false, .idle, 0, transport⟩

/-- How the callback of a delivery has settled, which is after its `inFlight.delete`. -/
def callback (s : Bus τ) (d : ℕ) : Option Bool :=
  match s.deliveries[d]? with
  | none => none
  | some delivery => if d ∈ s.inFlight then none else delivery.outcome

def isSettled (s : Bus τ) (d : ℕ) : Bool :=
  (s.deliveries[d]?).all fun delivery => !delivery.pending

/-- Step 3 of `stop()`: abort what is still in flight and let it settle, or disconnect. -/
def afterDrain (s : Bus τ) : Bus τ × List Output :=
  if s.inFlight = [] then ({ s with stop := .disconnecting }, [.disconnect])
  else ({ s with aborted := true, stop := .settling s.inFlight }, [.abort])

/-- `setTimeout` with a delay above the 32-bit limit fires after one millisecond. -/
def timerDelay (remaining : ℤ) : ℤ := if remaining > 2147483647 then 1 else remaining

/-- The loop head of step 2: `while (inFlight.size > 0)`. -/
def drainLoop (s : Bus τ) (deadline : ℤ) : Bus τ × List Output :=
  if s.inFlight = [] ∨ deadline - s.now ≤ 0 then s.afterDrain
  else ({ s with
    stop := .racing deadline (s.now + timerDelay (deadline - s.now)) s.inFlight }, [])

def calls (T : Transport τ κ) (s : Bus τ) (d : ℕ) (cs : List AdapterCall) : List Output :=
  cs.map fun c => .call d c (T.isOpen s.transport)

/-- The head of the delivery callback, on the bus's current gate. -/
def arrival (o : BusOptions Handler) (s : Bus τ) (event : RawEvent) :
    Delivery × List AdapterCall :=
  Delivery.receive o.topicHandlerMap s.draining o.signals event

/-- A new delivery: a handler that was entered is in its synchronous part. -/
def receive (o : BusOptions Handler) (s : Bus τ) (event : RawEvent) (transport : τ) : Bus τ :=
  { s with
    deliveries := s.deliveries ++ [(s.arrival o event).1]
    callStack := if (s.arrival o event).1.handling then s.deliveries.length :: s.callStack
      else s.callStack
    transport }

/-- The synchronous part of `stop()`, up to its first await. -/
def beginStop (T : Transport τ κ) (s : Bus τ) : Bus τ :=
  { s with
    draining := true
    stop := .unsubscribing
    calledAt := s.now
    transport := T.unsubscribe s.transport }

/-- One synchronous stretch. While a handler is in its synchronous part, only what it can
itself do is possible: calls on contexts, nested deliveries and `stop()`. -/
def step (T : Transport τ κ) (o : BusOptions Handler) (s : Bus τ) :
    Action κ → Option (Bus τ × List Output)
  | .deliver event =>
    match T.accept s.transport s.deliveries.length event with
    | none => none
    | some transport =>
      some (s.receive o event transport, s.calls T s.deliveries.length (s.arrival o event).2)
  | .bus d a =>
    match s.deliveries[d]? with
    | none => none
    | some delivery =>
      if a.callback = none ∧ s.callStack ≠ [] then none
      else match delivery.step a with
        | none => none
        | some r =>
          some ({ s with deliveries := s.deliveries.set d r.1 }, s.calls T d r.2)
  | .track =>
    match s.callStack with
    | [] => none
    | d :: rest => some ({ s with callStack := rest, inFlight := s.inFlight ++ [d] }, [])
  | .untrack d =>
    if s.callStack = [] ∧ d ∈ s.inFlight ∧ s.isSettled d then
      some ({ s with inFlight := s.inFlight.filter (· ≠ d) }, [])
    else none
  | .stop => if s.stop = .idle then some (s.beginStop T, []) else none
  | .unsubscribed =>
    if s.callStack = [] ∧ s.stop = .unsubscribing ∧ T.unsubscribed s.transport then
      if s.inFlight ≠ [] ∧ o.drainTimeout > 0 then some (s.drainLoop (s.now + o.drainTimeout))
      else some s.afterDrain
    else none
  | .wake =>
    match s.stop with
    | .racing deadline timer waiting =>
      if s.callStack = [] ∧ (waiting.all s.isSettled ∨ timer ≤ s.now) then
        some (s.drainLoop deadline)
      else none
    | _ => none
  | .settled =>
    match s.stop with
    | .settling waiting =>
      if s.callStack = [] ∧ waiting.all s.isSettled then
        some ({ s with inFlight := [], stop := .disconnecting }, [.disconnect])
      else none
    | _ => none
  | .disconnected _ =>
    if s.callStack = [] ∧ s.stop = .disconnecting then
      some ({ s with draining := false, aborted := false, stop := .stopped }, [])
    else none
  | .transport k =>
    if s.callStack ≠ [] then none
    else match T.internal s.callback s.transport k with
      | none => none
      | some transport => some ({ s with transport }, [])
  | .tick ms => if s.callStack = [] then some ({ s with now := s.now + ms }, []) else none

/-- The ways in which the drain goes on: another race, the forced abort, the disconnect. -/
inductive Drained (s : Bus τ) : Bus τ → List Output → Prop where
  | races {deadline timer} : Drained s { s with stop := .racing deadline timer s.inFlight } []
  | aborts : Drained s { s with aborted := true, stop := .settling s.inFlight } [.abort]
  | disconnects (h : s.inFlight = []) :
      Drained s { s with stop := .disconnecting } [.disconnect]

/-- What a step of the bus can do. -/
inductive Step (T : Transport τ κ) (o : BusOptions Handler) (s : Bus τ) :
    Action κ → Bus τ → List Output → Prop where
  | deliver {event transport}
      (ha : T.accept s.transport s.deliveries.length event = some transport) :
      Step T o s (.deliver event) (s.receive o event transport)
        (s.calls T s.deliveries.length (s.arrival o event).2)
  | bus {d a x x' cs} (hd : s.deliveries[d]? = some x) (hx : Delivery.Step x a x' cs)
      (hc : a.callback = none → s.callStack = []) :
      Step T o s (.bus d a) { s with deliveries := s.deliveries.set d x' } (s.calls T d cs)
  | track {d rest} (hs : s.callStack = d :: rest) :
      Step T o s .track { s with callStack := rest, inFlight := s.inFlight ++ [d] } []
  | untrack {d} (hc : s.callStack = []) (hd : s.isSettled d = true) :
      Step T o s (.untrack d) { s with inFlight := s.inFlight.filter (· ≠ d) } []
  | stop (h : s.stop = .idle) : Step T o s .stop (s.beginStop T) []
  | drains {a s' out} (hc : s.callStack = []) (hs : s.stop.active = true)
      (h : Drained s s' out) : Step T o s a s' out
  | settled {waiting} (hc : s.callStack = []) (hs : s.stop = .settling waiting)
      (hw : waiting.all s.isSettled = true) :
      Step T o s .settled { s with inFlight := [], stop := .disconnecting } [.disconnect]
  | disconnected {ok} (hc : s.callStack = []) (hs : s.stop = .disconnecting) :
      Step T o s (.disconnected ok)
        { s with draining := false, aborted := false, stop := .stopped } []
  | transport {k transport} (hc : s.callStack = [])
      (hk : T.internal s.callback s.transport k = some transport) :
      Step T o s (.transport k) { s with transport } []
  | tick {ms} (hc : s.callStack = []) : Step T o s (.tick ms) { s with now := s.now + ms } []

theorem afterDrain_drained (s : Bus τ) : Drained s s.afterDrain.1 s.afterDrain.2 := by
  unfold afterDrain
  split
  next h => exact .disconnects h
  next => exact .aborts

theorem drainLoop_drained (s : Bus τ) (deadline : ℤ) :
    Drained s (s.drainLoop deadline).1 (s.drainLoop deadline).2 := by
  unfold drainLoop
  split
  next => exact s.afterDrain_drained
  next => exact .races

variable {T : Transport τ κ} {o : BusOptions Handler}

theorem step_cases {s s' : Bus τ} {a : Action κ} {out : List Output}
    (h : s.step T o a = some (s', out)) : Step T o s a s' out := by
  cases a with
  | deliver event =>
    simp only [step] at h
    split at h
    next => simp at h
    next transport ha =>
      obtain ⟨rfl, rfl⟩ := Prod.mk.inj (Option.some.inj h)
      exact .deliver ha
  | bus d a =>
    simp only [step] at h
    split at h
    next => simp at h
    next x hd =>
      split at h
      next => simp at h
      next hc =>
        split at h
        next => simp at h
        next r hr =>
          obtain ⟨rfl, rfl⟩ := Prod.mk.inj (Option.some.inj h)
          exact .bus hd (Delivery.step_cases hr)
            (fun ha => by_contra fun hs => hc ⟨ha, hs⟩)
  | track =>
    simp only [step] at h
    split at h
    next => simp at h
    next d rest hs =>
      obtain ⟨rfl, rfl⟩ := Prod.mk.inj (Option.some.inj h)
      exact .track hs
  | untrack d =>
    simp only [step] at h
    split at h
    next hd =>
      obtain ⟨rfl, rfl⟩ := Prod.mk.inj (Option.some.inj h)
      exact .untrack hd.1 hd.2.2
    next => simp at h
  | stop =>
    simp only [step] at h
    split at h
    next hs =>
      obtain ⟨rfl, rfl⟩ := Prod.mk.inj (Option.some.inj h)
      exact .stop hs
    next => simp at h
  | unsubscribed =>
    simp only [step] at h
    split at h
    next hs =>
      have hactive : s.stop.active = true := by rw [hs.2.1]; rfl
      split at h
      next =>
        have hd := s.drainLoop_drained (s.now + o.drainTimeout)
        rw [Option.some.inj h] at hd
        exact .drains hs.1 hactive hd
      next =>
        have hd := s.afterDrain_drained
        rw [Option.some.inj h] at hd
        exact .drains hs.1 hactive hd
    next => simp at h
  | wake =>
    simp only [step] at h
    split at h
    next deadline timer waiting hstop =>
      have hactive : s.stop.active = true := by rw [hstop]; rfl
      split at h
      next hs =>
        have hd := s.drainLoop_drained deadline
        rw [Option.some.inj h] at hd
        exact .drains hs.1 hactive hd
      next => simp at h
    next => simp at h
  | settled =>
    simp only [step] at h
    split at h
    next waiting hstop =>
      split at h
      next hs =>
        obtain ⟨rfl, rfl⟩ := Prod.mk.inj (Option.some.inj h)
        exact .settled hs.1 hstop hs.2
      next => simp at h
    next => simp at h
  | disconnected ok =>
    simp only [step] at h
    split at h
    next hs =>
      obtain ⟨rfl, rfl⟩ := Prod.mk.inj (Option.some.inj h)
      exact .disconnected hs.1 hs.2
    next => simp at h
  | transport k =>
    simp only [step] at h
    split at h
    next => simp at h
    next hc =>
      split at h
      next => simp at h
      next transport hk =>
        obtain ⟨rfl, rfl⟩ := Prod.mk.inj (Option.some.inj h)
        exact .transport (not_not.mp hc) hk
  | tick ms =>
    simp only [step] at h
    split at h
    next hc =>
      obtain ⟨rfl, rfl⟩ := Prod.mk.inj (Option.some.inj h)
      exact .tick hc
    next => simp at h

/-- What a step does to one delivery: nothing, or a step of the delivery with its adapter
calls. -/
theorem Step.delivery {s t : Bus τ} {a : Action κ} {out : List Output} {d : ℕ} {x : Delivery}
    (h : Step T o s a t out) (hd : s.deliveries[d]? = some x) :
    (t.deliveries[d]? = some x ∧ ∀ c isOpen, .call d c isOpen ∉ out) ∨
    ∃ b y cs, a = .bus d b ∧ Delivery.Step x b y cs ∧ t.deliveries[d]? = some y ∧
      out = s.calls T d cs ∧ (b.callback = none → s.callStack = []) := by
  have hlt : d < s.deliveries.length := (List.getElem?_eq_some_iff.mp hd).1
  cases h with
  | @deliver event transport ha =>
    refine .inl ⟨?_, ?_⟩
    · rw [receive, List.getElem?_append_left hlt, hd]
    · simp [calls, Nat.ne_of_gt hlt]
  | @bus e b x' y cs he hx hc =>
    by_cases hde : e = d
    · subst hde
      obtain rfl : x = x' := Option.some.inj (hd.symm.trans he)
      exact .inr ⟨b, y, cs, rfl, hx, by simp [hlt], rfl, hc⟩
    · refine .inl ⟨by rw [List.getElem?_set_ne hde, hd], ?_⟩
      simp [calls, hde]
  | drains hc hs hdrained => cases hdrained <;> exact .inl ⟨hd, by simp⟩
  | _ => exact .inl ⟨hd, by simp⟩

/-- Where a delivery after a step comes from. -/
theorem Step.origin {s t : Bus τ} {a : Action κ} {out : List Output} {d : ℕ} {y : Delivery}
    (h : Step T o s a t out) (hd : t.deliveries[d]? = some y) :
    (∃ x, s.deliveries[d]? = some x) ∨
    ∃ event transport, a = .deliver event ∧ d = s.deliveries.length ∧
      y = (s.arrival o event).1 ∧ t = s.receive o event transport ∧
      out = s.calls T d (s.arrival o event).2 := by
  have hlt : d < t.deliveries.length := (List.getElem?_eq_some_iff.mp hd).1
  by_cases hs : d < s.deliveries.length
  · exact .inl ⟨_, List.getElem?_eq_getElem hs⟩
  · cases h with
    | @deliver event transport ha =>
      have hlen : d = s.deliveries.length := by
        simp only [receive, List.length_append, List.length_singleton] at hlt
        omega
      subst hlen
      have hy : (s.arrival o event).1 = y := by simpa [receive] using hd
      exact .inr ⟨event, transport, rfl, rfl, hy.symm, rfl, rfl⟩
    | bus => simp at hlt; omega
    | drains hc hs' hdrained => cases hdrained <;> exact absurd hlt hs
    | _ => exact absurd hlt hs

end Bus
end Drain
end Connectum.Events
