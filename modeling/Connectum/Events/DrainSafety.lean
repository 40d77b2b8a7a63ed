import Connectum.Events.Drain

/-! The draining gate and the in-flight set: nothing that runs is untracked, nothing enters
once `stop()` has begun, and nothing runs when the adapter is disconnected. -/
namespace Connectum.Events.Drain
namespace Bus

variable {τ κ : Type*} {Handler : Type*} {T : Transport τ κ} {o : BusOptions Handler}

theorem isSettled_eq_false {s : Bus τ} {d : ℕ} :
    s.isSettled d = false ↔ ∃ x, s.deliveries[d]? = some x ∧ x.pending = true := by
  cases h : s.deliveries[d]? <;> simp [isSettled, h]

theorem arrival_draining {s : Bus τ} (o : BusOptions Handler) (event : RawEvent)
    (h : s.draining = true) : s.arrival o event = (.dismissing,
      [if (lookupHandler o.topicHandlerMap event.eventType).isSome then .nack true
        else .ack]) := by
  rw [arrival, h, Delivery.receive_draining]

/-- An arriving event is pending only if the gate is open and its handler has been entered. -/
theorem arrival_pending {s : Bus τ} {event : RawEvent}
    (h : (s.arrival o event).1.pending = true) :
    s.draining = false ∧ (s.arrival o event).1.handling = true := by
  constructor
  · by_contra hg
    rw [arrival_draining o event (by simpa using hg)] at h
    simp [Delivery.pending] at h
  · rcases Delivery.receive_cases o.topicHandlerMap s.draining o.signals event with hr | hr
    · simp [arrival, hr, Delivery.pending] at h
    · simp [arrival, hr, Delivery.handling]

/-- A delivery that is pending after a step was so before, or it has just been handed over
through an open gate. -/
theorem Step.unsettled {s t : Bus τ} {a : Action κ} {out : List Output} {d : ℕ}
    (h : Step T o s a t out) (hd : t.isSettled d = false) :
    s.isSettled d = false ∨ (s.draining = false ∧ d ∈ t.callStack) := by
  obtain ⟨y, hy, hp⟩ := isSettled_eq_false.mp hd
  rcases h.origin hy with ⟨x, hx⟩ | ⟨event, transport, -, rfl, rfl, rfl, -⟩
  · left
    rcases h.delivery hx with ⟨ht, -⟩ | ⟨b, y', cs, -, hstep, ht, -⟩
    · obtain rfl : x = y := Option.some.inj (ht.symm.trans hy)
      exact isSettled_eq_false.mpr ⟨x, hx, hp⟩
    · obtain rfl : y' = y := Option.some.inj (ht.symm.trans hy)
      exact isSettled_eq_false.mpr ⟨x, hx, hstep.of_pending hp⟩
  · right
    obtain ⟨hgate, hhandling⟩ := arrival_pending hp
    exact ⟨hgate, by simp [receive, hhandling]⟩

/-- A handler keeps running until it returns or throws. -/
theorem Step.handling {s t : Bus τ} {a : Action κ} {out : List Output} {d : ℕ} {x : Delivery}
    (h : Step T o s a t out) (hd : s.deliveries[d]? = some x) (hx : x.handling = true)
    (hreturns : a ≠ .bus d .handlerReturns) (hthrows : a ≠ .bus d .handlerThrows) :
    ∃ y, t.deliveries[d]? = some y ∧ y.handling = true := by
  rcases h.delivery hd with ⟨ht, -⟩ | ⟨b, y, cs, rfl, hstep, ht, -⟩
  · exact ⟨x, ht, hx⟩
  · exact ⟨y, ht, hstep.handling hx (fun hb => hreturns (hb ▸ rfl)) (fun hb => hthrows (hb ▸ rfl))⟩

/-- Invariant of a bus with one `stop()`. -/
structure Safe (s : Bus τ) : Prop where
  gate : s.draining = s.stop.active
  stacked : ∀ d ∈ s.callStack, ∃ x, s.deliveries[d]? = some x ∧ x.handling = true
  tracked : ∀ d, s.isSettled d = false → d ∈ s.inFlight ∨ d ∈ s.callStack
  entered : s.stop.active = true → s.stop ≠ .unsubscribing → s.callStack = []
  settling : ∀ waiting, s.stop = .settling waiting → ∀ d, s.isSettled d = false → d ∈ waiting
  disconnecting : s.stop = .disconnecting → ∀ d, s.isSettled d = true

theorem safe_started (transport : τ) : Safe (started transport) where
  gate := rfl
  stacked := by simp [started]
  tracked := by simp [started, isSettled]
  entered := by simp [started, StopPhase.active]
  settling := by simp [started]
  disconnecting := by simp [started]

/-- While a handler is in its synchronous part, no handler ends. -/
theorem Step.handling_of_stacked {s t : Bus τ} {a : Action κ} {out : List Output} {d e : ℕ}
    {x : Delivery} (h : Step T o s a t out) (he : e ∈ s.callStack)
    (hd : s.deliveries[d]? = some x) (hx : x.handling = true) :
    ∃ y, t.deliveries[d]? = some y ∧ y.handling = true := by
  have hne : s.callStack ≠ [] := List.ne_nil_of_mem he
  apply h.handling hd hx
  all_goals
    rintro rfl
    cases h with
    | bus _ _ hc => exact hne (hc rfl)
    | drains hc => exact hne hc

theorem Safe.stacked_step {s t : Bus τ} {a : Action κ} {out : List Output} (hs : Safe s)
    (h : Step T o s a t out) :
    ∀ d ∈ t.callStack, ∃ x, t.deliveries[d]? = some x ∧ x.handling = true := by
  intro d hd
  have hkeep (he : d ∈ s.callStack) : ∃ x, t.deliveries[d]? = some x ∧ x.handling = true := by
    obtain ⟨x, hx, hh⟩ := hs.stacked d he
    exact h.handling_of_stacked he hx hh
  cases h with
  | @deliver event transport ha =>
    by_cases hh : (s.arrival o event).1.handling = true
    · rcases (by simpa [receive, hh] using hd : d = s.deliveries.length ∨ d ∈ s.callStack) with
        rfl | he
      · exact ⟨_, by simp [receive], hh⟩
      · exact hkeep he
    · exact hkeep (by simpa [receive, hh] using hd)
  | track hc => exact hkeep (by rw [hc]; exact List.mem_cons_of_mem _ hd)
  | drains hc hp hdrained => cases hdrained <;> exact hkeep hd
  | _ => exact hkeep hd

theorem Safe.tracked_step {s t : Bus τ} {a : Action κ} {out : List Output} (hs : Safe s)
    (h : Step T o s a t out) : ∀ d, t.isSettled d = false → d ∈ t.inFlight ∨ d ∈ t.callStack := by
  intro d hd
  rcases h.unsettled hd with hpending | ⟨-, hstacked⟩
  · have hin := hs.tracked d hpending
    cases h with
    | deliver =>
      refine hin.imp_right fun he => ?_
      simp only [receive]
      split
      · exact List.mem_cons_of_mem _ he
      · exact he
    | @track e rest hc =>
      rw [hc, List.mem_cons] at hin
      rcases hin with hf | rfl | hr
      · exact .inl (List.mem_append_left _ hf)
      · exact .inl (List.mem_append_right _ (List.mem_singleton_self _))
      · exact .inr hr
    | @untrack e hc he =>
      have hne : d ≠ e := by
        rintro rfl
        simp [he] at hpending
      exact hin.imp_left fun hf => List.mem_filter.mpr ⟨hf, by simpa using hne⟩
    | @settled waiting hc hp hw =>
      have hall := List.all_eq_true.mp hw d (hs.settling waiting hp d hpending)
      simp [hall] at hpending
    | drains hc hp hdrained => cases hdrained <;> exact hin
    | _ => exact hin
  · exact .inr hstacked

/-- The gate is closed in every phase of `stop()`, so nothing becomes pending there. -/
theorem Safe.unsettled_of_active {s t : Bus τ} {a : Action κ} {out : List Output} (hs : Safe s)
    (h : Step T o s a t out) (hactive : s.stop.active = true) {d : ℕ}
    (hd : t.isSettled d = false) : s.isSettled d = false := by
  rcases h.unsettled hd with hpending | ⟨hgate, -⟩
  · exact hpending
  · rw [hs.gate, hactive] at hgate
    cases hgate

theorem Safe.entered_step {s t : Bus τ} {a : Action κ} {out : List Output} (hs : Safe s)
    (h : Step T o s a t out) (hactive : t.stop.active = true) (hstop : t.stop ≠ .unsubscribing) :
    t.callStack = [] := by
  cases h with
  | @deliver event transport ha =>
    have hgate : s.draining = true := hs.gate.trans hactive
    have hc := hs.entered hactive hstop
    simpa [receive, arrival_draining o event hgate, Delivery.handling] using hc
  | track hc => exact absurd (hs.entered hactive hstop) (by simp [hc])
  | stop => exact absurd rfl hstop
  | drains hc hp hdrained => cases hdrained <;> exact hc
  | bus => exact hs.entered hactive hstop
  | settled hc | disconnected hc | untrack hc | transport hc | tick hc => exact hc

/-- What is pending when the drain goes on is in the in-flight set. -/
theorem Safe.pending_mem {s : Bus τ} (hs : Safe s) (hc : s.callStack = []) {d : ℕ}
    (hd : s.isSettled d = false) : d ∈ s.inFlight :=
  (hs.tracked d hd).resolve_right (by simp [hc])

theorem Safe.settling_step {s t : Bus τ} {a : Action κ} {out : List Output} (hs : Safe s)
    (h : Step T o s a t out) {waiting : List ℕ} (hstop : t.stop = .settling waiting) :
    ∀ d, t.isSettled d = false → d ∈ waiting := by
  intro d hd
  have hkeep (hp : s.stop = .settling waiting) : d ∈ waiting :=
    hs.settling waiting hp d (hs.unsettled_of_active h (by rw [hp]; rfl) hd)
  cases h with
  | drains hc hp hdrained =>
    cases hdrained with
    | aborts =>
      obtain rfl := StopPhase.settling.inj hstop
      exact hs.pending_mem hc hd
    | _ => simp at hstop
  | stop | settled | disconnected => simp [beginStop] at hstop
  | _ => exact hkeep hstop

theorem Safe.disconnecting_step {s t : Bus τ} {a : Action κ} {out : List Output} (hs : Safe s)
    (h : Step T o s a t out) (hstop : t.stop = .disconnecting) : ∀ d, t.isSettled d = true := by
  intro d
  by_contra hne
  have hd : t.isSettled d = false := by simpa using hne
  have hkeep (hp : s.stop = .disconnecting) : False := by
    have hpending := hs.unsettled_of_active h (by rw [hp]; rfl) hd
    simp [hs.disconnecting hp d] at hpending
  cases h with
  | drains hc hp hdrained =>
    cases hdrained with
    | disconnects hin =>
      have hmem := hs.pending_mem hc hd
      simp [hin] at hmem
    | _ => simp at hstop
  | @settled waiting hc hp hw =>
    have hpending : s.isSettled d = false := hd
    have hall := List.all_eq_true.mp hw d (hs.settling waiting hp d hpending)
    simp [hall] at hpending
  | stop | disconnected => simp [beginStop] at hstop
  | _ => exact hkeep hstop

theorem Safe.gate_step {s t : Bus τ} {a : Action κ} {out : List Output} (hs : Safe s)
    (h : Step T o s a t out) : t.draining = t.stop.active := by
  cases h with
  | stop | disconnected => rfl
  | drains hc hp hdrained => cases hdrained <;> exact hs.gate.trans hp
  | settled hc hp => exact hs.gate.trans (by rw [hp]; rfl)
  | _ => exact hs.gate

theorem Safe.step {s t : Bus τ} {a : Action κ} {out : List Output} (hs : Safe s)
    (h : Step T o s a t out) : Safe t where
  gate := hs.gate_step h
  stacked := hs.stacked_step h
  tracked := hs.tracked_step h
  entered := hs.entered_step h
  settling := fun _ => hs.settling_step h
  disconnecting := hs.disconnecting_step h

/-- A step that disconnects the adapter enters the phase in which nothing is pending. -/
theorem Step.disconnecting {s t : Bus τ} {a : Action κ} {out : List Output}
    (h : Step T o s a t out) (hout : .disconnect ∈ out) :
    t.stop = .disconnecting ∧ t.deliveries = s.deliveries := by
  cases h with
  | deliver | bus => simp [calls] at hout
  | drains hc hp hdrained =>
    cases hdrained with
    | disconnects => exact ⟨rfl, rfl⟩
    | _ => simp at hout
  | settled => exact ⟨rfl, rfl⟩
  | _ => simp at hout

theorem safe_of_run {transport : τ} {s : Bus τ} {as : List (Action κ)} {log : List Output}
    (hrun : Machine.run (Bus.step T o) (started transport) as = some (s, log)) : Safe s :=
  Machine.run_preserves (fun _ _ _ _ hs h => hs.step (step_cases h)) (safe_started transport) hrun

/-- A dismissed event stays dismissed and its adapter callbacks are not invoked again. -/
theorem unhanded_of_run {s u : Bus τ} {as : List (Action κ)} {log : List Output} {d : ℕ}
    {x : Delivery} (hd : s.deliveries[d]? = some x) (hx : x.entered = false)
    (hrun : Machine.run (Bus.step T o) s as = some (u, log)) :
    (∃ y, u.deliveries[d]? = some y ∧ y.entered = false) ∧ ∀ c isOpen, .call d c isOpen ∉ log := by
  refine Machine.run_invariant (l := [])
    (I := fun s log => (∃ y, s.deliveries[d]? = some y ∧ y.entered = false) ∧
      ∀ c isOpen, Output.call d c isOpen ∉ log) ?_ ⟨⟨x, hd, hx⟩, by simp⟩ hrun
  rintro s log a t out ⟨⟨y, hy, hentered⟩, hlog⟩ h
  rcases (step_cases h).delivery hy with ⟨ht, hout⟩ | ⟨b, z, cs, -, hstep, ht, rfl, -⟩
  · exact ⟨⟨y, ht, hentered⟩, fun c isOpen => by simp [hlog, hout]⟩
  · obtain ⟨hz, rfl⟩ := hstep.unhanded hentered
    exact ⟨⟨z, ht, hz⟩, fun c isOpen => by simpa [calls] using hlog c isOpen⟩

/-- Drain safety, over every adapter and every interleaving: the adapter is disconnected only
when no handler is running, and an event that arrives in between is never handed over. -/
theorem drain_safe {transport : τ} {s : Bus τ} {as : List (Action κ)} {log : List Output}
    (hrun : Machine.run (Bus.step T o) (started transport) as = some (s, log)) :
    (∀ a t out, s.step T o a = some (t, out) → .disconnect ∈ out →
      ∀ x ∈ s.deliveries, x.pending = false) ∧
    (s.stop.active = true → ∀ event t out, s.step T o (.deliver event) = some (t, out) →
      out = [.call s.deliveries.length
        (if (lookupHandler o.topicHandlerMap event.eventType).isSome then .nack true else .ack)
        (T.isOpen s.transport)] ∧
      ∀ bs u rest, Machine.run (Bus.step T o) t bs = some (u, rest) →
        (∃ x, u.deliveries[s.deliveries.length]? = some x ∧ x.entered = false) ∧
        ∀ c isOpen, .call s.deliveries.length c isOpen ∉ rest) := by
  have hs := safe_of_run hrun
  constructor
  · intro a t out h hout x hx
    obtain ⟨hstop, hdeliveries⟩ := (step_cases h).disconnecting hout
    obtain ⟨d, hd⟩ := List.mem_iff_getElem?.mp hx
    have hsettled := hs.disconnecting_step (step_cases h) hstop d
    rw [isSettled, hdeliveries, hd] at hsettled
    simpa using hsettled
  · intro hactive event t out h
    have hgate : s.draining = true := hs.gate.trans hactive
    simp only [Bus.step] at h
    split at h
    next => simp at h
    next transport' ha =>
      obtain ⟨rfl, rfl⟩ := Prod.mk.inj (Option.some.inj h)
      refine ⟨by rw [arrival_draining o event hgate]; rfl, fun bs u rest hbs => ?_⟩
      refine unhanded_of_run (x := .dismissing) ?_ rfl hbs
      simp [receive, arrival_draining o event hgate]

end Bus

/-- The handler has returned within the drain, and `stop()` has not yet noticed. -/
def drainedBus : Bus Unit :=
  ⟨0, [.handed (createEventContext Delivery.userCreated userOptions.signals) false .resolved],
    [], [], true, false, .racing 30000 30000 [0], 0, ()⟩

theorem drain_safe_userCreated :
    (∀ x ∈ drainedBus.deliveries, x.pending = false) ∧
      [Output.call 1 (.nack true) true] = [.call 1
        (if (lookupHandler userOptions.topicHandlerMap "user.created").isSome then .nack true
          else .ack) true] := by
  have hrun : Machine.run (Bus.step memory userOptions) (Bus.started ())
      [.deliver Delivery.userCreated, .track, .stop, .unsubscribed, .bus 0 .handlerReturns,
        .bus 0 (.brokerAnswers true), .untrack 0] =
        some (drainedBus, [.call 0 .ack true]) := by decide
  have h := Bus.drain_safe hrun
  refine ⟨h.1 .wake { drainedBus with stop := .disconnecting } [.disconnect] (by decide)
    (by decide), (h.2 rfl Delivery.userCreated
      { drainedBus with deliveries := drainedBus.deliveries ++ [.dismissing] } _ ?_).1⟩
  decide

end Connectum.Events.Drain
