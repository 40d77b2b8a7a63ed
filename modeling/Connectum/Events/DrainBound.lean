import Connectum.Events.DrainSafety
import Connectum.Events.Redis.Reader

/-! How long `stop()` can wait: the states from which only a handler can bring it to the
disconnect of the adapter. -/
namespace Connectum.Events.Drain

/-- The end of a composed handler: of the user's handler and middleware. -/
def Action.byHandler {κ : Type*} : Action κ → Bool
  | .bus _ .handlerReturns | .bus _ .handlerThrows => true
  | _ => false

namespace Bus

variable {τ κ : Type*} {Handler : Type*} {T : Transport τ κ} {o : BusOptions Handler}

/-- No execution in which no handler ends disconnects the adapter. -/
def Blocked (T : Transport τ κ) (o : BusOptions Handler) (s : Bus τ) : Prop :=
  ∀ as t log, Machine.Meets (Bus.step T o) (fun _ a => a.byHandler = false) s as →
    Machine.run (Bus.step T o) s as = some (t, log) → .disconnect ∉ log

/-- The contract of `drainTimeout` for a state of `stop()`. -/
def Bounded (T : Transport τ κ) (o : BusOptions Handler) (s : Bus τ) : Prop :=
  s.calledAt + o.drainTimeout ≤ s.now → ¬ Blocked T o s

/-- A running handler blocks `stop()`: it stays pending, and nothing pending survives the
disconnect. -/
theorem blocked_of_handling {s : Bus τ} {d : ℕ} {x : Delivery} (hs : Safe s)
    (hd : s.deliveries[d]? = some x) (hx : x.handling = true) : Blocked T o s := by
  intro as t log hmeets hrun
  have h := Machine.run_invariant_of_meets (l := [])
    (I := fun s log => Safe s ∧ (∃ x, s.deliveries[d]? = some x ∧ x.handling = true) ∧
      Output.disconnect ∉ log) ?_ ⟨hs, ⟨x, hd, hx⟩, by simp⟩ hmeets hrun
  · exact h.2.2
  · rintro s log a t out ⟨hs, ⟨y, hy, hh⟩, hlog⟩ ha h
    have hstep := step_cases h
    have hnext := hstep.handling hy hh (by rintro rfl; cases ha) (by rintro rfl; cases ha)
    refine ⟨hs.step hstep, hnext, fun hmem => ?_⟩
    rcases List.mem_append.mp hmem with hl | hout
    · exact hlog hl
    · obtain ⟨z, hz, hhz⟩ := hnext
      have hsettled := hs.disconnecting_step hstep (hstep.disconnecting hout).1 d
      simp [isSettled, hz, Delivery.pending_of_handling hhz] at hsettled

/-- Executions in which no handler ends. -/
abbrev Unaided (T : Transport τ κ) (o : BusOptions Handler) : Bus τ → Bus τ → Prop :=
  Machine.Via (Bus.step T o) fun _ a => a.byHandler = false

theorem not_blocked_of_unaided {s t : Bus τ} (h : Unaided T o s t) (ht : ¬ Blocked T o t) :
    ¬ Blocked T o s := by
  obtain ⟨as, l, hmeets, hrun⟩ := h
  intro hs
  apply ht
  intro bs u log hm hr hmem
  refine hs (as ++ bs) u (l ++ log) ((Machine.meets_append hrun).mpr ⟨hmeets, hm⟩) ?_
    (List.mem_append_right l hmem)
  exact Machine.run_append.mpr ⟨t, l, log, hrun, hr, rfl⟩

theorem not_blocked_of_step {s t : Bus τ} {a : Action κ}
    (h : s.step T o a = some (t, [.disconnect])) (ha : a.byHandler = false) :
    ¬ Blocked T o s := fun hs =>
  hs [a] t [.disconnect] ((Machine.meets_cons_of_step h []).mpr ⟨ha, trivial⟩)
    (Machine.run_singleton.mpr h) (List.mem_singleton_self _)

/-- A bus that is stopping, with no handler running. -/
structure Quiet (s : Bus τ) : Prop where
  safe : Safe s
  active : s.stop.active = true
  still : ∀ x ∈ s.deliveries, x.handling = false

theorem Quiet.callStack {s : Bus τ} (h : Quiet s) : s.callStack = [] := by
  rw [List.eq_nil_iff_forall_not_mem]
  intro d hd
  obtain ⟨x, hx, hh⟩ := h.safe.stacked d hd
  simp [h.still x (List.mem_of_getElem? hx)] at hh

theorem Quiet.settled {s : Bus τ} (h : Quiet s) (hin : s.inFlight = []) (d : ℕ) :
    s.isSettled d = true := by
  by_contra hd
  have hmem := h.safe.pending_mem h.callStack (by simpa using hd)
  simp [hin] at hmem

theorem Quiet.step {s t : Bus τ} {a : Action κ} {out : List Output} (h : Quiet s)
    (hstep : Step T o s a t out) (hactive : t.stop.active = true) : Quiet t where
  safe := h.safe.step hstep
  active := hactive
  still := by
    intro y hmem
    obtain ⟨d, hy⟩ := List.mem_iff_getElem?.mp hmem
    rcases hstep.origin hy with ⟨x, hx⟩ | ⟨event, transport, -, rfl, rfl, rfl, -⟩
    · rcases hstep.delivery hx with ⟨ht, -⟩ | ⟨b, z, cs, -, hz, ht, -⟩
      · obtain rfl : x = y := Option.some.inj (ht.symm.trans hy)
        exact h.still x (List.mem_of_getElem? hx)
      · obtain rfl : z = y := Option.some.inj (ht.symm.trans hy)
        by_contra hh
        have hcontra := hz.of_handling (by simpa using hh)
        simp [h.still x (List.mem_of_getElem? hx)] at hcontra
    · rw [arrival_draining o event (h.safe.gate.trans h.active)]
      rfl

theorem step_untrack {s : Bus τ} {d : ℕ} (hc : s.callStack = []) (hd : d ∈ s.inFlight)
    (hs : s.isSettled d = true) : s.step T o (.untrack d) =
      some ({ s with inFlight := s.inFlight.filter (· ≠ d) }, []) := by
  simp [Bus.step, hc, hd, hs]

theorem step_bus {s : Bus τ} {d : ℕ} {a : DeliveryAction} {x : Delivery}
    {r : Delivery × List AdapterCall} (hc : s.callStack = []) (hd : s.deliveries[d]? = some x)
    (hx : x.step a = some r) : s.step T o (.bus d a) =
      some ({ s with deliveries := s.deliveries.set d r.1 }, s.calls T d r.2) := by
  simp [Bus.step, hc, hd, hx]

theorem step_transport {s : Bus τ} {k : κ} {transport : τ} (hc : s.callStack = [])
    (hk : T.internal s.callback s.transport k = some transport) :
    s.step T o (.transport k) = some ({ s with transport }, []) := by
  simp [Bus.step, hc, hk]

/-- What the settling of a bus's promises leaves alone. -/
structure Settles (s t : Bus τ) : Prop where
  quiet : Quiet t
  stop : t.stop = s.stop
  transport : t.transport = s.transport
  length : t.deliveries.length = s.deliveries.length

/-- Without a running handler, every tracked promise settles. -/
theorem Quiet.exists_untracked {s : Bus τ} (h : Quiet s) :
    ∃ t, Unaided T o s t ∧ Settles s t ∧ t.inFlight = [] := by
  refine Machine.exists_via_of_rank (fun t => t.inFlight.length) ?_ s ⟨h, rfl, rfl, rfl⟩
  intro t ht hne
  obtain ⟨d, hd⟩ := List.exists_mem_of_ne_nil _ hne
  have hc := ht.quiet.callStack
  have hlt : ∀ u : Bus τ, u.inFlight = t.inFlight →
      (u.inFlight.filter (· ≠ d)).length < t.inFlight.length := by
    rintro u hu
    rw [hu]
    exact List.length_filter_lt_length_iff_exists.mpr ⟨d, hd, by simp⟩
  cases hsettled : t.isSettled d with
  | true =>
    have hu := step_untrack (T := T) (o := o) hc hd hsettled
    exact ⟨_, .head hu rfl (.refl _),
      ⟨ht.quiet.step (step_cases hu) ht.quiet.active, ht.stop, ht.transport, ht.length⟩,
      hlt t rfl⟩
  | false =>
    obtain ⟨x, hx, hp⟩ := isSettled_eq_false.mp hsettled
    obtain ⟨ctx, settled, rfl⟩ : ∃ ctx settled, x = .handed ctx settled .autoAcking := by
      have hstill := ht.quiet.still x (List.mem_of_getElem? hx)
      unfold Delivery.pending at hp
      split at hp
      · simp [Delivery.handling] at hstill
      · exact ⟨_, _, rfl⟩
      · simp at hp
    have hb := step_bus (T := T) (o := o) (a := .brokerAnswers true)
      (r := (.handed ctx settled .resolved, [])) hc hx rfl
    have hq := ht.quiet.step (step_cases hb) ht.quiet.active
    have hlen : d < t.deliveries.length := (List.getElem?_eq_some_iff.mp hx).1
    have hu := step_untrack (T := T) (o := o) (d := d) hq.callStack hd
      (by simp [isSettled, hlen, Delivery.pending])
    exact ⟨_, .head hb rfl (.head hu rfl (.refl _)),
      ⟨hq.step (step_cases hu) ht.quiet.active, ht.stop, ht.transport, by simp [ht.length]⟩,
      hlt _ rfl⟩

/-- Once nothing is tracked and the adapter has unsubscribed, `stop()` disconnects. -/
theorem Quiet.not_blocked {s : Bus τ} (h : Quiet s) (hin : s.inFlight = [])
    (hd : s.stop ≠ .disconnecting)
    (hu : s.stop = .unsubscribing → T.unsubscribed s.transport = true) : ¬ Blocked T o s := by
  have hc := h.callStack
  have hactive := h.active
  cases hstop : s.stop with
  | idle | stopped => simp [hstop, StopPhase.active] at hactive
  | unsubscribing =>
    refine not_blocked_of_step (a := .unsubscribed) (t := { s with stop := .disconnecting })
      ?_ rfl
    simp [Bus.step, hc, hstop, hu hstop, hin, afterDrain]
  | racing deadline timer waiting =>
    have hw : waiting.all s.isSettled = true := by simp [h.settled hin]
    refine not_blocked_of_step (a := .wake) (t := { s with stop := .disconnecting })
      ?_ rfl
    simp [Bus.step, hc, hstop, hw, hin, drainLoop, afterDrain]
  | settling waiting =>
    have hw : waiting.all s.isSettled = true := by simp [h.settled hin]
    refine not_blocked_of_step (a := .settled)
      (t := { s with inFlight := [], stop := .disconnecting }) ?_ rfl
    simp [Bus.step, hc, hstop, hw]
  | disconnecting => exact absurd hstop hd

theorem step_deliver {s : Bus τ} {event : RawEvent} {transport : τ}
    (ha : T.accept s.transport s.deliveries.length event = some transport) :
    s.step T o (.deliver event) = some (s.receive o event transport,
      s.calls T s.deliveries.length (s.arrival o event).2) := by
  simp [Bus.step, ha]

/-- Without a running handler, the callback of every delivery settles. -/
theorem Quiet.exists_callback {s : Bus τ} (h : Quiet s) (hin : s.inFlight = []) {d : ℕ}
    (hd : d < s.deliveries.length) :
    ∃ t, Unaided T o s t ∧ Settles s t ∧ t.inFlight = [] ∧ ∃ ok, t.callback d = some ok := by
  obtain ⟨x, hx⟩ : ∃ x, s.deliveries[d]? = some x := ⟨_, List.getElem?_eq_getElem hd⟩
  have hstill := h.still x (List.mem_of_getElem? hx)
  have hsettled := h.settled hin d
  have hcallback : s.callback d = x.outcome := by simp [callback, hx, hin]
  have hdone {ok : Bool} (ho : x.outcome = some ok) :
      ∃ t, Unaided T o s t ∧ Settles s t ∧ t.inFlight = [] ∧ ∃ ok, t.callback d = some ok :=
    ⟨s, .refl s, ⟨h, rfl, rfl, rfl⟩, hin, ok, hcallback.trans ho⟩
  cases x with
  | dismissing =>
    have hb := step_bus (T := T) (o := o) (a := .brokerAnswers true)
      (r := (.dismissed true, [])) h.callStack hx rfl
    refine ⟨_, .head hb rfl (.refl _), ⟨h.step (step_cases hb) h.active, rfl, rfl, by simp⟩, hin,
      true, ?_⟩
    simp [callback, hin, hd, Delivery.outcome]
  | dismissed ok => exact hdone rfl
  | handed ctx settled phase =>
    cases phase with
    | handling => simp [Delivery.handling] at hstill
    | autoAcking => simp [isSettled, hx, Delivery.pending] at hsettled
    | resolved | rejected => exact hdone rfl

end Bus

/-! The consume loop of the Redis adapter, which `unsubscribe()` waits for, exits once the
callbacks that it awaits settle. -/
section Redis

open Redis

variable {Handler : Type*} {o : BusOptions Handler} {streamKeys : List String}
  {env : ℕ → Environment}

structure Attended (s : Bus Reader) : Prop where
  owned : ∀ d, s.transport.loop.awaited = some d → d < s.deliveries.length
  halted : s.stop ≠ .idle → s.transport.subscriptionRunning = false

theorem attended_started : Attended (Bus.started (Reader.started streamKeys)) where
  owned d hd := by
    have h := (Reader.internal_loopHead streamKeys ⟨true, true, 0, .reading⟩).awaited
    rw [show (Bus.started (Reader.started streamKeys)).transport.loop.awaited = none from h] at hd
    cases hd
  halted h := absurd rfl h

theorem Attended.step {s t : Bus Reader} {a : Action ReaderAction} {out : List Output}
    (hs : Attended s) (h : Bus.Step (transport streamKeys env) o s a t out) : Attended t := by
  cases h with
  | deliver ha =>
    obtain ⟨hawaited, hrunning, -⟩ := Reader.accept_of_some ha
    refine ⟨fun d hd => ?_, fun hstop => hrunning.trans (hs.halted hstop)⟩
    obtain rfl := Option.some.inj (hawaited.symm.trans hd)
    simp [Bus.receive]
  | transport hc hk =>
    have hr := Reader.internal_of_some hk
    exact ⟨fun d hd => by simp [hr.awaited] at hd, fun hstop => hr.running.trans (hs.halted hstop)⟩
  | bus => exact ⟨fun d hd => by simpa using hs.owned d hd, hs.halted⟩
  | stop => exact ⟨hs.owned, fun _ => rfl⟩
  | drains hc hactive hdrained =>
    have hstop : s.stop ≠ .idle := fun h => by simp [h, StopPhase.active] at hactive
    cases hdrained <;> exact ⟨hs.owned, fun _ => hs.halted hstop⟩
  | settled hc hp | disconnected hc hp =>
    exact ⟨hs.owned, fun _ => hs.halted (by simp [hp])⟩
  | _ => exact ⟨hs.owned, hs.halted⟩

/-- Waits of the loop before it exits, when the subscription no longer runs. -/
def rank : Loop → ℕ
  | .exited => 0
  | .reading | .sleeping => 1
  | .claimed _ _ _ => 2
  | .reclaiming _ keys => keys.length + 2
  | .counting _ keys | .reclaimed _ _ keys => keys.length + 3
  | .received _ entries => 2 * entries.length + 3
  | .processing _ entries => 2 * entries.length + 2

theorem rank_nextKey (keys : List String) : rank (Reader.nextKey keys) < keys.length + 2 := by
  cases keys <;> simp [Reader.nextKey, rank]

theorem rank_nextClaimed (keys : List String) (entries : List Attempt) :
    rank (Reader.nextClaimed keys entries) < keys.length + 3 := by
  cases entries with
  | nil => exact Nat.lt_succ_of_lt (rank_nextKey keys)
  | cons => simp only [Reader.nextClaimed, rank]; omega

theorem rank_nextReceived {r : Reader} (hr : r.subscriptionRunning = false)
    (entries : List Entry) :
    rank (r.nextReceived streamKeys entries).loop < 2 * entries.length + 2 := by
  cases entries with
  | nil => simp [Reader.nextReceived, Reader.loopHead, hr, rank]
  | cons => simp [Reader.nextReceived, rank]; omega

/-- `stop()` waits for the loop, no handler is running and nothing is tracked. -/
structure AwaitsLoop (s : Bus Reader) : Prop where
  quiet : Bus.Quiet s
  attended : Attended s
  inFlight : s.inFlight = []
  stop : s.stop = .unsubscribing

theorem AwaitsLoop.halted {s : Bus Reader} (h : AwaitsLoop s) :
    s.transport.subscriptionRunning = false := h.attended.halted (by simp [h.stop])

theorem AwaitsLoop.of_step {s t : Bus Reader} {a : Action ReaderAction} {out : List Output}
    (h : AwaitsLoop s) (hstep : Bus.Step (transport streamKeys env) o s a t out)
    (hin : t.inFlight = s.inFlight) (hstop : t.stop = s.stop) : AwaitsLoop t where
  quiet := h.quiet.step hstep (by rw [hstop]; exact h.quiet.active)
  attended := h.attended.step hstep
  inFlight := hin.trans h.inFlight
  stop := hstop.trans h.stop

/-- One step of the loop itself. -/
theorem AwaitsLoop.internal {s : Bus Reader} (h : AwaitsLoop s) (o : BusOptions Handler)
    (env : ℕ → Environment) {k : ReaderAction} {r : Reader}
    (hk : s.transport.internal streamKeys s.callback k = some r)
    (hrank : rank r.loop < rank s.transport.loop) :
    ∃ t, Bus.Unaided (transport streamKeys env) o s t ∧ AwaitsLoop t ∧
      rank t.transport.loop < rank s.transport.loop := by
  have hs : s.step (transport streamKeys env) o (.transport k) =
      some ({ s with transport := r }, []) :=
    Bus.step_transport h.quiet.callStack hk
  exact ⟨_, .head hs rfl (.refl _), h.of_step (Bus.step_cases hs) rfl rfl, hrank⟩

/-- The loop goes on once the callback that it awaits has settled. -/
theorem AwaitsLoop.processed {s : Bus Reader} (h : AwaitsLoop s) (o : BusOptions Handler)
    (env : ℕ → Environment) {d : ℕ} (hd : s.transport.loop.awaited = some d)
    (hk : ∀ u : Bus Reader, u.transport = s.transport → ∀ ok, u.callback d = some ok →
      ∃ r, u.transport.internal streamKeys u.callback .processed = some r ∧
        rank r.loop < rank s.transport.loop) :
    ∃ t, Bus.Unaided (transport streamKeys env) o s t ∧ AwaitsLoop t ∧
      rank t.transport.loop < rank s.transport.loop := by
  obtain ⟨u, hsu, hset, hin, ok, hok⟩ := h.quiet.exists_callback (T := transport streamKeys env)
    (o := o) h.inFlight (h.attended.owned d hd)
  have hu : AwaitsLoop u := by
    refine ⟨hset.quiet, ⟨fun e he => ?_, fun _ => ?_⟩, hin, hset.stop.trans h.stop⟩
    · rw [hset.transport] at he
      exact hset.length ▸ h.attended.owned e he
    · rw [hset.transport]
      exact h.halted
  obtain ⟨r, hr, hrank⟩ := hk u hset.transport ok hok
  obtain ⟨t, hut, ht, hlt⟩ := hu.internal o env hr (by rw [hset.transport]; exact hrank)
  exact ⟨t, hsu.trans hut, ht, by rwa [hset.transport] at hlt⟩

theorem AwaitsLoop.advance {s : Bus Reader} (h : AwaitsLoop s) (o : BusOptions Handler)
    (streamKeys : List String) (env : ℕ → Environment) (hexit : s.transport.loop ≠ .exited) :
    ∃ t, Bus.Unaided (transport streamKeys env) o s t ∧ AwaitsLoop t ∧
      rank t.transport.loop < rank s.transport.loop := by
  have hrun := h.halted
  cases hloop : s.transport.loop with
  | reclaiming key keys =>
    refine hloop ▸ h.internal o env (k := .autoClaimError)
      (r := { s.transport with loop := Reader.nextKey keys }) (by simp [Reader.internal, hloop]) ?_
    rw [hloop]
    exact rank_nextKey keys
  | counting entries keys =>
    refine hloop ▸ h.internal o env (k := .pendingReply [])
      (r := { s.transport with loop := Reader.nextClaimed keys (entries.map fun e => (e, 2)) })
      (by simp [Reader.internal, hloop]) ?_
    rw [hloop]
    exact rank_nextClaimed keys (entries.map fun e => (e, 2))
  | claimed next entries keys =>
    refine hloop ▸ h.internal o env (k := .stopReclaim) (r := { s.transport with loop := .reading })
      (by simp [Reader.internal, hloop, hrun]) ?_
    simp [hloop, rank]
  | reclaimed d entries keys =>
    refine hloop ▸ h.processed o env (d := d) (by simp [hloop, Loop.awaited]) ?_
    intro u hu ok hok
    cases ok with
    | true =>
      refine ⟨{ s.transport with loop := Reader.nextClaimed keys entries },
        by simp [Reader.internal, hu, hloop, hok], ?_⟩
      rw [hloop]
      exact rank_nextClaimed keys entries
    | false =>
      refine ⟨{ s.transport with loop := Reader.nextKey keys },
        by simp [Reader.internal, hu, hloop, hok], ?_⟩
      rw [hloop]
      exact Nat.lt_succ_of_lt (rank_nextKey keys)
  | reading =>
    refine hloop ▸ h.internal o env (k := .readError) (r := { s.transport with loop := .exited })
      (by simp [Reader.internal, hloop, hrun]) ?_
    simp [hloop, rank]
  | received next entries =>
    have ha : (transport streamKeys env).accept s.transport s.deliveries.length
        (rawEvent (env s.deliveries.length) next 1) =
        some { s.transport with loop := .processing s.deliveries.length entries } := by
      simp [transport, Reader.accept, hloop]
    have hs := Bus.step_deliver (o := o) ha
    refine ⟨_, .head hs rfl (.refl _), h.of_step (Bus.step_cases hs) rfl rfl, ?_⟩
    simp [Bus.receive, rank]
  | processing d entries =>
    refine hloop ▸ h.processed o env (d := d) (by simp [hloop, Loop.awaited]) ?_
    intro u hu ok hok
    refine ⟨s.transport.nextReceived streamKeys entries,
      by simp [Reader.internal, hu, hloop, hok], ?_⟩
    rw [hloop]
    exact rank_nextReceived hrun entries
  | sleeping =>
    refine hloop ▸ h.internal o env (k := .slept) (r := s.transport.loopHead streamKeys)
      (by simp [Reader.internal, hloop]) ?_
    simp [Reader.loopHead, hrun, hloop, rank]
  | exited => exact absurd hloop hexit

theorem attended_of_run {s : Bus Reader} {as : List (Action ReaderAction)} {log : List Output}
    (hrun : Machine.run (Bus.step (transport streamKeys env) o)
      (Bus.started (Reader.started streamKeys)) as = some (s, log)) : Attended s :=
  Machine.run_preserves (fun _ _ _ _ hs h => hs.step (Bus.step_cases h)) attended_started hrun

/-- Without a running handler, `stop()` gets through the loop and to the disconnect. -/
theorem not_blocked_of_quiet {s : Bus Reader} (hq : Bus.Quiet s) (hs : Attended s)
    (hd : s.stop ≠ .disconnecting) : ¬ Bus.Blocked (transport streamKeys env) o s := by
  obtain ⟨t, hst, ht, hin⟩ := hq.exists_untracked (T := transport streamKeys env) (o := o)
  refine Bus.not_blocked_of_unaided hst ?_
  by_cases hstop : t.stop = .unsubscribing
  · have hidle : s.stop ≠ .idle := by simp [← ht.stop, hstop]
    have hattended : Attended t :=
      ⟨fun d h => ht.length ▸ hs.owned d (ht.transport ▸ h),
        fun _ => ht.transport ▸ hs.halted hidle⟩
    obtain ⟨u, htu, hu, hexit⟩ := Machine.exists_via_of_rank (P := AwaitsLoop)
      (Q := fun u : Bus Reader => u.transport.loop = .exited) (fun u => rank u.transport.loop)
      (fun u hu hne => hu.advance o streamKeys env hne) t ⟨ht.quiet, hattended, hin, hstop⟩
    refine Bus.not_blocked_of_unaided htu ?_
    exact hu.quiet.not_blocked hu.inFlight (by simp [hu.stop]) fun _ => by simp [transport, hexit]
  · exact ht.quiet.not_blocked hin (ht.stop ▸ hd) fun h => absurd h hstop

end Redis

variable {τ κ : Type*} {Handler : Type*}

/-- When `drainTimeout` has elapsed, no composed handler is running. -/
def HandlersEnded (o : BusOptions Handler) (s : Bus τ) : Prop :=
  s.calledAt + o.drainTimeout ≤ s.now → ∀ x ∈ s.deliveries, x.handling = false

theorem bounded_iff_of_quiet {T : Transport τ κ} {o : BusOptions Handler} {s : Bus τ}
    (hs : Bus.Safe s) (hactive : s.stop.active = true)
    (hquiet : Bus.Quiet s → ¬ Bus.Blocked T o s) :
    Bus.Bounded T o s ↔ HandlersEnded o s := by
  constructor
  · intro h helapsed x hx
    by_contra hh
    obtain ⟨d, hd⟩ := List.mem_iff_getElem?.mp hx
    exact h helapsed (Bus.blocked_of_handling hs hd (by simpa using hh))
  · intro h helapsed
    exact hquiet ⟨hs, hactive, h helapsed⟩

/-- With the memory and the Redis adapter, `stop()` gets to the disconnect without a handler
after `drainTimeout` if and only if no handler is left: none of its other waits is bounded. -/
theorem bounded_iff_handlersEnded (o : BusOptions Handler) (streamKeys : List String)
    (env : ℕ → Redis.Environment) :
    (∀ as s log, Machine.run (Bus.step memory o) (Bus.started ()) as = some (s, log) →
      s.stop.active = true → s.stop ≠ .disconnecting →
      (Bus.Bounded memory o s ↔ HandlersEnded o s)) ∧
    (∀ as s log, Machine.run (Bus.step (Redis.transport streamKeys env) o)
        (Bus.started (Redis.Reader.started streamKeys)) as = some (s, log) →
      s.stop.active = true → s.stop ≠ .disconnecting →
      (Bus.Bounded (Redis.transport streamKeys env) o s ↔ HandlersEnded o s)) := by
  constructor
  · intro as s log hrun hactive hd
    refine bounded_iff_of_quiet (Bus.safe_of_run hrun) hactive fun hq => ?_
    obtain ⟨t, hst, ht, hin⟩ := hq.exists_untracked (T := memory) (o := o)
    exact Bus.not_blocked_of_unaided hst (ht.quiet.not_blocked hin (ht.stop ▸ hd) fun _ => rfl)
  · intro as s log hrun hactive hd
    exact bounded_iff_of_quiet (Bus.safe_of_run hrun) hactive
      fun hq => not_blocked_of_quiet hq (attended_of_run hrun) hd

/-- A handler is running 30 seconds after `stop()`, which waits for it. -/
def racingBus : Bus Unit :=
  ⟨30000, [.handed (createEventContext Delivery.userCreated userOptions.signals) false .handling],
    [], [0], true, false, .racing 60000 60000 [0], 0, ()⟩

/-- The loop has read `userEntry`, the handler has been entered, and `stop()` is called. -/
def redisStop : List (Action Redis.ReaderAction) :=
  [.transport (.readReply [Redis.userEntry]),
    .deliver (Redis.rawEvent (Redis.fixedEnvironment 0) Redis.userEntry 1), .track, .stop]

theorem bounded_iff_handlersEnded_stopped :
    Machine.run (Bus.step memory userOptions) (Bus.started ())
      [.deliver Delivery.userCreated, .track, .stop, .tick 30000, .unsubscribed] =
        some (racingBus, []) ∧
      (Bus.Bounded memory userOptions racingBus ↔ HandlersEnded userOptions racingBus) := by
  have hrun : Machine.run (Bus.step memory userOptions) (Bus.started ())
      [.deliver Delivery.userCreated, .track, .stop, .tick 30000, .unsubscribed] =
        some (racingBus, []) := by decide
  exact ⟨hrun, (bounded_iff_handlersEnded userOptions [] Redis.fixedEnvironment).1
    _ _ _ hrun rfl (by decide)⟩

/-- A handler that never settles keeps `stop()` waiting: with the memory adapter in the settle
window after the forced abort, with Redis already in `unsubscribe()`. -/
theorem unsettled_handler_blocks :
    (¬ ∀ as s log, Machine.run (Bus.step memory userOptions) (Bus.started ()) as = some (s, log) →
      s.stop.active = true → s.stop ≠ .disconnecting → Bus.Bounded memory userOptions s) ∧
    (¬ ∀ as s log,
      Machine.run
        (Bus.step (Redis.transport ["events:user.created"] Redis.fixedEnvironment) userOptions)
        (Bus.started (Redis.Reader.started ["events:user.created"])) as = some (s, log) →
      s.stop.active = true → s.stop ≠ .disconnecting →
      Bus.Bounded (Redis.transport ["events:user.created"] Redis.fixedEnvironment) userOptions
        s) := by
  constructor
  · intro h
    have hrun : Machine.run (Bus.step memory userOptions) (Bus.started ())
        [.deliver Delivery.userCreated, .track, .stop, .unsubscribed, .tick 30000, .wake] =
        some (⟨30000, [.handed (createEventContext Delivery.userCreated userOptions.signals) false
          .handling], [], [0], true, true, .settling [0], 0, ()⟩, [.abort]) := by decide
    exact h _ _ _ hrun rfl (by decide) (by decide)
      (Bus.blocked_of_handling (Bus.safe_of_run hrun) (d := 0) rfl rfl)
  · intro h
    obtain ⟨s, log, hrun, hstop, helapsed, x, hx, hh⟩ : ∃ s log,
        Machine.run (Bus.step (Redis.transport ["events:user.created"] Redis.fixedEnvironment)
          userOptions) (Bus.started (Redis.Reader.started ["events:user.created"]))
          (redisStop ++ [.tick 30000]) = some (s, log) ∧ s.stop = .unsubscribing ∧
        s.calledAt + userOptions.drainTimeout ≤ s.now ∧
        ∃ x, s.deliveries[0]? = some x ∧ x.handling = true :=
      ⟨_, _, rfl, rfl, by decide, _, rfl, rfl⟩
    exact h _ _ _ hrun (by rw [hstop]; rfl) (by simp [hstop]) helapsed
      (Bus.blocked_of_handling (Bus.safe_of_run hrun) hx hh)

end Connectum.Events.Drain
