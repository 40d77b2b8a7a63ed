import Connectum.Events.Broadcast
import Mathlib.Data.List.Nodup

/-! What broadcast reactors owe to one another: events reach all that listen, as long as no bus
takes the shared connection away and no handler ends the loop for those after it. -/
namespace Connectum.Events.Broadcast
open Lifecycle

variable {adapter adapter' : MemoryAdapter ℕ} {i j p : ℕ} {r r' : ReactorBus} {m m' : Mode}
  {s s' : Broadcast}

def Absent (adapter : MemoryAdapter ℕ) (i : ℕ) : Prop :=
  ∀ sub ∈ adapter.subscriptions, sub.handler ≠ i

/-- What the adapter holds for a bus in each mode, and the bus of it. -/
def Wired (adapter : MemoryAdapter ℕ) (i : ℕ) (r : ReactorBus) : Mode → Prop
  | .stopped | .starting .unwinding | .starting .disconnecting => Absent adapter i ∧ r.held = []
  | .starting .connecting => adapter.connected = true ∧ Absent adapter i ∧ r.held = []
  | .starting .subscribing => adapter.connected = true ∧ r.held = [] ∧
      ∃ id, r.pending = some id ∧ ⟨id, r.routes.topics, i⟩ ∈ adapter.subscriptions
  | .started => adapter.connected = true ∧
      ((r.routes.topics = [] ∧ Absent adapter i ∧ r.held = []) ∨
        ∃ id, r.held = [id] ∧ ⟨id, r.routes.topics, i⟩ ∈ adapter.subscriptions)
  | .stopping run => Absent adapter i ∧ (run.phase = .unsubscribing ∨ r.held = [])

/-- The adapter keeps what it holds for other buses than `i`. -/
structure Frames (i : ℕ) (adapter adapter' : MemoryAdapter ℕ) : Prop where
  mem : ∀ sub : MemorySubscription ℕ, sub.handler ≠ i →
    (sub ∈ adapter'.subscriptions ↔ sub ∈ adapter.subscriptions)
  connected : adapter.connected = true → adapter'.connected = true

theorem Frames.refl (i : ℕ) (adapter : MemoryAdapter ℕ) : Frames i adapter adapter :=
  ⟨fun _ _ => Iff.rfl, id⟩

/-- The subscriptions tell the buses apart. -/
structure Consistent (adapter : MemoryAdapter ℕ) : Prop where
  numbered : adapter.Numbered
  handlers : (adapter.subscriptions.map MemorySubscription.handler).Nodup

theorem consistent_initial : Consistent {} := ⟨MemoryAdapter.numbered_initial, List.nodup_nil⟩

theorem Consistent.eq_of_handler (h : Consistent adapter) {sub sub' : MemorySubscription ℕ}
    (hsub : sub ∈ adapter.subscriptions) (hsub' : sub' ∈ adapter.subscriptions)
    (heq : sub.handler = sub'.handler) : sub = sub' :=
  List.inj_on_of_nodup_map h.handlers hsub hsub' heq

theorem Consistent.disconnect (h : Consistent adapter) : Consistent adapter.disconnect :=
  ⟨h.numbered.disconnect, List.nodup_nil⟩

theorem Consistent.connect (h : Consistent adapter) : Consistent adapter.connect :=
  ⟨⟨h.numbered.injective, h.numbered.lt_created⟩, h.handlers⟩

theorem Consistent.unsubscribeAll (h : Consistent adapter) (ids : List ℕ) :
    Consistent (ids.foldl MemoryAdapter.unsubscribe adapter) :=
  ⟨h.numbered.unsubscribeAll ids,
    h.handlers.sublist (MemoryAdapter.sublist_unsubscribeAll.map _)⟩

/-- A connected adapter accepts the subscription of a bus that has none. -/
theorem Consistent.subscribe (h : Consistent adapter) (hconnected : adapter.connected = true)
    (habsent : Absent adapter i) (topics : List String) :
    ∃ id adapter', adapter.subscribe topics i = .ok (id, adapter') ∧ Consistent adapter' ∧
      Frames i adapter adapter' ∧ adapter'.connected = true ∧
      ⟨id, topics, i⟩ ∈ adapter'.subscriptions := by
  have hok : adapter.subscribe topics i = .ok (adapter.created, { adapter with
      subscriptions := adapter.subscriptions ++ [⟨adapter.created, topics, i⟩]
      created := adapter.created + 1 }) := if_neg (not_not_intro hconnected)
  refine ⟨_, _, hok, ⟨h.numbered.subscribe hok, ?_⟩, ⟨fun sub hsub => ?_, id⟩, hconnected, ?_⟩
  · rw [List.map_append, List.map_singleton]
    refine List.nodup_append.mpr ⟨h.handlers, List.nodup_singleton _, ?_⟩
    rintro a ha b hb rfl
    obtain ⟨sub, hsub, hhandler⟩ := List.mem_map.mp ha
    exact habsent sub hsub (hhandler.trans (List.mem_singleton.mp hb))
  · rw [List.mem_append, List.mem_singleton, or_iff_left]
    rintro rfl
    exact hsub rfl
  · exact List.mem_append_right _ (List.mem_singleton_self _)

/-- A bus that unsubscribes from what it holds has no subscription left, and no other bus loses
one. -/
theorem Wired.unsubscribeAll (h : Consistent adapter) (hw : Wired adapter i r .started) :
    Absent (r.held.foldl MemoryAdapter.unsubscribe adapter) i ∧
      Frames i adapter (r.held.foldl MemoryAdapter.unsubscribe adapter) := by
  obtain ⟨hconnected, ⟨-, habsent, hheld⟩ | ⟨id, hheld, hmem⟩⟩ := hw
  · rw [hheld]
    exact ⟨habsent, .refl i adapter⟩
  · rw [hheld]
    refine ⟨fun sub hsub heq => ?_, fun sub hne => ?_, fun hconnected => ?_⟩
    · obtain ⟨hsub, hid⟩ := MemoryAdapter.mem_unsubscribeAll.mp hsub
      rw [h.eq_of_handler hsub hmem heq] at hid
      exact hid List.mem_cons_self
    · rw [MemoryAdapter.mem_unsubscribeAll, and_iff_left_iff_imp]
      rintro hsub hid
      exact hne (congrArg MemorySubscription.handler
        (h.numbered.injective sub hsub _ hmem (List.mem_singleton.mp hid)))
    · rw [MemoryAdapter.connected_unsubscribeAll, hconnected]

/-- What the adapter holds for other buses is all that concerns them. -/
theorem Wired.frame (hw : Wired adapter j r m) (hne : j ≠ i) (hf : Frames i adapter adapter') :
    Wired adapter' j r m := by
  have habsent : Absent adapter j → Absent adapter' j := fun ha sub hsub heq =>
    ha sub ((hf.mem sub (heq ▸ hne)).mp hsub) heq
  have hmem : ∀ {id}, (⟨id, r.routes.topics, j⟩ : MemorySubscription ℕ) ∈ adapter.subscriptions →
      ⟨id, r.routes.topics, j⟩ ∈ adapter'.subscriptions := fun h => (hf.mem _ hne).mpr h
  cases m with
  | stopped => exact hw.imp habsent id
  | starting phase =>
    cases phase with
    | connecting => exact ⟨hf.connected hw.1, habsent hw.2.1, hw.2.2⟩
    | subscribing =>
      obtain ⟨hconnected, hheld, id, hpending, hid⟩ := hw
      exact ⟨hf.connected hconnected, hheld, id, hpending, hmem hid⟩
    | unwinding => exact hw.imp habsent id
    | disconnecting => exact hw.imp habsent id
  | started =>
    obtain ⟨hconnected, ⟨htopics, ha, hheld⟩ | ⟨id, hheld, hid⟩⟩ := hw
    · exact ⟨hf.connected hconnected, .inl ⟨htopics, habsent ha, hheld⟩⟩
    · exact ⟨hf.connected hconnected, .inr ⟨id, hheld, hmem hid⟩⟩
  | stopping run => exact hw.imp habsent id

theorem inUse_eq (h : Shape m r.bus) : inUse r = true ↔
    m = .started ∨ m = .starting .connecting ∨ m = .starting .subscribing := by
  rw [inUse, ReactorBus.active, h.started, h.stopping, h.startRun]
  cases m with
  | starting phase => cases phase <;> decide
  | stopping run => simp [Mode.isStarted, Mode.stopRuns, Mode.startRun]
  | _ => decide

theorem active_iff (h : Shape m r.bus) : r.active = true ↔ m = .started := by
  rw [ReactorBus.active, h.started, h.stopping]
  cases m <;> simp [Mode.isStarted, Mode.stopRuns]

/-- A bus that is not in use does not need the connection. -/
theorem Wired.disconnect (hw : Wired adapter j r m) (h : Shape m r.bus) (hidle : inUse r = false)
    (hnil : adapter'.subscriptions = []) : Wired adapter' j r m := by
  have habsent : Absent adapter' j := fun sub hsub => absurd (hnil ▸ hsub) List.not_mem_nil
  have hnot : ¬ (m = .started ∨ m = .starting .connecting ∨ m = .starting .subscribing) := by
    rw [← inUse_eq h, hidle]
    decide
  cases m with
  | stopped => exact ⟨habsent, hw.2⟩
  | starting phase =>
    cases phase with
    | connecting => exact absurd (.inr (.inl rfl)) hnot
    | subscribing => exact absurd (.inr (.inr rfl)) hnot
    | unwinding => exact ⟨habsent, hw.2⟩
    | disconnecting => exact ⟨habsent, hw.2⟩
  | started => exact absurd (.inl rfl) hnot
  | stopping run => exact ⟨habsent, hw.2⟩

/-- When a bus unsubscribes, by its modes. -/
theorem unsubscribes_eq {bus bus' : Bus} (h : Shape m bus) (h' : Shape m' bus') :
    ReactorBus.unsubscribes bus bus' = (decide (m.stopRuns.length < m'.stopRuns.length) ||
      (decide (m.startRun ≠ some .unwinding) && decide (m'.startRun = some .unwinding))) := by
  rw [ReactorBus.unsubscribes, h.startRun, h.stopRuns, h'.startRun, h'.stopRuns]

/-- The adapter and the pending subscription after a stretch of bus `i`. -/
def afterCalls (adapter : MemoryAdapter ℕ) (i : ℕ) (r : ReactorBus) (bus : Bus)
    (calls : List Lifecycle.Event) : MemoryAdapter ℕ × Option ℕ :=
  calls.foldl (ReactorBus.call i)
    (if ReactorBus.unsubscribes r.bus bus then r.held.foldl MemoryAdapter.unsubscribe adapter
      else adapter, r.pending)

theorem afterCalls_of_not {bus : Bus} {calls : List Lifecycle.Event}
    (h : ReactorBus.unsubscribes r.bus bus = false) :
    afterCalls adapter i r bus calls = calls.foldl (ReactorBus.call i) (adapter, r.pending) := by
  rw [afterCalls, h]
  rfl

/-- What one stretch of a bus does to the adapter: it stays wired, and other buses keep what they
have unless it disconnects. -/
theorem Wired.transition {a : Lifecycle.Action} {calls : List Lifecycle.Event} {bus : Bus}
    (hc : Consistent adapter) (hw : Wired adapter i r m) (h : Shape m r.bus) (h' : Shape m' bus)
    (ht : Mode.Transition r.routes m a calls m') (hanswers : r.answers a = true) :
    Consistent (afterCalls adapter i r bus calls).1 ∧
      Wired (afterCalls adapter i r bus calls).1 i
        { r with bus, pending := (afterCalls adapter i r bus calls).2, held := r.heldAfter a } m' ∧
      ((disconnects a = true ∧
          (afterCalls adapter i r bus calls).1.subscriptions = []) ∨
        Frames i adapter (afterCalls adapter i r bus calls).1) := by
  have hunsub := unsubscribes_eq h h'
  cases ht with
  | starts | stops | resumes =>
    rw [afterCalls_of_not (by simpa using hunsub)]
    exact ⟨hc, by cases m <;> exact hw, .inr (.refl i adapter)⟩
  | start =>
    rw [afterCalls_of_not hunsub]
    exact ⟨hc.connect, ⟨rfl, hw⟩, .inr ⟨fun _ _ => Iff.rfl, fun _ => rfl⟩⟩
  | connectFails => cases hanswers
  | prepareFails =>
    rw [afterCalls, hw.2.2, List.foldl_nil, ite_self]
    exact ⟨hc, hw.2, .inr (.refl i adapter)⟩
  | startsIdle hprepare =>
    rw [afterCalls_of_not hunsub]
    have htopics : r.routes.topics = [] := by rw [BusRoutes.topics, hprepare]
    exact ⟨hc, ⟨hw.1, .inl ⟨htopics, hw.2⟩⟩, .inr (.refl i adapter)⟩
  | @subscribes _ topics hprepare =>
    rw [afterCalls_of_not hunsub]
    have htopics : r.routes.topics = topics := by rw [BusRoutes.topics, hprepare]
    obtain ⟨id, adapter', hsubscribe, hc', hframes, hconnected, hmem⟩ :=
      hc.subscribe hw.1 hw.2.1 topics
    have hcalls : [Lifecycle.Event.connectSucceeded, .subscribe topics].foldl (ReactorBus.call i)
        (adapter, r.pending) = (adapter', some id) := by
      rw [List.foldl_cons, List.foldl_cons, List.foldl_nil, ReactorBus.call, ReactorBus.call,
        hsubscribe]
    rw [hcalls]
    exact ⟨hc', ⟨hconnected, hw.2.2, id, rfl, htopics ▸ hmem⟩, .inr hframes⟩
  | subscribed =>
    rw [afterCalls_of_not hunsub]
    obtain ⟨hconnected, hheld, id, hpending, hmem⟩ := hw
    have hheldAfter : r.heldAfter (.subscribed true) = [id] := by
      rw [ReactorBus.heldAfter, hheld, hpending]
      rfl
    exact ⟨hc, ⟨hconnected, .inr ⟨id, hheldAfter, hmem⟩⟩, .inr (.refl i adapter)⟩
  | subscribeFails =>
    obtain ⟨-, -, id, hpending, -⟩ := hw
    rw [ReactorBus.answers, hpending] at hanswers
    cases hanswers
  | unwound =>
    rw [afterCalls_of_not hunsub]
    exact ⟨hc.disconnect, ⟨fun _ hsub => absurd hsub List.not_mem_nil, rfl⟩, .inl ⟨rfl, rfl⟩⟩
  | rolledBack =>
    rw [afterCalls_of_not hunsub]
    exact ⟨hc, hw, .inr (.refl i adapter)⟩
  | stop | resumeStop =>
    obtain ⟨habsent, hframes⟩ := hw.unsubscribeAll hc
    rw [afterCalls, hunsub]
    exact ⟨hc.unsubscribeAll _, ⟨habsent, .inl rfl⟩, .inr hframes⟩
  | unsubscribed =>
    rw [afterCalls_of_not hunsub]
    exact ⟨hc, ⟨hw.1, .inr rfl⟩, .inr (.refl i adapter)⟩
  | drained =>
    rw [afterCalls_of_not hunsub]
    refine ⟨hc.disconnect, ⟨fun _ hsub => absurd hsub List.not_mem_nil, .inr ?_⟩, .inl ⟨rfl, rfl⟩⟩
    exact hw.2.resolve_left nofun
  | disconnected =>
    rw [afterCalls_of_not hunsub]
    exact ⟨hc, ⟨hw.1, hw.2.resolve_left nofun⟩, .inr (.refl i adapter)⟩

/-- The gate of the handlers is down exactly while the bus is being stopped. -/
theorem draining_step {routes : BusRoutes} {bus bus' : Bus} {a : Lifecycle.Action}
    {calls : List Lifecycle.Event} (h : bus.draining = bus.stopping)
    (hs : bus.step routes a = some (bus', calls)) : bus'.draining = bus'.stopping := by
  unfold Bus.step at hs
  repeat' split at hs
  all_goals cases hs
  all_goals first | exact h | rfl

structure Coherent (s : Broadcast) : Prop where
  consistent : Consistent s.adapter
  draining : ∀ (i : ℕ) (r : ReactorBus), s.reactors[i]? = some r → r.bus.draining = r.bus.stopping
  wired : ∀ (i : ℕ) (r : ReactorBus), s.reactors[i]? = some r →
    ∃ m, Shape m r.bus ∧ Wired s.adapter i r m

/-- What a stretch of bus `i` can do to the publications under way: to a reactor that stays
active it leaves its subscription. -/
structure BusStepped (i : ℕ) (s s' : Broadcast) (out : List Event) : Prop where
  coherent : Coherent s'
  publications : s'.publications = s.publications
  published : s'.published = s.published
  out_eq : out = [] ∨ out = [.stopping i]
  active : ∀ (j : ℕ) (r : ReactorBus), s.reactors[j]? = some r → r.active = true →
    .stopping j ∈ out ∨ (∃ r', s'.reactors[j]? = some r' ∧ r'.active = true) ∧
      ∀ sub ∈ s.adapter.subscriptions, sub.handler = j → sub ∈ s'.adapter.subscriptions

theorem getElem?_set_cases {α : Type*} {l : List α} {x y : α}
    (h : (l.set i x)[j]? = some y) : (j = i ∧ y = x) ∨ (j ≠ i ∧ l[j]? = some y) := by
  rw [List.getElem?_set] at h
  split at h
  next heq =>
    split at h
    next => exact .inl ⟨heq.symm, (Option.some.inj h).symm⟩
    next => cases h
  next hne => exact .inr ⟨Ne.symm hne, h⟩

theorem stepBus_eq_some {a : Lifecycle.Action} {out : List Event}
    (h : s.stepBus i r a = some (s', out)) : ∃ bus calls,
    r.bus.step r.routes a = some (bus, calls) ∧
    s' = { s with
      adapter := (afterCalls s.adapter i r bus calls).1
      reactors := s.reactors.set i { r with
        bus, pending := (afterCalls s.adapter i r bus calls).2, held := r.heldAfter a } } ∧
    out = if r.bus.stopRuns.length < bus.stopRuns.length then [.stopping i] else [] := by
  unfold stepBus at h
  split at h
  next => cases h
  next bus calls hstep =>
    cases h
    exact ⟨bus, calls, hstep, rfl, rfl⟩

/-- A bus leaves its active mode only by a stop. -/
theorem transition_started {routes : BusRoutes} {a : Lifecycle.Action}
    {calls : List Lifecycle.Event} (ht : Mode.Transition routes .started a calls m') :
    calls = [] ∧ (m' = .started ∨ ∃ run, m' = .stopping run) := by
  cases ht with
  | starts | stops | resumes => exact ⟨rfl, .inl rfl⟩
  | stop | resumeStop => exact ⟨rfl, .inr ⟨_, rfl⟩⟩

theorem Coherent.stepBus {a : Lifecycle.Action} {out : List Event} (h : Coherent s)
    (hr : s.reactors[i]? = some r) (hcareful : careful s (.bus i a) = true)
    (hanswers : r.answers a = true) (hs : s.stepBus i r a = some (s', out)) :
    BusStepped i s s' out := by
  obtain ⟨bus, calls, hstep, rfl, rfl⟩ := stepBus_eq_some hs
  obtain ⟨m, hshape, hw⟩ := h.wired i r hr
  rw [careful, hr, Option.all_some, Bool.and_eq_true, Bool.not_eq_true'] at hcareful
  obtain ⟨m', hshape', ht⟩ := hshape.transition hcareful.1 hstep
  obtain ⟨hc', hw', hothers⟩ := hw.transition h.consistent hshape hshape' ht hanswers
  have hidle : disconnects a = true → ∀ j r', j ≠ i → s.reactors[j]? = some r' →
      inUse r' = false := by
    intro hdisconnects j r' hne hj
    rw [hdisconnects, Bool.not_true, Bool.false_or, List.all_eq_true] at hcareful
    have hmem : (r', j) ∈ s.reactors.zipIdx := List.mem_zipIdx_iff_getElem?.mpr hj
    simpa [hne] using hcareful.2 (r', j) hmem
  have hself : (s.reactors.set i { r with
      bus, pending := (afterCalls s.adapter i r bus calls).2, held := r.heldAfter a })[i]? =
      some { r with
        bus, pending := (afterCalls s.adapter i r bus calls).2, held := r.heldAfter a } :=
    List.getElem?_set_self (List.getElem?_eq_some_iff.mp hr).1
  constructor
  · refine ⟨hc', fun j r' hj => ?_, fun j r' hj => ?_⟩
    · rcases getElem?_set_cases hj with ⟨rfl, rfl⟩ | ⟨-, hj⟩
      · exact draining_step (h.draining _ _ hr) hstep
      · exact h.draining j r' hj
    · rcases getElem?_set_cases hj with ⟨rfl, rfl⟩ | ⟨hne, hj⟩
      · exact ⟨m', hshape', hw'⟩
      · obtain ⟨mj, hshapej, hwj⟩ := h.wired j r' hj
        rcases hothers with ⟨hdisconnects, hnil⟩ | hframes
        · exact ⟨mj, hshapej, hwj.disconnect hshapej (hidle hdisconnects j r' hne hj) hnil⟩
        · exact ⟨mj, hshapej, hwj.frame hne hframes⟩
  · rfl
  · rfl
  · split
    · exact .inr rfl
    · exact .inl rfl
  · intro j r' hj hactive
    by_cases hne : j = i
    · subst hne
      rw [hr] at hj
      obtain rfl := Option.some.inj hj
      obtain rfl := (active_iff hshape).mp hactive
      obtain ⟨rfl, rfl | ⟨run, rfl⟩⟩ := transition_started ht
      · refine .inr ⟨⟨_, hself, (active_iff hshape').mpr rfl⟩, fun sub hsub _ => ?_⟩
        rw [afterCalls_of_not (unsubscribes_eq hshape hshape')]
        exact hsub
      · refine .inl ?_
        rw [hshape.stopRuns, hshape'.stopRuns, if_pos (show Mode.started.stopRuns.length <
          (Mode.stopping run).stopRuns.length from Nat.zero_lt_one)]
        exact List.mem_singleton_self _
    · rcases hothers with ⟨hdisconnects, -⟩ | hframes
      · have hidle := hidle hdisconnects j r' hne hj
        rw [inUse, hactive] at hidle
        cases hidle
      · refine .inr ⟨⟨r', ?_, hactive⟩, fun sub hsub heq => ?_⟩
        · exact (List.getElem?_set_ne (Ne.symm hne)).trans hj
        · exact (hframes.mem sub (heq ▸ hne)).mpr hsub

/-- A bus finds a handler for every event that its subscription matches. -/
theorem isSome_lookupHandler {patterns : List String} {eventType : String}
    (h : patterns.any (fun pattern => matchPattern pattern eventType) = true) :
    (lookupHandler (patterns.map fun pattern => (pattern, ())) eventType).isSome = true := by
  obtain ⟨pattern, hpattern, hmatch⟩ := List.any_eq_true.mp h
  unfold lookupHandler
  split
  next => rfl
  next hnone =>
    have hne : pattern ≠ eventType := by
      rintro rfl
      have hbne := List.lookup_eq_none_iff.mp hnone (pattern, ())
        (List.mem_map.mpr ⟨pattern, hpattern, rfl⟩)
      exact bne_iff_ne.mp hbne rfl
    rw [Option.isSome_map, List.find?_isSome]
    exact ⟨(pattern, ()), List.mem_map.mpr ⟨pattern, hpattern, rfl⟩, by simp [hne, hmatch]⟩

/-- The publications under way: what is published, and the subscriptions to be called. -/
def underWay (s : Broadcast) (p : ℕ) : Option (String × List (MemorySubscription ℕ)) :=
  (s.publications.lookup p).map fun publication => (publication.eventType, publication.remaining)

variable {log out : List Event} {eventType : String} {subs : List (MemorySubscription ℕ)}
  {pubs : ℕ → Option (String × List (MemorySubscription ℕ))}

/-- Nothing is handed over twice, and what is owed has been handed over or is to be handed over to
a subscription that is still there. -/
structure Fair (pubs : ℕ → Option (String × List (MemorySubscription ℕ))) (s : Broadcast)
    (log : List Event) : Prop where
  fresh : ∀ p i, .handed p i ∈ log → p < s.published
  begun : ∀ p eventType subs, pubs p = some (eventType, subs) → p < s.published
  once : ∀ p i, log.count (.handed p i) ≤ 1
  waiting : ∀ p eventType subs, pubs p = some (eventType, subs) →
    (subs.map MemorySubscription.handler).Nodup ∧ ∀ sub ∈ subs,
      sub.matchesEvent eventType = true ∧ log.count (.handed p sub.handler) = 0
  owes : ∀ p i, (p, i) ∈ owed log →
    (∃ r : ReactorBus, s.reactors[i]? = some r ∧ r.active = true) ∧
      (log.count (.handed p i) = 1 ∨ ∃ eventType subs, pubs p = some (eventType, subs) ∧
        ∃ sub ∈ subs, sub.handler = i ∧ sub ∈ s.adapter.subscriptions)

theorem owed_append : owed (log ++ out) = out.foldl noteOwed (owed log) := List.foldl_append

theorem owed_append_handed (handed : Bool) (p i : ℕ) :
    owed (log ++ if handed then [Event.handed p i] else []) = owed log := by
  rw [owed_append]
  cases handed <;> rfl

theorem count_append_handed (log : List Event) (handed : Bool) (p i q j : ℕ) :
    (log ++ if handed then [Event.handed p i] else []).count (.handed q j) =
      log.count (.handed q j) + if handed = true ∧ p = q ∧ i = j then 1 else 0 := by
  cases handed with
  | true =>
    rw [if_pos rfl, List.count_append, List.count_singleton]
    simp
  | false => simp

theorem underWay_set {publication : Publication} (q : ℕ) :
    underWay { s with publications := JsMap.set s.publications p publication } q =
      if q = p then some (publication.eventType, publication.remaining) else underWay s q := by
  rw [underWay]
  split
  next h => rw [h, JsMap.lookup_set_self, Option.map_some]
  next h => rw [JsMap.lookup_set_of_ne h, underWay]

theorem underWay_delete (q : ℕ) :
    underWay { s with publications := JsMap.delete s.publications p } q =
      if q = p then none else underWay s q := by
  rw [underWay]
  split
  next h => rw [h, JsMap.lookup_delete_self, Option.map_none]
  next h => rw [JsMap.lookup_delete_of_ne h, underWay]

/-- The loop of a publication is over, and no subscription that is still there is left. -/
theorem Fair.finish (h : Fair pubs s log) (hp : pubs p = some (eventType, subs))
    (hothers : ∀ q, q ≠ p → pubs q = underWay s q)
    (hleft : ∀ sub ∈ subs, sub ∉ s.adapter.subscriptions) :
    Fair (underWay { s with publications := JsMap.delete s.publications p })
      { s with publications := JsMap.delete s.publications p } log := by
  have hold : ∀ {q eventType' subs'}, underWay { s with
      publications := JsMap.delete s.publications p } q = some (eventType', subs') →
      pubs q = some (eventType', subs') := by
    intro q eventType' subs' hq
    rw [underWay_delete] at hq
    split at hq
    next => cases hq
    next hne => rw [hothers q hne, hq]
  refine ⟨h.fresh, fun q _ _ hq => h.begun q _ _ (hold hq), h.once,
    fun q _ _ hq => h.waiting q _ _ (hold hq), fun q i howed => ?_⟩
  obtain ⟨hactive, hhanded⟩ := h.owes q i howed
  refine ⟨hactive, hhanded.imp_right ?_⟩
  rintro ⟨eventType', subs', hq, sub, hsub, hi, hthere⟩
  have hne : q ≠ p := by
    rintro rfl
    rw [hp] at hq
    cases hq
    exact hleft sub hsub hthere
  refine ⟨eventType', subs', ?_, sub, hsub, hi, hthere⟩
  rw [underWay_delete, if_neg hne, ← hothers q hne, hq]

/-- The next call of the loop: the event is handed over to whoever it is owed to. -/
theorem Fair.next {sub : MemorySubscription ℕ} {handed : Bool} (h : Fair pubs s log)
    (hp : pubs p = some (eventType, sub :: subs)) (hothers : ∀ q, q ≠ p → pubs q = underWay s q)
    (hhanded : (p, sub.handler) ∈ owed log → handed = true) {publications : List (ℕ × Publication)}
    (hunder : ∀ q, underWay { s with publications } q =
      if q = p then some (eventType, subs) else underWay s q) :
    Fair (underWay { s with publications }) { s with publications }
      (log ++ if handed then [.handed p sub.handler] else []) := by
  obtain ⟨hnodup, hwaiting⟩ := h.waiting p _ _ hp
  rw [List.map_cons, List.nodup_cons] at hnodup
  obtain ⟨⟨-, hnone⟩, hwaiting⟩ := List.forall_mem_cons.mp hwaiting
  have hcount := count_append_handed log handed p sub.handler
  refine ⟨fun q i hq => ?_, fun q eventType' subs' hq => ?_, fun q i => ?_,
    fun q eventType' subs' hq => ?_, fun q i hq => ?_⟩
  · rcases List.mem_append.mp hq with hq | hq
    · exact h.fresh q i hq
    · split at hq
      next => cases List.mem_singleton.mp hq; exact h.begun p _ _ hp
      next => cases hq
  · rw [hunder] at hq
    split at hq
    next heq => exact heq ▸ h.begun p _ _ hp
    next hne => exact h.begun q _ _ ((hothers q hne).trans hq)
  · rw [hcount]
    split
    next heq =>
      rw [← heq.2.1, ← heq.2.2]
      omega
    next => exact h.once q i
  · rw [hunder] at hq
    split at hq
    next heq =>
      cases hq
      subst heq
      refine ⟨hnodup.2, fun sub' hsub' => ⟨(hwaiting sub' hsub').1, ?_⟩⟩
      rw [hcount, (hwaiting sub' hsub').2, if_neg]
      rintro ⟨-, -, heq⟩
      exact hnodup.1 (heq ▸ List.mem_map_of_mem hsub')
    next hne =>
      obtain ⟨hnodup', hwaiting'⟩ := h.waiting q _ _ ((hothers q hne).trans hq)
      refine ⟨hnodup', fun sub' hsub' => ⟨(hwaiting' sub' hsub').1, ?_⟩⟩
      rw [hcount, (hwaiting' sub' hsub').2, if_neg fun heq => hne heq.2.1.symm]
  · rw [owed_append_handed] at hq
    obtain ⟨hactive, hcases⟩ := h.owes q i hq
    refine ⟨hactive, ?_⟩
    rw [hcount]
    by_cases hself : p = q ∧ sub.handler = i
    · obtain ⟨rfl, rfl⟩ := hself
      rw [hnone, if_pos ⟨hhanded hq, rfl, rfl⟩]
      exact .inl rfl
    · rw [if_neg fun heq => hself heq.2]
      refine hcases.imp_right ?_
      rintro ⟨eventType', subs', hq, sub', hsub', hi, hthere⟩
      rw [hunder]
      by_cases hqp : q = p
      · subst hqp
        rw [hp] at hq
        cases hq
        rcases List.mem_cons.mp hsub' with rfl | hsub'
        · exact absurd ⟨rfl, hi⟩ hself
        · exact ⟨eventType, subs, if_pos rfl, sub', hsub', hi, hthere⟩
      · exact ⟨eventType', subs', (if_neg hqp).trans ((hothers q hqp).symm.trans hq), sub', hsub',
          hi, hthere⟩

theorem Fair.deliver (h : Fair pubs s log) (hcoherent : Coherent s)
    (hp : pubs p = some (eventType, subs)) (hothers : ∀ q, q ≠ p → pubs q = underWay s q) :
    Fair (underWay (s.deliver p eventType subs).1) (s.deliver p eventType subs).1
      (log ++ (s.deliver p eventType subs).2) := by
  cases subs with
  | nil =>
    rw [Broadcast.deliver, List.append_nil]
    exact h.finish hp hothers fun sub hsub => absurd hsub List.not_mem_nil
  | cons sub subs =>
    refine h.next hp hothers (fun howed => ?_) underWay_set
    -- an active bus is not draining
    obtain ⟨⟨r, hr, hactive⟩, -⟩ := h.owes p _ howed
    rw [ReactorBus.active, Bool.and_eq_true, Bool.not_eq_true'] at hactive
    rw [hands, isSome_lookupHandler ((h.waiting p _ _ hp).2 sub List.mem_cons_self).1, hr,
      Option.any_some, hcoherent.draining _ r hr, hactive.2]
    rfl

theorem mem_listening {i : ℕ} : i ∈ s.listening eventType ↔
    ∃ r, s.reactors[i]? = some r ∧ r.listens eventType = true := by
  rw [listening, List.mem_filter, List.mem_range, Option.any_eq_true]
  refine and_iff_right_of_imp ?_
  rintro ⟨r, hr, -⟩
  exact (List.getElem?_eq_some_iff.mp hr).1

/-- Whoever listens has a subscription that the event matches. -/
theorem Coherent.subscription (h : Coherent s) (hi : i ∈ s.listening eventType) :
    s.adapter.connected = true ∧ (∃ r, s.reactors[i]? = some r ∧ r.active = true) ∧
      ∃ sub ∈ s.adapter.subscriptions, sub.handler = i ∧ sub.matchesEvent eventType = true := by
  obtain ⟨r, hr, hlistens⟩ := mem_listening.mp hi
  rw [ReactorBus.listens, Bool.and_eq_true] at hlistens
  obtain ⟨hactive, hmatch⟩ := hlistens
  obtain ⟨m, hshape, hw⟩ := h.wired i r hr
  obtain rfl := (active_iff hshape).mp hactive
  obtain ⟨hconnected, ⟨htopics, -⟩ | ⟨id, -, hmem⟩⟩ := hw
  · rw [htopics] at hmatch
    cases hmatch
  · exact ⟨hconnected, ⟨r, hr, hactive⟩, _, hmem, rfl, hmatch⟩

theorem count_handed_append (log : List Event) (hnone : ∀ q i, .handed q i ∉ out) (q i : ℕ) :
    (log ++ out).count (.handed q i) = log.count (.handed q i) := by
  rw [List.count_append, List.count_eq_zero.mpr (hnone q i), Nat.add_zero]

/-- What hands nothing over has to keep what is owed, and to begin its publications as new. -/
theorem Fair.append {pubs' : ℕ → Option (String × List (MemorySubscription ℕ))}
    (h : Fair pubs s log) (hnone : ∀ q i, .handed q i ∉ out)
    (hpublished : s.published ≤ s'.published)
    (hbegun : ∀ q eventType subs, pubs' q = some (eventType, subs) →
      pubs q = some (eventType, subs) ∨ q = s.published ∧ s.published < s'.published ∧
        (subs.map MemorySubscription.handler).Nodup ∧
        ∀ sub ∈ subs, sub.matchesEvent eventType = true)
    (howes : ∀ q i, (q, i) ∈ owed (log ++ out) →
      (∃ r : ReactorBus, s'.reactors[i]? = some r ∧ r.active = true) ∧
        (log.count (.handed q i) = 1 ∨ ∃ eventType subs, pubs' q = some (eventType, subs) ∧
          ∃ sub ∈ subs, sub.handler = i ∧ sub ∈ s'.adapter.subscriptions)) :
    Fair pubs' s' (log ++ out) := by
  have hcount := count_handed_append log hnone
  refine ⟨fun q i hq => ?_, fun q _ _ hq => ?_, fun q i => ?_, fun q _ _ hq => ?_,
    fun q i hq => ?_⟩
  · have hlog := (List.mem_append.mp hq).resolve_right (hnone q i)
    exact Nat.lt_of_lt_of_le (h.fresh q i hlog) hpublished
  · rcases hbegun q _ _ hq with hq | ⟨rfl, hlt, -⟩
    · exact Nat.lt_of_lt_of_le (h.begun q _ _ hq) hpublished
    · exact hlt
  · rw [hcount]
    exact h.once q i
  · simp only [hcount]
    rcases hbegun q _ _ hq with hq | ⟨rfl, -, hnodup, hmatch⟩
    · exact h.waiting q _ _ hq
    · -- nothing of a new publication has been handed over
      have hzero : ∀ i, log.count (.handed s.published i) = 0 := by
        intro i
        refine List.count_eq_zero.mpr fun hmem => ?_
        exact absurd (h.fresh _ i hmem) (Nat.lt_irrefl _)
      exact ⟨hnodup, fun sub hsub => ⟨hmatch sub hsub, hzero _⟩⟩
  · rw [hcount]
    exact howes q i hq

/-- A publication begins: it is owed to all that listen. -/
theorem Fair.publish (h : Fair (underWay s) s log) (hcoherent : Coherent s) (eventType : String) :
    Fair (fun p => if p = s.published then some (eventType,
        s.adapter.subscriptions.filter fun sub => sub.matchesEvent eventType) else underWay s p)
      { s with published := s.published + 1 }
      (log ++ [.published s.published (s.listening eventType)]) := by
  refine h.append (by simp) (Nat.le_succ _) (fun q eventType' subs' hq => ?_) fun q i hq => ?_
  · split at hq
    next heq =>
      cases hq
      refine .inr ⟨heq, Nat.lt_succ_self _, ?_, fun sub hsub => (List.mem_filter.mp hsub).2⟩
      exact hcoherent.consistent.handlers.sublist (List.filter_sublist.map _)
    next => exact .inl hq
  · rw [owed_append] at hq
    rcases List.mem_append.mp hq with hq | hq
    · obtain ⟨hactive, hcases⟩ := h.owes q i hq
      refine ⟨hactive, hcases.imp_right ?_⟩
      rintro ⟨eventType', subs', hq, sub, hsub⟩
      have hne : q ≠ s.published := Nat.ne_of_lt (h.begun q _ _ hq)
      exact ⟨eventType', subs', (if_neg hne).trans hq, sub, hsub⟩
    · obtain ⟨i', hi', heq⟩ := List.mem_map.mp hq
      cases heq
      obtain ⟨-, hactive, sub, hsub, hhandler, hmatch⟩ := hcoherent.subscription hi'
      exact ⟨hactive, .inr ⟨eventType, _, if_pos rfl, sub, List.mem_filter.mpr ⟨hsub, hmatch⟩,
        hhandler, hsub⟩⟩

/-- A stretch of a bus that takes nothing from the others. -/
theorem Fair.bus (h : Fair (underWay s) s log) (hstep : BusStepped i s s' out) :
    Fair (underWay s') s' (log ++ out) := by
  have hunder : underWay s' = underWay s := by
    funext p
    rw [underWay, underWay, hstep.publications]
  have hnone : ∀ q j, .handed q j ∉ out := by
    rcases hstep.out_eq with rfl | rfl <;> simp
  rw [hunder]
  refine h.append hnone (Nat.le_of_eq hstep.published.symm) (fun q _ _ hq => .inl hq)
    fun q j hq => ?_
  have hq' : (q, j) ∈ owed log ∧ .stopping j ∉ out := by
    rw [owed_append] at hq
    rcases hstep.out_eq with rfl | rfl
    · exact ⟨hq, List.not_mem_nil⟩
    · obtain ⟨hq, hne⟩ := List.mem_filter.mp hq
      refine ⟨hq, fun hmem => ?_⟩
      cases List.mem_singleton.mp hmem
      exact of_decide_eq_true hne rfl
  obtain ⟨⟨r, hr, hactive⟩, hcases⟩ := h.owes q j hq'.1
  obtain ⟨hactive', hkept⟩ := (hstep.active j r hr hactive).resolve_left hq'.2
  refine ⟨hactive', hcases.imp_right ?_⟩
  rintro ⟨eventType, subs, hq, sub, hsub, hhandler, hthere⟩
  exact ⟨eventType, subs, hq, sub, hsub, hhandler, hkept sub hthere hhandler⟩

theorem Fair.refused {listening : List ℕ} (h : Fair pubs s log) :
    Fair pubs s (log ++ [.refused listening]) := by
  refine h.append (by simp) (Nat.le_refl _) (fun q _ _ hq => .inl hq) fun q i hq => ?_
  rw [owed_append] at hq
  exact h.owes q i hq

/-- The invariant of careful runs. -/
structure Running (s : Broadcast) (log : List Event) : Prop where
  coherent : Coherent s
  fair : Fair (underWay s) s log
  accepted : ∀ listening, .refused listening ∈ log → listening = []

theorem Coherent.frame (h : Coherent s) (publications : List (ℕ × Publication)) (published : ℕ) :
    Coherent { s with publications, published } := ⟨h.consistent, h.draining, h.wired⟩

theorem Coherent.deliver (h : Coherent s) : Coherent (s.deliver p eventType subs).1 := by
  cases subs with
  | nil => exact h.frame _ _
  | cons sub subs => exact h.frame _ _

theorem refused_not_mem_deliver {listening : List ℕ} :
    .refused listening ∉ (s.deliver p eventType subs).2 := by
  cases subs with
  | nil => exact List.not_mem_nil
  | cons sub subs =>
    rw [Broadcast.deliver]
    split <;> simp

theorem Running.publish {via : Option ℕ} (h : Running s log)
    (hs : s.step (.publish via eventType) = some (s', out)) : Running s' (log ++ out) := by
  rw [Broadcast.step] at hs
  split at hs
  · cases hs
    rwa [List.append_nil]
  · split at hs
    next hrefused =>
      cases hs
      have hnone : s.listening eventType = [] := by
        refine List.eq_nil_iff_forall_not_mem.mpr fun i hi => ?_
        obtain ⟨hconnected, -⟩ := h.coherent.subscription hi
        rw [MemoryAdapter.matchingSubs, if_neg (not_not_intro hconnected)] at hrefused
        cases hrefused
      rw [hnone]
      refine ⟨h.coherent, h.fair.refused, fun l hl => ?_⟩
      rcases List.mem_append.mp hl with hl | hl
      · exact h.accepted l hl
      · cases List.mem_singleton.mp hl
        rfl
    next matchingSubs hmatching =>
      obtain rfl : (s.adapter.subscriptions.filter fun sub => sub.matchesEvent eventType) =
          matchingSubs := by
        unfold MemoryAdapter.matchingSubs at hmatching
        split at hmatching
        · cases hmatching
        · exact Except.ok.inj hmatching
      obtain ⟨rfl, rfl⟩ := Prod.mk.inj (Option.some.inj hs)
      have hcoherent := h.coherent.frame s.publications (s.published + 1)
      have hfair := (h.fair.publish h.coherent eventType).deliver hcoherent
        (if_pos rfl) fun q hq => if_neg hq
      rw [List.append_assoc] at hfair
      refine ⟨hcoherent.deliver, hfair, fun l hl => ?_⟩
      rcases List.mem_append.mp hl with hl | hl
      · exact h.accepted l hl
      · rcases List.mem_cons.mp hl with hl | hl
        · cases hl
        · exact absurd hl refused_not_mem_deliver

theorem Running.settle {ok : Bool} (h : Running s log) (hcareful : careful s (.settle p ok) = true)
    (hs : s.step (.settle p ok) = some (s', out)) : Running s' (log ++ out) := by
  rw [Broadcast.step] at hs
  split at hs
  next => cases hs
  next publication hpublication =>
    have hp : underWay s p = some (publication.eventType, publication.remaining) := by
      rw [underWay, hpublication, Option.map_some]
    cases ok with
    | true =>
      obtain ⟨rfl, rfl⟩ := Prod.mk.inj (Option.some.inj hs)
      refine ⟨h.coherent.deliver, h.fair.deliver h.coherent hp fun _ _ => rfl, fun l hl => ?_⟩
      exact h.accepted l ((List.mem_append.mp hl).resolve_right refused_not_mem_deliver)
    | false =>
      rw [if_neg Bool.false_ne_true] at hs
      split at hs
      next =>
        cases hs
        rw [List.append_nil]
        refine ⟨h.coherent.frame _ _, h.fair.finish hp (fun _ _ => rfl) ?_, h.accepted⟩
        rw [careful, hpublication, Bool.false_or, Option.all_some, List.all_eq_true] at hcareful
        exact fun sub hsub => of_decide_eq_true (hcareful sub hsub)
      next => cases hs

theorem Running.step {a : Action} (h : Running s log) (hcareful : careful s a = true)
    (hs : s.step a = some (s', out)) : Running s' (log ++ out) := by
  cases a with
  | bus i a =>
    rw [Broadcast.step] at hs
    split at hs
    next => cases hs
    next r hr =>
      split at hs
      next hanswers =>
        have hstepped := h.coherent.stepBus hr hcareful hanswers hs
        refine ⟨hstepped.coherent, h.fair.bus hstepped, fun l hl => h.accepted l ?_⟩
        refine (List.mem_append.mp hl).resolve_right fun hl => ?_
        rcases hstepped.out_eq with rfl | rfl
        · cases hl
        · cases List.mem_singleton.mp hl
      next => cases hs
  | publish via eventType => exact h.publish hs
  | settle p ok => exact h.settle hcareful hs

/-- Buses that have not been started are not wired to anything. -/
theorem running_initial {buses : List ReactorBus}
    (h : ∀ r ∈ buses, r.bus = {} ∧ r.held = []) : Running { reactors := buses } [] where
  coherent := by
    refine ⟨consistent_initial, fun i r hr => ?_, fun i r hr => ?_⟩
    · rw [(h r (List.mem_of_getElem? hr)).1]
    · obtain ⟨hbus, hheld⟩ := h r (List.mem_of_getElem? hr)
      exact ⟨.stopped, hbus ▸ initial_shape, fun _ hsub => absurd hsub List.not_mem_nil, hheld⟩
  fair := ⟨fun _ _ h => absurd h List.not_mem_nil, nofun, fun _ _ => Nat.zero_le 1, nofun,
    fun _ _ h => absurd h List.not_mem_nil⟩
  accepted _ h := absurd h List.not_mem_nil

theorem Running.independent (h : Running s log) : Independent s log where
  once := h.fair.once
  handed p i howed hdone := by
    obtain ⟨-, hcount | ⟨eventType, subs, hp, -⟩⟩ := h.fair.owes p i howed
    · exact hcount
    · rw [underWay, hdone] at hp
      cases hp
  accepted := h.accepted
  subscribed r hr hrun := by
    obtain ⟨i, hi⟩ := List.mem_iff_getElem?.mp hr
    obtain ⟨m, hshape, hw⟩ := h.coherent.wired i r hi
    obtain rfl := hshape.mode_of_startRun hrun
    obtain ⟨-, -, id, hpending, -⟩ := hw
    rw [hpending]
    exact Option.some_ne_none id

theorem eq_map_of_createBroadcastSubscribers {reactors : List BroadcastReactor}
    {buses : List ReactorBus} (h : createBroadcastSubscribers reactors = .ok buses) :
    buses = reactors.map fun reactor => { routes := ⟨reactor.entries, []⟩ } := by
  unfold createBroadcastSubscribers at h
  cases hseen : reactors.foldlM seeGroup [] with
  | error error =>
    rw [hseen] at h
    cases h
  | ok seen =>
    rw [hseen] at h
    exact (Except.ok.inj h).symm

/-- The buses are built exactly if the groups differ. -/
theorem exists_createBroadcastSubscribers_iff {reactors : List BroadcastReactor} :
    (∃ buses, createBroadcastSubscribers reactors = .ok buses) ↔
      (reactors.map BroadcastReactor.group).Nodup := by
  have hseen : ∀ seen : List String, (∃ seen', reactors.foldlM seeGroup seen = .ok seen') ↔
      (reactors.map BroadcastReactor.group).Nodup ∧
        ∀ reactor ∈ reactors, reactor.group ∉ seen := by
    induction reactors with
    | nil => exact fun seen => ⟨fun _ => ⟨List.nodup_nil, nofun⟩, fun _ => ⟨seen, rfl⟩⟩
    | cons reactor reactors ih =>
      intro seen
      rw [List.foldlM_cons, List.map_cons, List.nodup_cons, List.forall_mem_cons, seeGroup]
      by_cases hmem : reactor.group ∈ seen
      · rw [if_pos hmem]
        exact ⟨(fun ⟨_, h⟩ => by cases h), fun h => absurd hmem h.2.1⟩
      · rw [if_neg hmem]
        refine (ih (seen ++ [reactor.group])).trans ?_
        simp only [List.mem_append, List.mem_singleton, not_or, List.mem_map, not_exists, not_and]
        constructor
        · rintro ⟨hnodup, hnot⟩
          exact ⟨⟨fun other hother => (hnot other hother).2, hnodup⟩, hmem,
            fun other hother => (hnot other hother).1⟩
        · rintro ⟨⟨hne, hnodup⟩, -, hnot⟩
          exact ⟨hnodup, fun other hother => ⟨hnot other hother, hne other hother⟩⟩
  refine ⟨fun ⟨buses, h⟩ => ((hseen []).mp ?_).1, fun h => ?_⟩
  · unfold createBroadcastSubscribers at h
    cases hfold : reactors.foldlM seeGroup [] with
    | error error =>
      rw [hfold] at h
      cases h
    | ok seen => exact ⟨seen, rfl⟩
  · obtain ⟨seen, hfold⟩ := (hseen []).mpr ⟨h, fun _ _ => List.not_mem_nil⟩
    exact ⟨_, by rw [createBroadcastSubscribers, hfold]; rfl⟩

/-- Two reactors of one event. -/
def orderReactors : List BroadcastReactor :=
  [⟨"pricing", [("acme.v1.OrderCreated", "order.created")]⟩,
    ⟨"audit", [("acme.v1.OrderCreated", "order.created")]⟩]

def orderBuses : List ReactorBus :=
  orderReactors.map fun reactor => { routes := ⟨reactor.entries, []⟩ }

/-- Both buses are started, and an event is published on the adapter. -/
def orderPublished : List Action :=
  [.bus 0 .start, .bus 1 .start, .bus 0 (.connected true), .bus 1 (.connected true),
    .bus 0 (.subscribed true), .bus 1 (.subscribed true), .publish none "order.created"]

def stoppedBus (id : ℕ) : ReactorBus :=
  { routes := ⟨[("acme.v1.OrderCreated", "order.created")], []⟩
    bus := { starts := 1, stops := 1 }
    pending := some id }

def startedBus (id : ℕ) : ReactorBus :=
  { routes := ⟨[("acme.v1.OrderCreated", "order.created")], []⟩
    bus := { started := true, subscriptions := 1, starts := 1 }
    pending := some id
    held := [id] }

/-- Broadcast reactors are independent in every run in which no bus disconnects while another is
in use, no handler rejects while another reactor waits for the event, and no stop is doubled. -/
theorem independent_of_careful {reactors : List BroadcastReactor} {buses : List ReactorBus}
    (hcreate : createBroadcastSubscribers reactors = .ok buses) {as : List Action}
    (hmeets : Machine.Meets Broadcast.step (fun s a => careful s a = true)
      { reactors := buses } as)
    (hrun : Machine.run Broadcast.step { reactors := buses } as = some (s, log)) :
    Independent s log := by
  have hinitial : Running { reactors := buses } [] := by
    refine running_initial fun r hr => ?_
    rw [eq_map_of_createBroadcastSubscribers hcreate] at hr
    obtain ⟨reactor, -, rfl⟩ := List.mem_map.mp hr
    exact ⟨rfl, rfl⟩
  exact (Machine.run_invariant_of_meets (l := []) (I := Running)
    (fun _ _ _ _ _ h ha hs => h.step ha hs) hinitial hmeets hrun).independent

theorem independent_of_careful_orders :
    Independent
      { adapter := { created := 2 }, reactors := [stoppedBus 0, stoppedBus 1], published := 1 }
      [.published 0 [0, 1], .handed 0 0, .handed 0 1, .stopping 0, .stopping 1] := by
  have hcreate : createBroadcastSubscribers orderReactors = .ok orderBuses := rfl
  have hrun : Machine.run Broadcast.step { reactors := orderBuses } (orderPublished ++
      [.settle 0 true, .settle 0 true, .bus 0 .stop, .bus 1 .stop, .bus 0 (.unsubscribed 0),
        .bus 1 (.unsubscribed 0), .bus 0 (.drained 0), .bus 1 (.drained 0),
        .bus 0 (.disconnected 0 true), .bus 1 (.disconnected 0 true)]) =
      some ({ adapter := { created := 2 }
              reactors := [stoppedBus 0, stoppedBus 1]
              published := 1 },
        [.published 0 [0, 1], .handed 0 0, .handed 0 1, .stopping 0, .stopping 1]) := by decide
  exact independent_of_careful hcreate (by decide) hrun

/-- The handler of the first reactor throws, and the second one never sees the event. -/
theorem later_reactor_not_reached :
    ¬ ∀ (reactors : List BroadcastReactor) (buses : List ReactorBus) (as : List Action)
      (s : Broadcast) (log : List Event), createBroadcastSubscribers reactors = .ok buses →
        Machine.run Broadcast.step { reactors := buses } as = some (s, log) →
        Independent s log := by
  intro h
  have hrun : Machine.run Broadcast.step { reactors := orderBuses }
      (orderPublished ++ [.settle 0 false]) =
      some ({ adapter := ⟨true, [⟨0, ["order.created"], 0⟩, ⟨1, ["order.created"], 1⟩], 2⟩
              reactors := [startedBus 0, startedBus 1]
              published := 1 },
        [.published 0 [0, 1], .handed 0 0]) := by decide
  have hindependent := h orderReactors orderBuses _ _ _ rfl hrun
  exact absurd (hindependent.handed 0 1 (by decide) rfl) (by decide)

/-- The first bus is stopped, and the second one cannot publish to itself. -/
example : (Machine.run Broadcast.step { reactors := orderBuses } (orderPublished.dropLast ++
    [.bus 0 .stop, .bus 0 (.unsubscribed 0), .bus 0 (.drained 0),
      .publish (some 1) "order.created"])).map Prod.snd =
    some [.stopping 0, .refused [1]] := by decide

end Connectum.Events.Broadcast
