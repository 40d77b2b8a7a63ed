import Connectum.Session

/-! The lifecycle of an event bus: any number of `start()` and `stop()` calls, interleaved at
their awaits, over the flags and promises that the calls share. -/
namespace Connectum.Events

/-- The message type name and the topic of each route entry, and of each method of the
publish-only services. -/
structure BusRoutes where
  entries : List (String × String)
  publishes : List (String × String)
  deriving DecidableEq, Repr

def setPublishTopic (publishTopicMap : List (String × String)) (entry : String × String) :
    Except String (List (String × String)) :=
  match entry, publishTopicMap.lookup entry.1 with
  | (messageType, topic), some existingTopic =>
    if existingTopic ≠ topic then
      .error s!"Ambiguous publish topic for \"{messageType}\": \"{existingTopic}\" and \"{topic}\". Pass publishOptions.topic explicitly."
    else .ok publishTopicMap
  | entry, none => .ok (publishTopicMap ++ [entry])

def registerTopic (topics : List String) (topic : String) : Except String (List String) :=
  if topic ∈ topics then
    .error (s!"Duplicate event topic \"{topic}\" on one EventBus — a topic can have at most one handler per bus. " ++
      "For INDEPENDENT broadcast reactors on the same topic, give each its OWN EventBus with a distinct consumer group (see createBroadcastSubscribers). " ++
      "To route DISTINCT events, give them distinct (connectum.events.v1.event).topic options.")
  else .ok (topics ++ [topic])

/-- The synchronous part of `start` after the connection: the publish topic lookup and the
topics to subscribe to. -/
def BusRoutes.prepare (routes : BusRoutes) :
    Except String (List (String × String) × List String) := do
  let fromRoutes ← routes.entries.foldlM setPublishTopic []
  let publishTopicMap ← routes.publishes.foldlM setPublishTopic fromRoutes
  let topics ← (routes.entries.map Prod.snd).foldlM registerTopic []
  return (publishTopicMap, topics)

namespace Lifecycle

/-- The await at which a `start()` is suspended; the last two are its `catch` block. -/
inductive StartPhase where
  | connecting
  | subscribing
  | unwinding
  | disconnecting
  deriving DecidableEq, Repr

/-- The await at which a stop sequence is suspended. -/
inductive StopPhase where
  | unsubscribing
  | draining
  | disconnecting
  deriving DecidableEq, Repr

/-- A stop sequence, with the incarnation of the bus that its `stop()` observed as started. -/
structure StopRun where
  id : ℕ
  phase : StopPhase
  incarnation : ℕ
  deriving DecidableEq, Repr

/-- The variables of `createEventBus` and the calls in progress. Promises are numbered;
`waiting` holds the start promise that each suspended `stop()` awaits, and `starts` numbers
the incarnations. -/
structure Bus where
  started : Bool := false
  starting : Bool := false
  stopping : Bool := false
  draining : Bool := false
  startPromise : Option ℕ := none
  stopPromise : Option ℕ := none
  subscriptions : ℕ := 0
  startRun : Option StartPhase := none
  waiting : List ℕ := []
  stopRuns : List StopRun := []
  starts : ℕ := 0
  stops : ℕ := 0
  deriving DecidableEq, Repr

inductive Action where
  | start
  | connected (ok : Bool)
  | subscribed (ok : Bool)
  | unwound
  | rolledBack (ok : Bool)
  | stop
  | resume (k : ℕ)
  | unsubscribed (id : ℕ)
  | drained (id : ℕ)
  | disconnected (id : ℕ) (ok : Bool)
  deriving DecidableEq, Repr

/-- What the adapter sees. A `disconnect` carries the incarnation that the stop sequence
observed (`none` in a failed start) and the one it hits. -/
inductive Event where
  | connect
  | connectSucceeded
  | connectFailed
  | subscribe (topics : List String)
  | disconnect (observed : Option ℕ) (current : ℕ)
  deriving DecidableEq, Repr

def Event.session : Event → Option Session.Event
  | .connect => some .acquire
  | .connectSucceeded => some .acquired
  | .connectFailed => some .refused
  | .subscribe _ => none
  | .disconnect _ _ => some .release

namespace Bus

/-- The `finally` block of `start`. -/
def finishStart (s : Bus) : Bus :=
  { s with starting := false, startPromise := none, startRun := none }

/-- The synchronous part of `stop()` once it goes ahead. -/
def beginStop (s : Bus) : Bus :=
  { s with
    stopping := true
    draining := true
    stopPromise := some s.stops
    stopRuns := s.stopRuns ++ [⟨s.stops, .unsubscribing, s.starts⟩]
    stops := s.stops + 1 }

def setPhase (s : Bus) (id : ℕ) (phase : StopPhase) : Bus :=
  { s with stopRuns := s.stopRuns.map fun r => if r.id = id then { r with phase } else r }

/-- The `finally` block of a stop sequence. -/
def finishStop (s : Bus) (id : ℕ) : Bus :=
  { s with
    started := false
    stopping := false
    draining := false
    stopPromise := none
    stopRuns := s.stopRuns.filter fun r => r.id ≠ id }

def stopRun (s : Bus) (id : ℕ) (phase : StopPhase) : Option StopRun :=
  s.stopRuns.find? fun r => r.id = id ∧ r.phase = phase

/-- One synchronous stretch of the bus, from one await to the next. -/
def step (routes : BusRoutes) (s : Bus) : Action → Option (Bus × List Event)
  | .start =>
    -- `start()` rejects with "EventBus already started or stopping"
    if s.started || s.starting || s.stopping then some (s, [])
    else some ({ s with
      starting := true
      startPromise := some s.starts
      startRun := some .connecting
      starts := s.starts + 1 }, [.connect])
  | .connected ok =>
    if s.startRun ≠ some .connecting then none
    else if ok then
      match routes.prepare with
      | .error _ => some ({ s with startRun := some .unwinding }, [.connectSucceeded])
      | .ok (_, []) => some ({ s with started := true }.finishStart, [.connectSucceeded])
      | .ok (_, allTopics) =>
        some ({ s with startRun := some .subscribing }, [.connectSucceeded, .subscribe allTopics])
    else some ({ s with startRun := some .unwinding }, [.connectFailed])
  | .subscribed ok =>
    if s.startRun ≠ some .subscribing then none
    else if ok then
      some ({ s with started := true, subscriptions := s.subscriptions + 1 }.finishStart, [])
    else some ({ s with startRun := some .unwinding }, [])
  | .unwound =>
    if s.startRun ≠ some .unwinding then none
    else some ({ s with startRun := some .disconnecting, subscriptions := 0 },
      [.disconnect none s.starts])
  | .rolledBack _ =>
    if s.startRun ≠ some .disconnecting then none else some (s.finishStart, [])
  | .stop =>
    match s.stopPromise, s.startPromise with
    | some _, _ => some (s, [])
    | none, some p =>
      if s.starting then some ({ s with waiting := s.waiting ++ [p] }, [])
      else if s.started then some (s.beginStop, []) else some (s, [])
    | none, none => if s.started then some (s.beginStop, []) else some (s, [])
  | .resume k =>
    match s.waiting[k]? with
    | none => none
    | some p =>
      if s.startPromise = some p then none
      -- after the await, only `started` is checked again
      else if s.started then some ({ s with waiting := s.waiting.eraseIdx k }.beginStop, [])
      else some ({ s with waiting := s.waiting.eraseIdx k }, [])
  | .unsubscribed id =>
    match s.stopRun id .unsubscribing with
    | none => none
    | some _ => some ({ s with subscriptions := 0 }.setPhase id .draining, [])
  | .drained id =>
    match s.stopRun id .draining with
    | none => none
    | some r => some (s.setPhase id .disconnecting, [.disconnect (some r.incarnation) s.starts])
  | .disconnected id _ =>
    match s.stopRun id .disconnecting with
    | none => none
    | some _ => some (s.finishStop id, [])

end Bus
/-- The single-flight lifecycle: what the bus is for, with at most one `start()` and at most
one stop sequence under way. -/
inductive Mode where
  | stopped
  | starting (phase : StartPhase)
  | started
  | stopping (r : StopRun)
  deriving DecidableEq, Repr

namespace Mode

def isStarted : Mode → Bool
  | .started | .stopping _ => true
  | .stopped | .starting _ => false

def startRun : Mode → Option StartPhase
  | .starting phase => some phase
  | _ => none

def stopRuns : Mode → List StopRun
  | .stopping r => [r]
  | _ => []

/-- The states of the connection that a mode allows. -/
def sessions : Mode → List Session.State
  | .stopped => [.down]
  | .starting .connecting => [.acquiring]
  | .starting .subscribing => [.up]
  | .starting .unwinding => [.up, .failed]
  | .starting .disconnecting => [.down]
  | .started => [.up]
  | .stopping r => if r.phase = .disconnecting then [.down] else [.up]

/-- The transitions of the single-flight lifecycle and what the adapter sees of them. -/
inductive Move : Mode → List Event → Mode → Prop where
  | stay {m} : Move m [] m
  | start : Move .stopped [.connect] (.starting .connecting)
  | connectFails : Move (.starting .connecting) [.connectFailed] (.starting .unwinding)
  | prepareFails : Move (.starting .connecting) [.connectSucceeded] (.starting .unwinding)
  | startsIdle : Move (.starting .connecting) [.connectSucceeded] .started
  | subscribes {topics} : Move (.starting .connecting) [.connectSucceeded, .subscribe topics]
      (.starting .subscribing)
  | subscribed : Move (.starting .subscribing) [] .started
  | subscribeFails : Move (.starting .subscribing) [] (.starting .unwinding)
  | unwound {current} :
      Move (.starting .unwinding) [.disconnect none current] (.starting .disconnecting)
  | rolledBack : Move (.starting .disconnecting) [] .stopped
  | stop {id incarnation} : Move .started [] (.stopping ⟨id, .unsubscribing, incarnation⟩)
  | unsubscribed {id incarnation} : Move (.stopping ⟨id, .unsubscribing, incarnation⟩) []
      (.stopping ⟨id, .draining, incarnation⟩)
  | drained {id incarnation} : Move (.stopping ⟨id, .draining, incarnation⟩)
      [.disconnect (some incarnation) incarnation] (.stopping ⟨id, .disconnecting, incarnation⟩)
  | disconnected {id incarnation} : Move (.stopping ⟨id, .disconnecting, incarnation⟩) [] .stopped

/-- The moves together with the actions that make them. -/
inductive Transition (routes : BusRoutes) : Mode → Action → List Event → Mode → Prop where
  | starts {m} : Transition routes m .start [] m
  | stops {m} : Transition routes m .stop [] m
  | resumes {m k} : Transition routes m (.resume k) [] m
  | start : Transition routes .stopped .start [.connect] (.starting .connecting)
  | connectFails : Transition routes (.starting .connecting) (.connected false) [.connectFailed]
      (.starting .unwinding)
  | prepareFails : Transition routes (.starting .connecting) (.connected true) [.connectSucceeded]
      (.starting .unwinding)
  | startsIdle {publishTopicMap} (h : routes.prepare = .ok (publishTopicMap, [])) :
      Transition routes (.starting .connecting) (.connected true) [.connectSucceeded] .started
  | subscribes {publishTopicMap topics} (h : routes.prepare = .ok (publishTopicMap, topics)) :
      Transition routes (.starting .connecting) (.connected true)
        [.connectSucceeded, .subscribe topics] (.starting .subscribing)
  | subscribed : Transition routes (.starting .subscribing) (.subscribed true) [] .started
  | subscribeFails : Transition routes (.starting .subscribing) (.subscribed false) []
      (.starting .unwinding)
  | unwound {current} : Transition routes (.starting .unwinding) .unwound
      [.disconnect none current] (.starting .disconnecting)
  | rolledBack {ok} : Transition routes (.starting .disconnecting) (.rolledBack ok) [] .stopped
  | stop {id incarnation} :
      Transition routes .started .stop [] (.stopping ⟨id, .unsubscribing, incarnation⟩)
  | resumeStop {k id incarnation} :
      Transition routes .started (.resume k) [] (.stopping ⟨id, .unsubscribing, incarnation⟩)
  | unsubscribed {id incarnation} :
      Transition routes (.stopping ⟨id, .unsubscribing, incarnation⟩) (.unsubscribed id) []
        (.stopping ⟨id, .draining, incarnation⟩)
  | drained {id incarnation} :
      Transition routes (.stopping ⟨id, .draining, incarnation⟩) (.drained id)
        [.disconnect (some incarnation) incarnation] (.stopping ⟨id, .disconnecting, incarnation⟩)
  | disconnected {id incarnation ok} :
      Transition routes (.stopping ⟨id, .disconnecting, incarnation⟩) (.disconnected id ok) []
        .stopped

theorem Transition.move {routes : BusRoutes} {m m' : Mode} {a : Action} {out : List Event}
    (h : Transition routes m a out m') : Move m out m' := by
  cases h with
  | starts | stops | resumes => exact .stay
  | start => exact .start
  | connectFails => exact .connectFails
  | prepareFails => exact .prepareFails
  | startsIdle => exact .startsIdle
  | subscribes => exact .subscribes
  | subscribed => exact .subscribed
  | subscribeFails => exact .subscribeFails
  | unwound => exact .unwound
  | rolledBack => exact .rolledBack
  | stop | resumeStop => exact .stop
  | unsubscribed => exact .unsubscribed
  | drained => exact .drained
  | disconnected => exact .disconnected

/-- The lifecycle uses its connection as a session. -/
theorem Move.simulates {m m' : Mode} {out : List Event} (h : Move m out m') {q : Session.State}
    (hq : q ∈ m.sessions) :
    ∃ es q', Machine.run Session.step q es = some (q', out.filterMap Event.session) ∧
      q' ∈ m'.sessions := by
  cases h with
  | stay => exact ⟨[], q, by simp, hq⟩
  | start =>
    obtain rfl := List.mem_singleton.mp hq
    exact ⟨[.acquire], .acquiring, rfl, by simp [sessions]⟩
  | connectFails =>
    obtain rfl := List.mem_singleton.mp hq
    exact ⟨[.refused], .failed, rfl, by simp [sessions]⟩
  | prepareFails =>
    obtain rfl := List.mem_singleton.mp hq
    exact ⟨[.acquired], .up, rfl, by simp [sessions]⟩
  | startsIdle =>
    obtain rfl := List.mem_singleton.mp hq
    exact ⟨[.acquired], .up, rfl, by simp [sessions]⟩
  | subscribes =>
    obtain rfl := List.mem_singleton.mp hq
    exact ⟨[.acquired], .up, rfl, by simp [sessions]⟩
  | subscribed => exact ⟨[], q, by simp, hq⟩
  | subscribeFails =>
    obtain rfl := List.mem_singleton.mp hq
    exact ⟨[], .up, rfl, by simp [sessions]⟩
  | unwound =>
    refine ⟨[.release], .down, ?_, by simp [sessions]⟩
    simp only [sessions, List.mem_cons, List.not_mem_nil, or_false] at hq
    rcases hq with rfl | rfl <;> rfl
  | rolledBack => exact ⟨[], q, by simp, hq⟩
  | stop => exact ⟨[], q, by simp, hq⟩
  | unsubscribed => exact ⟨[], q, by simp, hq⟩
  | drained =>
    obtain rfl := List.mem_singleton.mp hq
    exact ⟨[.release], .down, rfl, by simp [sessions]⟩
  | disconnected => exact ⟨[], q, by simp, hq⟩

end Mode

/-- The variables of the bus are those of a single-flight mode, and a stop sequence is one of
the current incarnation. -/
structure Shape (m : Mode) (s : Bus) : Prop where
  started : s.started = m.isStarted
  starting : s.starting = m.startRun.isSome
  stopping : s.stopping = !m.stopRuns.isEmpty
  startPromise : s.startPromise.isSome = m.startRun.isSome
  stopPromise : s.stopPromise.isSome = !m.stopRuns.isEmpty
  startRun : s.startRun = m.startRun
  stopRuns : s.stopRuns = m.stopRuns
  incarnation : ∀ r ∈ m.stopRuns, r.incarnation = s.starts

/-- A `stop()` that waited for a `start()` goes ahead while another stop sequence runs. -/
def doubleStop (s : Bus) : Action → Bool
  | .resume _ => s.started && s.stopPromise.isSome
  | _ => false

variable {routes : BusRoutes} {m : Mode} {s s' : Bus} {out : List Event}

theorem initial_shape : Shape .stopped {} := by
  constructor <;> simp [Mode.isStarted, Mode.startRun, Mode.stopRuns]

/-- A mode does not depend on the calls that wait, nor on the number of subscriptions. -/
theorem Shape.frame (h : Shape m s) (waiting : List ℕ) (subscriptions : ℕ) :
    Shape m { s with waiting, subscriptions } :=
  ⟨h.started, h.starting, h.stopping, h.startPromise, h.stopPromise, h.startRun, h.stopRuns,
    h.incarnation⟩

theorem Shape.mode_of_startRun {phase : StartPhase} (h : Shape m s)
    (hr : s.startRun = some phase) : m = .starting phase := by
  have hm := h.startRun.symm.trans hr
  cases m <;> simp_all [Mode.startRun]

theorem Shape.mode_of_started (h : Shape m s) (hs : s.started = true)
    (hp : s.stopPromise = none) : m = .started := by
  have h1 := h.started
  have h2 := h.stopPromise
  cases m <;> simp_all [Mode.isStarted, Mode.stopRuns]

theorem Shape.mode_of_stopRun {id : ℕ} {phase : StopPhase} {r : StopRun} (h : Shape m s)
    (hr : s.stopRun id phase = some r) :
    m = .stopping ⟨id, phase, r.incarnation⟩ ∧ r = ⟨id, phase, r.incarnation⟩ := by
  have hmem := List.mem_of_find?_eq_some hr
  have hprop := List.find?_some hr
  simp only [decide_eq_true_eq] at hprop
  have hrun : r = ⟨id, phase, r.incarnation⟩ := by
    obtain ⟨rfl, rfl⟩ := hprop
    rfl
  rw [h.stopRuns] at hmem
  cases m with
  | stopping r' =>
    obtain rfl := List.mem_singleton.mp hmem
    exact ⟨congrArg Mode.stopping hrun, hrun⟩
  | _ => simp [Mode.stopRuns] at hmem

/-- Only `startRun` changes while a `start()` moves from one await to the next. -/
theorem Shape.setStartRun {phase phase' : StartPhase} (h : Shape (.starting phase) s) :
    Shape (.starting phase') { s with startRun := some phase' } :=
  ⟨h.started, h.starting, h.stopping, h.startPromise, h.stopPromise, rfl, h.stopRuns,
    h.incarnation⟩

theorem Shape.succeed {phase : StartPhase} (h : Shape (.starting phase) s) :
    Shape .started { s with started := true }.finishStart :=
  ⟨rfl, rfl, h.stopping, rfl, h.stopPromise, rfl, h.stopRuns, h.incarnation⟩

theorem Shape.fail {phase : StartPhase} (h : Shape (.starting phase) s) :
    Shape .stopped s.finishStart :=
  ⟨h.started, rfl, h.stopping, rfl, h.stopPromise, rfl, h.stopRuns, h.incarnation⟩

theorem Shape.beginStop (h : Shape .started s) :
    Shape (.stopping ⟨s.stops, .unsubscribing, s.starts⟩) s.beginStop where
  started := h.started
  starting := h.starting
  stopping := rfl
  startPromise := h.startPromise
  stopPromise := rfl
  startRun := h.startRun
  stopRuns := by simp [Bus.beginStop, h.stopRuns, Mode.stopRuns]
  incarnation := by simp [Mode.stopRuns, Bus.beginStop]

theorem Shape.setPhase {id incarnation : ℕ} {phase phase' : StopPhase}
    (h : Shape (.stopping ⟨id, phase, incarnation⟩) s) :
    Shape (.stopping ⟨id, phase', incarnation⟩) (s.setPhase id phase') where
  started := h.started
  starting := h.starting
  stopping := h.stopping
  startPromise := h.startPromise
  stopPromise := h.stopPromise
  startRun := h.startRun
  stopRuns := by simp [Bus.setPhase, h.stopRuns, Mode.stopRuns]
  incarnation := by simpa [Mode.stopRuns, Bus.setPhase] using h.incarnation

theorem Shape.finishStop {id incarnation : ℕ} {phase : StopPhase}
    (h : Shape (.stopping ⟨id, phase, incarnation⟩) s) : Shape .stopped (s.finishStop id) where
  started := rfl
  starting := h.starting
  stopping := rfl
  startPromise := h.startPromise
  stopPromise := rfl
  startRun := h.startRun
  stopRuns := by simp [Bus.finishStop, h.stopRuns, Mode.stopRuns]
  incarnation := by simp [Mode.stopRuns]

theorem Shape.start (h : Shape m s) (hs : s.step routes .start = some (s', out)) :
    ∃ m', Shape m' s' ∧ Mode.Transition routes m .start out m' := by
  simp only [Bus.step] at hs
  split at hs
  · obtain ⟨rfl, rfl⟩ := Prod.mk.inj (Option.some.inj hs)
    exact ⟨m, h, .starts⟩
  next hidle =>
    obtain ⟨rfl, rfl⟩ := Prod.mk.inj (Option.some.inj hs)
    have hm : m = .stopped := by
      simp only [h.started, h.starting, h.stopping] at hidle
      cases m <;> simp_all [Mode.isStarted, Mode.startRun, Mode.stopRuns]
    subst hm
    exact ⟨.starting .connecting, ⟨h.started, rfl, h.stopping, rfl, h.stopPromise, rfl,
      h.stopRuns, by simp [Mode.stopRuns]⟩, .start⟩

theorem Shape.connected {ok : Bool} (h : Shape m s)
    (hs : s.step routes (.connected ok) = some (s', out)) :
    ∃ m', Shape m' s' ∧ Mode.Transition routes m (.connected ok) out m' := by
  simp only [Bus.step, ne_eq, ite_not] at hs
  split at hs
  next hrun =>
    obtain rfl := h.mode_of_startRun hrun
    cases ok with
    | true =>
      rw [if_pos rfl] at hs
      split at hs <;> obtain ⟨rfl, rfl⟩ := Prod.mk.inj (Option.some.inj hs)
      next => exact ⟨_, h.setStartRun, .prepareFails⟩
      next hprepare => exact ⟨_, h.succeed, .startsIdle hprepare⟩
      next hprepare => exact ⟨_, h.setStartRun, .subscribes hprepare⟩
    | false =>
      obtain ⟨rfl, rfl⟩ := Prod.mk.inj (Option.some.inj hs)
      exact ⟨_, h.setStartRun, .connectFails⟩
  next => simp at hs

theorem Shape.subscribed {ok : Bool} (h : Shape m s)
    (hs : s.step routes (.subscribed ok) = some (s', out)) :
    ∃ m', Shape m' s' ∧ Mode.Transition routes m (.subscribed ok) out m' := by
  simp only [Bus.step, ne_eq, ite_not] at hs
  split at hs
  next hrun =>
    obtain rfl := h.mode_of_startRun hrun
    cases ok with
    | true =>
      obtain ⟨rfl, rfl⟩ := Prod.mk.inj (Option.some.inj hs)
      exact ⟨_, (h.frame s.waiting (s.subscriptions + 1)).succeed, .subscribed⟩
    | false =>
      obtain ⟨rfl, rfl⟩ := Prod.mk.inj (Option.some.inj hs)
      exact ⟨_, h.setStartRun, .subscribeFails⟩
  next => simp at hs

theorem Shape.unwound (h : Shape m s) (hs : s.step routes .unwound = some (s', out)) :
    ∃ m', Shape m' s' ∧ Mode.Transition routes m .unwound out m' := by
  simp only [Bus.step, ne_eq, ite_not] at hs
  split at hs
  next hrun =>
    obtain rfl := h.mode_of_startRun hrun
    obtain ⟨rfl, rfl⟩ := Prod.mk.inj (Option.some.inj hs)
    exact ⟨_, (h.frame s.waiting 0).setStartRun, .unwound⟩
  next => simp at hs

theorem Shape.rolledBack {ok : Bool} (h : Shape m s)
    (hs : s.step routes (.rolledBack ok) = some (s', out)) :
    ∃ m', Shape m' s' ∧ Mode.Transition routes m (.rolledBack ok) out m' := by
  simp only [Bus.step, ne_eq, ite_not] at hs
  split at hs
  next hrun =>
    obtain rfl := h.mode_of_startRun hrun
    obtain ⟨rfl, rfl⟩ := Prod.mk.inj (Option.some.inj hs)
    exact ⟨_, h.fail, .rolledBack⟩
  next => simp at hs

theorem Shape.stop (h : Shape m s) (hs : s.step routes .stop = some (s', out)) :
    ∃ m', Shape m' s' ∧ Mode.Transition routes m .stop out m' := by
  have hbegin {t : Bus} (hp : s.stopPromise = none)
      (ht : (if s.started = true then some (s.beginStop, []) else some (s, [])) =
        some (t, out)) : ∃ m', Shape m' t ∧ Mode.Transition routes m .stop out m' := by
    split at ht <;> obtain ⟨rfl, rfl⟩ := Prod.mk.inj (Option.some.inj ht)
    next hstarted =>
      obtain rfl := h.mode_of_started hstarted hp
      exact ⟨_, h.beginStop, .stop⟩
    next => exact ⟨m, h, .stops⟩
  simp only [Bus.step] at hs
  split at hs
  · obtain ⟨rfl, rfl⟩ := Prod.mk.inj (Option.some.inj hs)
    exact ⟨m, h, .stops⟩
  next hp _ =>
    split at hs
    · obtain ⟨rfl, rfl⟩ := Prod.mk.inj (Option.some.inj hs)
      exact ⟨m, h.frame _ _, .stops⟩
    · exact hbegin hp hs
  next hp _ => exact hbegin hp hs

/-- The only place where the condition matters: the resumed `stop()` looks at `started`
alone. -/
theorem Shape.resume {k : ℕ} (h : Shape m s) (ha : doubleStop s (.resume k) = false)
    (hs : s.step routes (.resume k) = some (s', out)) :
    ∃ m', Shape m' s' ∧ Mode.Transition routes m (.resume k) out m' := by
  simp only [Bus.step] at hs
  split at hs
  · simp at hs
  next =>
    split at hs
    · simp at hs
    next =>
      split at hs <;> obtain ⟨rfl, rfl⟩ := Prod.mk.inj (Option.some.inj hs)
      next hstarted =>
        have hp : s.stopPromise = none := by simpa [doubleStop, hstarted] using ha
        obtain rfl := h.mode_of_started hstarted hp
        exact ⟨_, (h.frame (s.waiting.eraseIdx k) s.subscriptions).beginStop, .resumeStop⟩
      next => exact ⟨m, h.frame _ _, .resumes⟩

theorem Shape.unsubscribed {id : ℕ} (h : Shape m s)
    (hs : s.step routes (.unsubscribed id) = some (s', out)) :
    ∃ m', Shape m' s' ∧ Mode.Transition routes m (.unsubscribed id) out m' := by
  simp only [Bus.step] at hs
  split at hs
  · simp at hs
  next r hr =>
    obtain ⟨rfl, -⟩ := h.mode_of_stopRun hr
    obtain ⟨rfl, rfl⟩ := Prod.mk.inj (Option.some.inj hs)
    exact ⟨_, (h.frame s.waiting 0).setPhase, .unsubscribed⟩

theorem Shape.drained {id : ℕ} (h : Shape m s)
    (hs : s.step routes (.drained id) = some (s', out)) :
    ∃ m', Shape m' s' ∧ Mode.Transition routes m (.drained id) out m' := by
  simp only [Bus.step] at hs
  split at hs
  · simp at hs
  next r hr =>
    obtain ⟨rfl, -⟩ := h.mode_of_stopRun hr
    obtain ⟨rfl, rfl⟩ := Prod.mk.inj (Option.some.inj hs)
    have hcurrent : r.incarnation = s.starts :=
      h.incarnation ⟨id, .draining, r.incarnation⟩ (List.mem_singleton_self _)
    exact ⟨_, h.setPhase, hcurrent ▸ .drained⟩

theorem Shape.disconnected {id : ℕ} {ok : Bool} (h : Shape m s)
    (hs : s.step routes (.disconnected id ok) = some (s', out)) :
    ∃ m', Shape m' s' ∧ Mode.Transition routes m (.disconnected id ok) out m' := by
  simp only [Bus.step] at hs
  split at hs
  · simp at hs
  next r hr =>
    obtain ⟨rfl, -⟩ := h.mode_of_stopRun hr
    obtain ⟨rfl, rfl⟩ := Prod.mk.inj (Option.some.inj hs)
    exact ⟨_, h.finishStop, .disconnected⟩

/-- Every step but a double stop is a transition of the single-flight lifecycle. -/
theorem Shape.transition {a : Action} (h : Shape m s) (ha : doubleStop s a = false)
    (hs : s.step routes a = some (s', out)) :
    ∃ m', Shape m' s' ∧ Mode.Transition routes m a out m' := by
  cases a with
  | start => exact h.start hs
  | connected ok => exact h.connected hs
  | subscribed ok => exact h.subscribed hs
  | unwound => exact h.unwound hs
  | rolledBack ok => exact h.rolledBack hs
  | stop => exact h.stop hs
  | resume k => exact h.resume ha hs
  | unsubscribed id => exact h.unsubscribed hs
  | drained id => exact h.drained hs
  | disconnected id ok => exact h.disconnected hs

theorem Shape.step {a : Action} (h : Shape m s) (ha : doubleStop s a = false)
    (hs : s.step routes a = some (s', out)) : ∃ m', Shape m' s' ∧ Mode.Move m out m' := by
  obtain ⟨m', h', ht⟩ := h.transition ha hs
  exact ⟨m', h', ht.move⟩

/-- Single flight of a history: every successful connect is followed by exactly one disconnect
before the next connect, at most one stop sequence runs, and a stop sequence disconnects only
the incarnation that it observed. -/
structure SingleFlight (s : Bus) (log : List Event) : Prop where
  session : Session.ReleasedOnce (log.filterMap Event.session)
  stops : s.stopRuns.length ≤ 1
  incarnation : ∀ observed current,
    .disconnect (some observed) current ∈ log → observed = current

theorem Mode.Move.incarnation {m m' : Mode} {out : List Event} (h : Mode.Move m out m')
    {observed current : ℕ} (hd : .disconnect (some observed) current ∈ out) :
    observed = current := by
  cases h <;> simp at hd
  omega

theorem Shape.stopRuns_length (h : Shape m s) : s.stopRuns.length ≤ 1 := by
  rw [h.stopRuns]
  cases m <;> simp [Mode.stopRuns]

theorem singleFlight_of_meets {as : List Action} {log : List Event}
    (hmeets : Machine.Meets (Bus.step routes) (fun s a => doubleStop s a = false) {} as)
    (hrun : Machine.run (Bus.step routes) {} as = some (s, log)) :
    (∃ m, Shape m s) ∧ SingleFlight s log := by
  have hshape : ∃ m, Shape m s := Machine.run_preserves_of_meets
    (P := fun s => ∃ m, Shape m s)
    (fun s a t out ⟨m, h⟩ ha hs => (h.step ha hs).imp fun _ h => h.1)
    ⟨_, initial_shape⟩ hmeets hrun
  have hsession := Machine.run_simulation (S := Session.step)
    (R := fun s q => ∃ m, Shape m s ∧ q ∈ m.sessions) Event.session
    (fun s q a s' out ⟨m, h, hq⟩ ha hs => by
      obtain ⟨m', h', hmove⟩ := h.step ha hs
      obtain ⟨es, q', hes, hq'⟩ := hmove.simulates hq
      exact ⟨es, q', hes, m', h', hq'⟩)
    ⟨.stopped, initial_shape, List.mem_singleton_self _⟩ hmeets hrun
  have hincarnation : (∃ m, Shape m s) ∧ ∀ observed current,
      .disconnect (some observed) current ∈ log → observed = current :=
    Machine.run_invariant_of_meets (l := [])
      (I := fun s log => (∃ m, Shape m s) ∧ ∀ observed current,
        .disconnect (some observed) current ∈ log → observed = current)
      (fun s log a t out ⟨⟨m, h⟩, hlog⟩ ha hs => by
        obtain ⟨m', h', hmove⟩ := h.step ha hs
        refine ⟨⟨m', h'⟩, fun observed current hd => ?_⟩
        rcases List.mem_append.mp hd with hd | hd
        · exact hlog observed current hd
        · exact hmove.incarnation hd)
      ⟨⟨_, initial_shape⟩, by simp⟩ hmeets hrun
  obtain ⟨es, q, hes, -⟩ := hsession
  obtain ⟨m, h⟩ := hshape
  exact ⟨⟨m, h⟩, Session.releasedOnce_of_run hes, h.stopRuns_length, hincarnation.2⟩

/-- A double stop leaves two stop sequences running. -/
theorem Shape.doubleStop {a : Action} (h : Shape m s) (ha : doubleStop s a = true)
    (hs : s.step routes a = some (s', out)) : 2 ≤ s'.stopRuns.length := by
  cases a with
  | resume k =>
    obtain ⟨hstarted, hp⟩ := Bool.and_eq_true_iff.mp ha
    have hone : 1 ≤ s.stopRuns.length := by
      have hruns := h.stopPromise.symm.trans hp
      rw [h.stopRuns]
      cases m <;> simp_all [Mode.stopRuns]
    simp only [Bus.step] at hs
    split at hs
    · simp at hs
    next =>
      split at hs
      · simp at hs
      next =>
        obtain ⟨rfl, -⟩ := Prod.mk.inj (Option.some.inj hs)
        simp only [Bus.beginStop, List.length_append, List.length_singleton]
        omega
  | _ => simp [Lifecycle.doubleStop] at ha

/-- The lifecycle is single-flight in every state that an execution reaches if and only if no
`stop()` that waited for a `start()` goes ahead while another stop sequence runs. -/
theorem single_flight_iff_no_double_stop (routes : BusRoutes) {as : List Action} {s : Bus}
    {log : List Event} (hrun : Machine.run (Bus.step routes) {} as = some (s, log)) :
    Machine.Meets (Bus.step routes) (fun s a => doubleStop s a = false) {} as ↔
      ∀ before after t l, as = before ++ after →
        Machine.run (Bus.step routes) {} before = some (t, l) → SingleFlight t l := by
  constructor
  · rintro hmeets before after t l rfl ht
    exact (singleFlight_of_meets ((Machine.meets_append ht).mp hmeets).1 ht).2
  · intro hall
    by_contra hviolated
    obtain ⟨before, a, after, t, l, rfl, hbefore, hmeets, ha⟩ :=
      Machine.exists_violation hrun hviolated
    obtain ⟨⟨m, h⟩, -⟩ := singleFlight_of_meets hmeets hbefore
    obtain ⟨t', l', r, hb, hrest, -⟩ := Machine.run_append.mp hrun
    rw [hbefore] at hb
    obtain ⟨rfl, rfl⟩ := Prod.mk.inj (Option.some.inj hb)
    obtain ⟨u, o, rest, hstep, -, -⟩ := Machine.run_cons.mp hrest
    have htwo := h.doubleStop (by simpa using ha) hstep
    have hone := hall (before ++ [a]) after u (l ++ o) (by simp)
      (Machine.run_append.mpr ⟨t, l, o, hbefore, Machine.run_singleton.mpr hstep, rfl⟩)
    exact absurd hone.stops (by omega)

theorem single_flight_iff_no_double_stop_once :
    SingleFlight { starts := 1, stops := 1 }
      [.connect, .connectSucceeded, .disconnect (some 1) 1] := by
  have hrun : Machine.run (Bus.step ⟨[], []⟩) {}
      [.start, .connected true, .stop, .unsubscribed 0, .drained 0, .disconnected 0 true] =
      some ({ starts := 1, stops := 1 },
        [.connect, .connectSucceeded, .disconnect (some 1) 1]) := by decide
  exact (single_flight_iff_no_double_stop ⟨[], []⟩ hrun).mp (by decide) _ [] _ _ (by simp) hrun

/-- Two `stop()` calls wait for the same `start()`; both go ahead, and the second disconnects
the incarnation that was started after the first had finished. -/
theorem waiting_stops_both_disconnect :
    ¬ ∀ (routes : BusRoutes) (as : List Action) (s : Bus) (log : List Event),
      Machine.run (Bus.step routes) {} as = some (s, log) → SingleFlight s log := by
  intro h
  have hrun : Machine.run (Bus.step ⟨[], []⟩) {}
      [.start, .stop, .stop, .connected true, .resume 0, .resume 0, .unsubscribed 0,
        .unsubscribed 1, .drained 0, .disconnected 0 true, .start, .connected true,
        .drained 1] =
      some ({ started := true, starts := 2, stops := 2, stopRuns := [⟨1, .disconnecting, 1⟩] },
        [.connect, .connectSucceeded, .disconnect (some 1) 1, .connect, .connectSucceeded,
          .disconnect (some 1) 2]) := by decide
  exact absurd ((h _ _ _ _ hrun).incarnation 1 2 (by decide)) (by decide)

end Lifecycle
end Connectum.Events
