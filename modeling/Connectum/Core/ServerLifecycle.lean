import Connectum.Core.Server

/-! What a step of a server can do, and the order of its effects over a whole life. -/
namespace Connectum.Core.Server
open Machine
open ShutdownManager (HookOutcome)

variable {Service Protocol Interceptor : Type}

/-- Events that tell a caller something, and those of a shutdown itself. -/
def Event.isQuiet : Event → Bool
  | .shutdown _ | .info _ | .resolved _ | .rejected _ _ | .threw _ | .unhandledRejection _
  | .emit .signal _ _ => true
  | _ => false

section
variable (options : CreateServerOptions Service Protocol Interceptor)
  (outcome : String → ℕ → HookOutcome) (depth : ℕ) (s : State Service Protocol Interceptor)

/-- The calls of `stop`. -/
inductive StopCall : Action Service Protocol Interceptor → Caller → List Event → Prop
  | user : StopCall .stop .user []
  | signal (name : String) (handler : ℕ) : StopCall (.signal name handler) .signal
      [.info ("Received " ++ name ++ ", initiating graceful shutdown...")]

/-- What `_ensureRoutesBuilt` leaves, unless it throws. -/
def RoutesOf (routes : Option (Contents Service Protocol Interceptor)) : Prop :=
  routes = s.builtRoutes ∨ (s.builtRoutes = none ∧ routes = some s.contents)

/-- The hook that stops the event bus is tried after the bus has started. -/
def ManagerOf (manager : ShutdownManager Hook) : Prop :=
  manager = s.shutdownManager ∨ ((∃ built, s.starting = .busStarting built) ∧
    manager = (s.shutdownManager.addHook (.named "eventbus" .eventBus)).1)

/-- `start` is in its `try` block. -/
def Trying : Prop :=
  s.starting = .emittingStart ∨ (∃ built, s.starting = .busStarting built) ∨
    s.starting = .listening ∨ s.starting = .emittingReady

inductive Stepped : Action Service Protocol Interceptor → State Service Protocol Interceptor →
    List Event → Prop
  | quiet {a out} (stopCallers : List Caller) (catches : List Fault) (stack : List Emitter)
      (hout : ∀ e ∈ out, e.isQuiet = true) : Stepped a { s with stopCallers, catches, stack } out
  | added {a} (contents : Contents Service Protocol Interceptor) (hstate : s.state = .created)
      (hbuilt : s.builtRoutes = none) : Stepped a { s with contents } []
  | hooked {out} (call : AddHook Hook) (hout : ∀ e ∈ out, e.isQuiet = true) :
      Stepped (.onShutdown call)
        { s with shutdownManager := (s.shutdownManager.addHook call).1 } out
  | localClient {built} (hroutes : RoutesOf s (some built)) : Stepped .localClient
      { s with
        builtRoutes := some built
        localTransport := some { mounted := s.contents, client := [] } } []
  | catalogTransport {built} (hroutes : RoutesOf s (some built)) : Stepped .catalogTransport
      { s with
        builtRoutes := some built
        catalogLocalTransport :=
          some { mounted := s.contents, client := options.outgoingInterceptors } } []
  | sessions {a} (sessions : List ℕ)
      (hlive : s.transport.server.isSome ∨ sessions.Sublist s.transport.sessions) :
      Stepped a { s with transport.sessions := sessions } []
  | startCalled (hstate : s.state = .created) : Stepped .start
      { s with state := .starting, starting := .emittingStart, stack := .start :: s.stack }
      [.emit .start .start]
  | caught {a routes manager} (stack : List Emitter) (fault : Fault) (hroutes : RoutesOf s routes)
      (hmanager : ManagerOf s manager) (hat : Trying s) :
      Stepped a
        (catchStart options
          { s with stack, builtRoutes := routes, shutdownManager := manager } fault).1
        (catchStart options
          { s with stack, builtRoutes := routes, shutdownManager := manager } fault).2
  | busStart {built} (stack : List Emitter) (hat : s.starting = .emittingStart)
      (hbus : options.eventBus = true) (hroutes : RoutesOf s (some built)) :
      Stepped .returned
        { s with stack, builtRoutes := some built, starting := .busStarting built }
        [.eventBusStart]
  | listenCalled {built} (stack : List Emitter) (hat : s.starting = .emittingStart)
      (hbus : options.eventBus = false) (hroutes : RoutesOf s (some built)) :
      Stepped .returned (listen options { s with stack, builtRoutes := some built } built).1
        [.listen]
  | busStarted {built manager} (hat : s.starting = .busStarting built)
      (hmanager : s.shutdownManager.addHook (.named "eventbus" .eventBus) = (manager, .ok ())) :
      Stepped (.busStarted (.ok ()))
        (listen options { s with shutdownManager := manager } built).1 [.listen]
  | busStopped {fault} (hat : s.starting = .busStopping fault) :
      Stepped .busStopped (startFailed s fault).1 [.emit .start .error (some fault)]
  | listened {s'} (address : AddressInfo) (message : String) (hat : s.starting = .listening)
      (hlive : s.transport.server.isSome)
      (hsignals : s' = setupAutoShutdown options { s with
        transport := { s.transport with address := some address }
        state := .running }) :
      Stepped (.listened (.ok address))
        { s' with starting := .emittingReady, stack := .start :: s'.stack }
        [.info message, .emit .start .ready]
  | startSettled {a out} (stack : List Emitter)
      (hat : s.starting = .emittingStart ∨ s.starting = .emittingReady ∨
        ∃ fault, s.starting = .emittingError fault)
      (hout : ∀ e ∈ out, e.isQuiet = true) :
      Stepped a { s with stack, starting := .settled } out
  | stopCalled {a caller events} (hcall : StopCall a caller events) (hstate : s.state = .running) :
      Stepped a
        { s with
          state := .stopping
          stopping := .emittingStopping
          stopCallers := [caller]
          stack := .stop :: s.stack }
        (events ++ [.emit .stop .stopping])
  | aborted (stack : List Emitter) (hat : s.stopping = .emittingStopping) :
      Stepped .returned
        { s with aborted := true, stopping := .aborting, stack := .stop :: stack } [.abort]
  | shutdownCalled (stack : List Emitter) (hat : s.stopping = .aborting) :
      Stepped .returned
        { removeAutoShutdown { s with stack } with
          stopping := .shuttingDown
          stopPromise := true
          shutdown := some (GracefulShutdown.performGracefulShutdown s.transport) }
        [.performGracefulShutdown]
  | shutdown {a call call' events} (hcall : s.shutdown = some call)
      (hstep : GracefulShutdown.step s.shutdownManager outcome depth
        (gracefulShutdownOptions options) { call with transport := s.transport } a =
          some (call', events)) :
      Stepped (.shutdown a) { s with shutdown := some call', transport := call'.transport }
        (events.map .shutdown)
  | stopped {call} (hat : s.stopping = .shuttingDown) (hcall : s.shutdown = some call)
      (hsettled : call.settled = some .resolved) :
      Stepped .finished
        { s with state := .stopped, stopping := .emittingStop, stack := .stop :: s.stack }
        [.emit .stop .stop]
  | stopCaught {a} (stack : List Emitter) (fault : Fault)
      (hat : s.stopping = .shuttingDown ∨ s.stopping = .emittingStop) :
      Stepped a (catchStop { s with stack } fault).1 [.emit .stop .error (some fault)]
  | stopSettled {a out} (stack : List Emitter) (stopPromise : Bool) (catches : List Fault)
      (hat : s.stopping = .emittingStopping ∨ s.stopping = .emittingStop ∨
        ∃ fault, s.stopping = .emittingError fault) (hout : ∀ e ∈ out, e.isQuiet = true) :
      Stepped a { s with stack, stopPromise, catches, stopping := .settled } out

end

variable {options : CreateServerOptions Service Protocol Interceptor}
  {outcome : String → ℕ → HookOutcome} {depth : ℕ} {s t : State Service Protocol Interceptor}
  {a : Action Service Protocol Interceptor} {out log : List Event}

/-- Before `start` is called no call is under way. -/
def Started (s : State Service Protocol Interceptor) : Prop :=
  s.state = .created → s.starting = .idle ∧ s.stopping = .idle ∧ s.shutdown = none

theorem Started.ne_created (h : Started s)
    (hat : s.starting ≠ .idle ∨ s.stopping ≠ .idle ∨ s.shutdown ≠ none) : s.state ≠ .created := by
  intro hstate
  obtain ⟨hstarting, hstopping, hshutdown⟩ := h hstate
  exact hat.elim (· hstarting) (Or.rec (· hstopping) (· hshutdown))

theorem Trying.ne_idle (h : Trying s) : s.starting ≠ .idle := by
  rcases h with h | ⟨_, h⟩ | h | h <;> simp [h]

theorem quiet_nil : ∀ e ∈ ([] : List Event), e.isQuiet = true := fun _ he => nomatch he

theorem quiet_singleton {e : Event} (h : e.isQuiet = true) : ∀ e' ∈ [e], e'.isQuiet = true := by
  intro e' he'
  rw [List.mem_singleton.mp he']
  exact h

theorem quiet_map {e : Event} {callers : List Caller} (h : e.isQuiet = true) :
    ∀ e' ∈ callers.map fun _ => e, e'.isQuiet = true := by
  intro e' he'
  obtain ⟨_, -, rfl⟩ := List.mem_map.mp he'
  exact h

theorem ensureRoutesBuilt_cases (options : CreateServerOptions Service Protocol Interceptor)
    (s : State Service Protocol Interceptor) :
    (∃ fault, ensureRoutesBuilt options s = .error fault) ∨
    ∃ built, RoutesOf s (some built) ∧
      ensureRoutesBuilt options s = .ok ({ s with builtRoutes := some built }, built) := by
  unfold ensureRoutesBuilt
  cases hbuilt : s.builtRoutes with
  | some built =>
    refine .inr ⟨built, .inl hbuilt.symm, ?_⟩
    dsimp only
    rw [← hbuilt]
  | none =>
    cases options.mount s.contents with
    | some fault => exact .inl ⟨fault, rfl⟩
    | none => exact .inr ⟨s.contents, .inr ⟨hbuilt, rfl⟩, rfl⟩

theorem stepped_add {kind : String} {contents : Contents Service Protocol Interceptor}
    (h : add s kind contents = (t, out)) : Stepped options outcome depth s a t out := by
  unfold add at h
  split at h
  next =>
    cases h
    exact .quiet s.stopCallers s.catches s.stack (quiet_singleton rfl)
  next hstate =>
    split at h
    next =>
      cases h
      exact .quiet s.stopCallers s.catches s.stack (quiet_singleton rfl)
    next hbuilt =>
      cases h
      exact .added contents (not_not.mp hstate) (Option.not_isSome_iff_eq_none.mp hbuilt)

theorem stepped_onShutdown {call : AddHook Hook} (h : onShutdown s call = (t, out)) :
    Stepped options outcome depth s (.onShutdown call) t out := by
  unfold onShutdown at h
  split at h
  next =>
    cases h
    exact .quiet s.stopCallers s.catches s.stack (quiet_singleton rfl)
  next =>
    split at h
    next manager _ hadd =>
      cases h
      have hstepped : Stepped options outcome depth s _ _ _ := .hooked call quiet_nil
      rwa [hadd] at hstepped
    next manager message hadd =>
      cases h
      have hstepped : Stepped options outcome depth s _ _ _ :=
        .hooked call (quiet_singleton (e := .threw (.error message)) rfl)
      rwa [hadd] at hstepped

theorem stepped_createLocalTransport {client : List Interceptor}
    {transport : LocalTransport Service Protocol Interceptor}
    (h : createLocalTransport options s client = .ok (t, transport)) :
    ∃ built, RoutesOf s (some built) ∧ t = { s with builtRoutes := some built } ∧
      transport = { mounted := s.contents, client } := by
  unfold createLocalTransport at h
  obtain ⟨fault, hbuilt⟩ | ⟨built, hroutes, hbuilt⟩ :=
    ensureRoutesBuilt_cases options s
  · rw [hbuilt] at h
    cases h
  · rw [hbuilt] at h
    cases h
    exact ⟨built, hroutes, rfl, rfl⟩

theorem stepped_localClient (h : localClient options s = (t, out)) :
    Stepped options outcome depth s .localClient t out := by
  unfold localClient at h
  split at h
  next =>
    cases h
    exact .quiet s.stopCallers s.catches s.stack quiet_nil
  next =>
    split at h
    next =>
      cases h
      exact .quiet s.stopCallers s.catches s.stack (quiet_singleton rfl)
    next s' transport hcreate =>
      cases h
      obtain ⟨built, hroutes, rfl, rfl⟩ := stepped_createLocalTransport hcreate
      exact .localClient hroutes

theorem stepped_catalogTransport (h : getCatalogLocalTransport options s = (t, out)) :
    Stepped options outcome depth s .catalogTransport t out := by
  unfold getCatalogLocalTransport at h
  split at h
  next =>
    cases h
    exact .quiet s.stopCallers s.catches s.stack quiet_nil
  next =>
    split at h
    next =>
      cases h
      exact .quiet s.stopCallers s.catches s.stack (quiet_singleton rfl)
    next s' transport hcreate =>
      cases h
      obtain ⟨built, hroutes, rfl, rfl⟩ := stepped_createLocalTransport hcreate
      exact .catalogTransport hroutes

theorem stepped_stop {caller : Caller} {events : List Event} (hcall : StopCall a caller events)
    (h : stop s caller = (t, out)) : Stepped options outcome depth s a t (events ++ out) := by
  have hevents : ∀ e ∈ events, e.isQuiet = true := by
    cases hcall with
    | user => exact quiet_nil
    | signal => exact quiet_singleton rfl
  unfold stop at h
  split at h
  next =>
    cases h
    rw [List.append_nil]
    exact .quiet (s.stopCallers ++ [caller]) s.catches s.stack hevents
  next =>
    split at h
    next =>
      cases h
      refine .quiet s.stopCallers _ s.stack fun e he => ?_
      rcases List.mem_append.mp he with he | he
      · exact hevents e he
      · exact quiet_map rfl e he
    next hstate =>
      cases h
      exact .stopCalled hcall (not_not.mp hstate)

theorem stepped_afterStart (stack : List Emitter)
    (hat : s.starting = .emittingStart) (h : afterStart options { s with stack } = (t, out)) :
    Stepped options outcome depth s .returned t out := by
  have hcaught (fault : Fault) {routes : Option (Contents Service Protocol Interceptor)}
      (hroutes : RoutesOf s routes)
      (h : catchStart options { s with stack, builtRoutes := routes } fault = (t, out)) :
      Stepped options outcome depth s .returned t out := by
    have hstepped : Stepped options outcome depth s .returned _ _ :=
      .caught stack fault hroutes (.inl rfl) (.inl hat)
    rwa [h] at hstepped
  unfold afterStart at h
  split at h
  next fault _ => exact hcaught fault (.inl rfl) h
  next =>
    obtain ⟨fault, hbuilt⟩ | ⟨built, hroutes, hbuilt⟩ :=
      ensureRoutesBuilt_cases options { s with stack }
    · rw [hbuilt] at h
      exact hcaught fault (.inl rfl) h
    · rw [hbuilt] at h
      dsimp only at h
      split at h
      next fault _ => exact hcaught fault hroutes h
      next =>
        split at h
        next hbus =>
          cases h
          exact .busStart stack hat hbus hroutes
        next hbus =>
          cases h
          exact .listenCalled stack hat (Bool.eq_false_iff.mpr hbus) hroutes

theorem stepped_afterBusStart {built : Contents Service Protocol Interceptor}
    {result : Except Fault Unit} (hat : s.starting = .busStarting built)
    (h : afterBusStart options s built result = (t, out)) :
    Stepped options outcome depth s (.busStarted result) t out := by
  unfold afterBusStart at h
  split at h
  next fault =>
    have hstepped : Stepped options outcome depth s (.busStarted (.error fault)) _ _ :=
      .caught s.stack fault (.inl rfl) (.inl rfl) (.inr (.inl ⟨built, hat⟩))
    rwa [h] at hstepped
  next =>
    split at h
    next manager message hadd =>
      have hmanager : ManagerOf s manager := .inr ⟨⟨built, hat⟩, by rw [hadd]⟩
      have hstepped : Stepped options outcome depth s (.busStarted (.ok ())) _ _ :=
        .caught s.stack (.error message) (.inl rfl) hmanager (.inr (.inl ⟨built, hat⟩))
      rwa [h] at hstepped
    next manager _ hadd =>
      cases h
      exact .busStarted hat hadd

theorem stepped_afterListen {result : Except Fault AddressInfo}
    (hat : s.starting = .listening) (h : afterListen options s result = (t, out)) :
    Stepped options outcome depth s (.listened result) t out := by
  have hcaught (fault : Fault) (h : catchStart options s fault = (t, out)) :
      Stepped options outcome depth s (.listened result) t out := by
    have hstepped : Stepped options outcome depth s (.listened result) _ _ :=
      .caught s.stack fault (.inl rfl) (.inl rfl) (.inr (.inr (.inl hat)))
    rwa [h] at hstepped
  unfold afterListen at h
  split at h
  next fault => exact hcaught fault h
  next address =>
    split at h
    next => exact hcaught _ h
    next hlive =>
      cases h
      refine .listened address _ hat ?_ rfl
      rwa [Option.isNone_iff_eq_none, ← ne_eq, Option.ne_none_iff_isSome] at hlive

theorem stepped_startReturned (stack : List Emitter)
    (h : startReturned options { s with stack } = some (t, out)) :
    Stepped options outcome depth s .returned t out := by
  unfold startReturned at h
  split at h
  next hat => exact stepped_afterStart stack hat (Option.some.inj h)
  next hat =>
    cases h
    exact .startSettled stack (.inr (.inl hat)) (quiet_singleton rfl)
  next hat =>
    cases h
    exact .startSettled stack (.inr (.inr ⟨_, hat⟩)) (quiet_singleton rfl)
  all_goals cases h

theorem stepped_startThrew (stack : List Emitter) {fault : Fault}
    (h : startThrew options { s with stack } fault = some (t, out)) :
    Stepped options outcome depth s (.threw fault) t out := by
  unfold startThrew at h
  split at h
  next hat =>
    cases h
    exact .startSettled stack (.inl hat) (quiet_singleton rfl)
  next hat =>
    cases h
    exact .startSettled stack (.inr (.inr ⟨_, hat⟩)) (quiet_singleton rfl)
  next hat =>
    change s.starting = .emittingReady at hat
    have hstepped : Stepped options outcome depth s (.threw fault) _ _ :=
      .caught stack fault (.inl rfl) (.inl rfl) (.inr (.inr (.inr hat)))
    have heq := Option.some.inj h
    rwa [heq] at hstepped
  all_goals cases h

theorem stepped_stopReturned (stack : List Emitter)
    (h : stopReturned { s with stack } = some (t, out)) :
    Stepped options outcome depth s .returned t out := by
  unfold stopReturned at h
  split at h
  next hat =>
    cases h
    exact .aborted stack hat
  next hat =>
    cases h
    exact .shutdownCalled stack hat
  next hat =>
    cases h
    exact .stopSettled stack false s.catches (.inr (.inl hat)) (quiet_map rfl)
  next fault hat =>
    cases h
    exact .stopSettled stack false _ (.inr (.inr ⟨_, hat⟩)) (quiet_map rfl)
  all_goals cases h

theorem stepped_stopThrew (stack : List Emitter) {fault : Fault}
    (h : stopThrew { s with stack } fault = some (t, out)) :
    Stepped options outcome depth s (.threw fault) t out := by
  unfold stopThrew at h
  split at h
  next hat =>
    cases h
    exact .stopSettled stack s.stopPromise _ (.inl hat) (quiet_map rfl)
  next hat =>
    cases h
    exact .stopCaught stack fault (.inr hat)
  next hat =>
    cases h
    exact .stopSettled stack false _ (.inr (.inr ⟨_, hat⟩)) (quiet_map rfl)
  all_goals cases h

theorem step_cases (h : step options outcome depth s a = some (t, out)) :
    Stepped options outcome depth s a t out := by
  cases a with
  | start =>
    simp only [step] at h
    split at h
    next =>
      cases h
      exact .quiet s.stopCallers s.catches s.stack (quiet_singleton rfl)
    next hstate =>
      cases h
      exact .startCalled (not_not.mp hstate)
  | stop => exact stepped_stop .user (Option.some.inj h)
  | addService service => exact stepped_add (Option.some.inj h)
  | addProtocol protocol => exact stepped_add (Option.some.inj h)
  | addInterceptor interceptor => exact stepped_add (Option.some.inj h)
  | onShutdown call => exact stepped_onShutdown (Option.some.inj h)
  | localClient => exact stepped_localClient (Option.some.inj h)
  | catalogTransport => exact stepped_catalogTransport (Option.some.inj h)
  | returned =>
    simp only [step] at h
    split at h
    next => cases h
    next stack _ => exact stepped_startReturned stack h
    next stack _ => exact stepped_stopReturned stack h
    next stack _ =>
      cases h
      exact .quiet s.stopCallers s.catches stack quiet_nil
  | threw fault =>
    simp only [step] at h
    split at h
    next => cases h
    next stack _ => exact stepped_startThrew stack h
    next stack _ => exact stepped_stopThrew stack h
    next stack _ =>
      cases h
      exact .quiet s.stopCallers s.catches stack (quiet_singleton rfl)
  | busStarted result =>
    simp only [step] at h
    split at h
    next built _ hat =>
      exact stepped_afterBusStart hat (Option.some.inj h)
    next => cases h
  | busStopped =>
    simp only [step] at h
    split at h
    next fault _ hat =>
      cases h
      exact .busStopped hat
    next => cases h
  | listened result =>
    simp only [step] at h
    split at h
    next _ hat =>
      obtain ⟨-, heq⟩ := Option.ite_none_right_eq_some.mp h
      exact stepped_afterListen hat (Option.some.inj heq)
    next => cases h
  | session id =>
    simp only [step] at h
    obtain ⟨⟨-, hlive, -⟩, heq⟩ := Option.ite_none_right_eq_some.mp h
    cases heq
    exact .sessions _ (.inl hlive)
  | sessionClosed id =>
    simp only [step] at h
    obtain ⟨-, heq⟩ := Option.ite_none_right_eq_some.mp h
    cases heq
    exact .sessions _ (.inr List.erase_sublist)
  | shutdown a =>
    simp only [step] at h
    split at h
    next call _ hcall =>
      obtain ⟨⟨call', events⟩, hstep, heq⟩ := Option.map_eq_some_iff.mp h
      cases heq
      exact .shutdown hcall hstep
    next => cases h
  | finished =>
    simp only [step] at h
    split at h
    next result _ hat hresult =>
      obtain ⟨call, hcall, hsettled⟩ := Option.bind_eq_some_iff.mp hresult
      cases result with
      | resolved =>
        cases h
        exact .stopped hat hcall hsettled
      | closeError message =>
        cases h
        exact .stopCaught s.stack (.error message) (.inl hat)
      | hookError =>
        cases h
        exact .stopCaught s.stack .hook (.inl hat)
    next => cases h
  | signal name handler =>
    simp only [step] at h
    obtain ⟨-, heq⟩ := Option.ite_none_right_eq_some.mp h
    cases heq
    exact stepped_stop (.signal name handler) rfl
  | signalCatch =>
    simp only [step] at h
    split at h
    next fault catches _ _ =>
      cases h
      exact .quiet s.stopCallers catches [.signal] (quiet_singleton rfl)
    next => cases h

/-- The effects of a server that come once in its life. -/
inductive Phase where
  | start
  | eventBusStart
  | listen
  | ready
  | stopping
  | abort
  | shutdown
  | stop
  deriving DecidableEq, Repr

def Event.phase? : Event → Option Phase
  | .emit .start .start _ => some .start
  | .eventBusStart => some .eventBusStart
  | .listen => some .listen
  | .emit .start .ready _ => some .ready
  | .emit .stop .stopping _ => some .stopping
  | .abort => some .abort
  | .performGracefulShutdown => some .shutdown
  | .emit .stop .stop _ => some .stop
  | _ => none

def phases (log : List Event) : List Phase := log.filterMap Event.phase?

/-- The order of the effects. -/
def script (eventBus : Bool) : List Phase :=
  [.start] ++ (if eventBus then [.eventBusStart] else []) ++
    [.listen, .ready, .stopping, .abort, .shutdown, .stop]

/-- The script up to a phase that is in it. -/
def upTo (eventBus : Bool) (p : Phase) : List Phase :=
  (script eventBus).take ((script eventBus).idxOf p + 1)

/-- The phase that a server has come to, if a call or the state tells it. -/
def At (s : State Service Protocol Interceptor) : Phase → Prop
  | .start => s.starting = .emittingStart
  | .eventBusStart => ∃ built, s.starting = .busStarting built
  | .listen => s.starting = .listening
  | .ready => s.state = .running
  | .stopping => s.stopping = .emittingStopping
  | .abort => s.stopping = .aborting
  | .shutdown => s.stopping = .shuttingDown
  | .stop => False

/-- `start` has been called, and its listeners or the bus or the transport are waited for. -/
def Early (s : State Service Protocol Interceptor) : Prop :=
  At s .start ∨ At s .eventBusStart ∨ At s .listen

/-- The effects so far, and what the state tells of them. -/
structure Scripted (options : CreateServerOptions Service Protocol Interceptor)
    (s : State Service Protocol Interceptor) (log : List Event) : Prop where
  started : Started s
  created : s.state = .created → phases log = []
  follows : phases log <+: script options.eventBus
  reached : ∀ p, At s p → phases log = upTo options.eventBus p
  starting : Early s → s.state = .starting ∧ s.stopping = .idle
  eventBus : At s .eventBusStart → options.eventBus = true

theorem phase?_of_isQuiet {e : Event} (h : e.isQuiet = true) : e.phase? = none := by
  cases e with
  | emit emitter => cases emitter <;> first | rfl | cases h
  | shutdown | info | resolved | rejected | threw | unhandledRejection => rfl
  | eventBusStart | eventBusStop | listen | abort | performGracefulShutdown => cases h

theorem phases_append (more : List Event) : phases (log ++ more) = phases log ++ phases more :=
  List.filterMap_append

theorem phases_of_isQuiet (h : ∀ e ∈ out, e.isQuiet = true) : phases out = [] :=
  List.filterMap_eq_nil_iff.mpr fun e he => phase?_of_isQuiet (h e he)

theorem upTo_prefix (eventBus : Bool) (p : Phase) : upTo eventBus p <+: script eventBus :=
  List.take_prefix _ _

theorem mem_upTo {eventBus : Bool} {p : Phase} (h : p ≠ .eventBusStart ∨ eventBus = true) :
    p ∈ upTo eventBus p := by
  cases eventBus <;> cases p <;> simp_all [upTo, script]

theorem Early.mono (h : Early t) (hat : ∀ p, At t p → At s p) : Early s :=
  h.imp (hat _) (Or.imp (hat _) (hat _))

theorem Scripted.append (h : Scripted options s log) (hquiet : phases out = []) :
    Scripted options s (log ++ out) := by
  have hphases : phases (log ++ out) = phases log := by rw [phases_append, hquiet, List.append_nil]
  exact { h with
    created := hphases.symm ▸ h.created
    follows := hphases.symm ▸ h.follows
    reached := hphases.symm ▸ h.reached }

/-- Nothing is under way to an effect that was not before. -/
theorem Scripted.same (h : Scripted options s log) (hstarted : Started t)
    (hcreated : t.state = .created → s.state = .created) (hat : ∀ p, At t p → At s p)
    (hearly : Early t → t.state = s.state ∧ t.stopping = s.stopping) : Scripted options t log where
  started := hstarted
  created hstate := h.created (hcreated hstate)
  follows := h.follows
  reached p hp := h.reached p (hat p hp)
  starting hp := by
    rw [(hearly hp).1, (hearly hp).2]
    exact h.starting (hp.mono hat)
  eventBus hp := h.eventBus (hat _ hp)

/-- Only other fields have changed. -/
theorem Scripted.frame (h : Scripted options s log) (hstate : t.state = s.state)
    (hstarting : t.starting = s.starting) (hstopping : t.stopping = s.stopping)
    (hshutdown : t.shutdown = s.shutdown) : Scripted options t log := by
  have hat : ∀ p, At t p → At s p := by
    intro p hp
    cases p <;> simp_all [At]
  refine h.same ?_ hstate.symm.trans hat fun _ => ⟨hstate, hstopping⟩
  intro hcreated
  rw [hstarting, hstopping, hshutdown]
  exact h.started (hstate.symm.trans hcreated)

/-- A step to the next effect, which nothing else is under way to. -/
theorem Scripted.effect {q : Phase} (hout : phases out = [q])
    (hnext : phases log ++ [q] = upTo options.eventBus q) (hstate : t.state ≠ .created)
    (hat : ∀ p, At t p → p = q) (hearly : Early t → t.state = .starting ∧ t.stopping = .idle)
    (hbus : q = .eventBusStart → options.eventBus = true) :
    Scripted options t (log ++ out) where
  started h := absurd h hstate
  created h := absurd h hstate
  follows := by
    rw [phases_append, hout, hnext]
    exact upTo_prefix _ _
  reached p hp := by rw [phases_append, hout, hnext, hat p hp]
  starting := hearly
  eventBus hp := hbus (hat _ hp).symm

/-- At most one effect is under way. -/
theorem Scripted.unique {p q : Phase} (h : Scripted options s log) (hp : At s p) (hq : At s q) :
    p = q := by
  have heq := (h.reached p hp).symm.trans (h.reached q hq)
  have hbus : p = .eventBusStart ∨ q = .eventBusStart → options.eventBus = true := by
    rintro (rfl | rfl)
    · exact h.eventBus hp
    · exact h.eventBus hq
  generalize options.eventBus = eventBus at heq hbus
  cases eventBus <;> cases p <;> cases q <;> simp_all [upTo, script]

/-- A step from the effect under way to the next one. -/
theorem Scripted.next {p q : Phase} (h : Scripted options s log) (hp : At s p)
    (hout : phases out = [q]) (hnext : upTo options.eventBus p ++ [q] = upTo options.eventBus q)
    (hstate : t.state ≠ .created) (hat : ∀ p', At t p' → p' = q ∨ p' ≠ p ∧ At s p')
    (hearly : Early t → t.state = .starting ∧ t.stopping = .idle)
    (hbus : q = .eventBusStart → options.eventBus = true) : Scripted options t (log ++ out) := by
  refine .effect hout (by rw [h.reached p hp, hnext]) hstate (fun p' hp' => ?_) hearly hbus
  rcases hat p' hp' with heq | ⟨hne, hs⟩
  · exact heq
  · exact absurd (h.unique hs hp) hne

theorem started_of_ne_created (h : t.state ≠ .created) : Started t := fun hstate => absurd hstate h

theorem Scripted.startFailed {fault : Fault} (h : Scripted options s log) :
    Scripted options (startFailed s fault).1 log := by
  refine h.same (started_of_ne_created ServerState.noConfusion) (fun hc => nomatch hc)
    (fun p hp => ?_) fun hearly => ?_
  · cases p <;> simp_all [At, Server.startFailed]
  · simp [Early, At, Server.startFailed] at hearly

/-- Where `start` fails there is no effect. -/
theorem Scripted.catchStart {fault : Fault} (h : Scripted options s log)
    (hstate : s.state ≠ .created) :
    Scripted options (catchStart options s fault).1 (log ++ (catchStart options s fault).2) := by
  unfold Server.catchStart
  split
  next =>
    refine .append (h.same (started_of_ne_created hstate) id (fun p hp => ?_) fun _ => ⟨rfl, rfl⟩) rfl
    cases p <;> simp_all [At]
  next => exact .append h.startFailed rfl

theorem setupSignals_frame (names : List String) (s : State Service Protocol Interceptor) :
    ∃ signalHandlers processListeners handlers,
      names.foldl setupSignal s = { s with signalHandlers, processListeners, handlers } := by
  induction names generalizing s with
  | nil => exact ⟨s.signalHandlers, s.processListeners, s.handlers, rfl⟩
  | cons name names ih =>
    obtain ⟨signalHandlers, processListeners, handlers, heq⟩ := ih (setupSignal s name)
    exact ⟨signalHandlers, processListeners, handlers, heq⟩

/-- The signal handlers change nothing else. -/
theorem setupAutoShutdown_frame (options : CreateServerOptions Service Protocol Interceptor)
    (s : State Service Protocol Interceptor) :
    ∃ signalHandlers processListeners handlers,
      setupAutoShutdown options s = { s with signalHandlers, processListeners, handlers } := by
  unfold setupAutoShutdown
  split
  · exact setupSignals_frame _ s
  · exact ⟨s.signalHandlers, s.processListeners, s.handlers, rfl⟩

theorem upTo_append (eventBus : Bool) :
    upTo eventBus .listen ++ [.ready] = upTo eventBus .ready ∧
      upTo eventBus .ready ++ [.stopping] = upTo eventBus .stopping ∧
      upTo eventBus .stopping ++ [.abort] = upTo eventBus .abort ∧
      upTo eventBus .abort ++ [.shutdown] = upTo eventBus .shutdown ∧
      upTo eventBus .shutdown ++ [.stop] = upTo eventBus .stop := by
  cases eventBus <;> decide

theorem Scripted.step (h : Scripted options s log)
    (hstep : step options outcome depth s a = some (t, out)) :
    Scripted options t (log ++ out) := by
  have hs := h.started
  obtain ⟨hready, hstopping, habort, hshutdown, hstop⟩ := upTo_append options.eventBus
  cases step_cases hstep with
  | quiet stopCallers catches stack hout =>
    exact .append (h.frame rfl rfl rfl rfl) (phases_of_isQuiet hout)
  | added contents => exact .append (h.frame rfl rfl rfl rfl) rfl
  | hooked call hout => exact .append (h.frame rfl rfl rfl rfl) (phases_of_isQuiet hout)
  | localClient => exact .append (h.frame rfl rfl rfl rfl) rfl
  | catalogTransport => exact .append (h.frame rfl rfl rfl rfl) rfl
  | sessions => exact .append (h.frame rfl rfl rfl rfl) rfl
  | startCalled hstate =>
    have hidle := hs hstate
    refine .effect (q := .start) rfl ?_ ServerState.noConfusion (fun p hp => ?_)
      (fun _ => ⟨rfl, hidle.2.1⟩) Phase.noConfusion
    · rw [h.created hstate]
      cases options.eventBus <;> rfl
    · cases p <;> simp_all [At]
  | caught stack fault _ _ hat =>
    exact .catchStart (h.frame rfl rfl rfl rfl) (hs.ne_created (.inl hat.ne_idle))
  | busStart stack hat hbus =>
    have hstate := h.starting (.inl hat)
    refine h.next (p := .start) (q := .eventBusStart) hat rfl (by rw [hbus]; rfl) (by simp [hstate])
      (fun p hp => ?_) (fun _ => hstate) fun _ => hbus
    cases p <;> simp_all [At]
  | listenCalled stack hat hbus =>
    have hstate := h.starting (.inl hat)
    refine h.next (p := .start) (q := .listen) hat rfl (by rw [hbus]; rfl)
      (by simp [hstate, listen]) (fun p hp => ?_) (fun _ => hstate) Phase.noConfusion
    cases p <;> simp_all [At, listen]
  | busStarted hat =>
    have hstate := h.starting (.inr (.inl ⟨_, hat⟩))
    have hbus := h.eventBus ⟨_, hat⟩
    refine h.next (p := .eventBusStart) (q := .listen) ⟨_, hat⟩ rfl (by rw [hbus]; rfl)
      (by simp [hstate, listen]) (fun p hp => ?_) (fun _ => hstate) Phase.noConfusion
    cases p <;> simp_all [At, listen]
  | busStopped hat => exact .append h.startFailed rfl
  | listened address message hat hlive hsignals =>
    obtain ⟨signalHandlers, processListeners, handlers, hframe⟩ :=
      setupAutoShutdown_frame options { s with
        transport := { s.transport with address := some address }
        state := .running }
    rw [hsignals, hframe]
    refine h.next (p := .listen) (q := .ready) hat rfl hready ServerState.noConfusion
      (fun p hp => ?_) (fun hearly => ?_) Phase.noConfusion
    · cases p <;> simp_all [At]
    · simp [Early, At] at hearly
  | startSettled stack hat hout =>
    have hstate := hs.ne_created (.inl (by rcases hat with hat | hat | ⟨_, hat⟩ <;> simp [hat]))
    refine .append (h.same (started_of_ne_created hstate) id (fun p hp => ?_) fun _ => ⟨rfl, rfl⟩)
      (phases_of_isQuiet hout)
    cases p <;> simp_all [At]
  | stopCalled hcall hstate =>
    have hearly : ¬ Early s := fun hearly => nomatch hstate.symm.trans (h.starting hearly).1
    rw [Early, not_or, not_or] at hearly
    refine h.next (p := .ready) (q := .stopping) hstate ?_ hstopping ServerState.noConfusion
      (fun p hp => ?_) (fun hearly' => absurd hearly' ?_) Phase.noConfusion
    · cases hcall <;> rfl
    · cases p <;> simp_all [At]
    · rwa [Early, not_or, not_or]
  | aborted stack hat =>
    refine h.next (p := .stopping) (q := .abort) hat rfl habort (hs.ne_created (by simp [hat]))
      (fun p hp => ?_) (fun hearly => absurd (h.starting hearly).2 (by simp [hat]))
      Phase.noConfusion
    cases p <;> simp_all [At]
  | shutdownCalled stack hat =>
    refine h.next (p := .abort) (q := .shutdown) hat rfl hshutdown (hs.ne_created (by simp [hat]))
      (fun p hp => ?_) (fun hearly => absurd (h.starting hearly).2 (by simp [hat]))
      Phase.noConfusion
    cases p <;> simp_all [At, removeAutoShutdown]
  | @shutdown _ _ _ events hcall =>
    have hstate := hs.ne_created (by simp [hcall])
    refine .append (h.same (started_of_ne_created hstate) id (fun p hp => hp) fun _ => ⟨rfl, rfl⟩) ?_
    refine List.filterMap_eq_nil_iff.mpr fun e he => ?_
    obtain ⟨_, -, rfl⟩ := List.mem_map.mp he
    rfl
  | stopped hat =>
    refine h.next (p := .shutdown) (q := .stop) hat rfl hstop ServerState.noConfusion
      (fun p hp => ?_) (fun hearly => absurd (h.starting hearly).2 (by simp [hat]))
      Phase.noConfusion
    cases p <;> simp_all [At]
  | stopCaught stack fault hat =>
    refine .append (h.same (started_of_ne_created ServerState.noConfusion) (fun hc => nomatch hc)
      (fun p hp => ?_) fun hearly => absurd (h.starting hearly).2 ?_) rfl
    · cases p <;> simp_all [At, catchStop]
    · rcases hat with hat | hat <;> simp [hat]
  | stopSettled stack stopPromise catches hat hout =>
    have hat : s.stopping ≠ .idle := by rcases hat with hat | hat | ⟨_, hat⟩ <;> simp [hat]
    have hstate := hs.ne_created (.inr (.inl hat))
    refine .append (h.same (started_of_ne_created hstate) id (fun p hp => ?_) fun hearly => ?_)
      (phases_of_isQuiet hout)
    · cases p <;> simp_all [At]
    · exact absurd (h.starting hearly).2 hat

def init (contents : Contents Service Protocol Interceptor) :
    State Service Protocol Interceptor := { contents }

theorem scripted_init (contents : Contents Service Protocol Interceptor) :
    Scripted options (init contents) [] where
  started _ := ⟨rfl, rfl, rfl⟩
  created _ := rfl
  follows := List.nil_prefix
  reached p hp := by cases p <;> simp_all [At, init]
  starting hearly := by simp [Early, At, init] at hearly
  eventBus hp := by simp [At, init] at hp

variable {actions more : List (Action Service Protocol Interceptor)}
  {contents : Contents Service Protocol Interceptor} {rest : List Event}

theorem scripted_run (hrun : run (step options outcome depth) (init contents) actions =
    some (s, log)) : Scripted options s log := by
  have h := run_invariant (fun s log a t out h hstep => Scripted.step h hstep)
    (scripted_init contents) hrun
  rwa [List.nil_append] at h

theorem rank_le_stopped (state : ServerState) : state.rank ≤ ServerState.stopped.rank := by
  cases state <;> decide

theorem rank_catchStart {fault : Fault} :
    s.state.rank ≤ (catchStart options s fault).1.state.rank := by
  unfold catchStart
  split
  · exact le_rfl
  · exact rank_le_stopped s.state

/-- No step goes back to an earlier state. -/
theorem Scripted.rank_step (h : Scripted options s log)
    (hstep : Server.step options outcome depth s a = some (t, out)) :
    s.state.rank ≤ t.state.rank := by
  cases step_cases hstep with
  | startCalled hstate =>
    rw [hstate]
    exact Nat.zero_le _
  | caught stack fault =>
    refine le_trans ?_ rank_catchStart
    exact le_rfl
  | listened address message hat hlive hsignals =>
    obtain ⟨signalHandlers, processListeners, handlers, hframe⟩ :=
      setupAutoShutdown_frame options { s with
        transport := { s.transport with address := some address }
        state := .running }
    rw [hsignals, hframe, (h.starting (.inr (.inr hat))).1]
    exact Nat.le_succ 1
  | stopCalled hcall hstate =>
    rw [hstate]
    exact Nat.le_succ 2
  | busStopped | stopped | stopCaught => exact rank_le_stopped s.state
  | quiet | added | hooked | localClient | catalogTransport | sessions | busStart | listenCalled
  | busStarted | startSettled | aborted | shutdownCalled | shutdown | stopSettled => exact le_rfl

theorem Scripted.rank_run (h : Scripted options s log)
    (hrun : run (Server.step options outcome depth) s more = some (t, rest)) :
    s.state.rank ≤ t.state.rank := by
  have hinv := run_invariant (I := fun t l => Scripted options t (log ++ l) ∧
      s.state.rank ≤ t.state.rank) (l := []) ?_ ⟨by rwa [List.append_nil], le_rfl⟩ hrun
  · exact hinv.2
  · rintro u l a v out ⟨hscripted, hrank⟩ hstep
    refine ⟨?_, hrank.trans (hscripted.rank_step hstep)⟩
    rw [← List.append_assoc]
    exact hscripted.step hstep

def busOptions : CreateServerOptions ℕ ℕ ℕ := { eventBus := true, autoShutdown := true }

/-- A server with a bus and one more hook, from its start to its stop. -/
def busLife : List (Action ℕ ℕ ℕ) :=
  [.onShutdown (.named "db" (.user 0)), .start, .returned, .busStarted (.ok ()),
    .listened (.ok ⟨"::", 5000⟩), .returned, .stop, .returned, .returned,
    .shutdown (.close (.ok ())), .shutdown .resume, .shutdown (.hook (.settle "db" 0)),
    .shutdown (.hook (.settle "eventbus" 0)), .shutdown (.hook (.resume "db")),
    .shutdown (.hook (.resume "eventbus")), .shutdown (.hook .settleAll), .shutdown .resume,
    .finished, .returned]

end Connectum.Core.Server
