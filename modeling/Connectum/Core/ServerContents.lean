import Connectum.Core.ServerLifecycle

/-! What the transports of a server serve, and the signal handlers that it leaves to the process. -/
namespace Connectum.Core.Server
open Machine
open ShutdownManager (HookOutcome)

variable {Service Protocol Interceptor : Type}
  {options : CreateServerOptions Service Protocol Interceptor}
  {outcome : String → ℕ → HookOutcome} {depth : ℕ} {s t : State Service Protocol Interceptor}
  {a : Action Service Protocol Interceptor}
  {actions more : List (Action Service Protocol Interceptor)}
  {contents : Contents Service Protocol Interceptor} {out log rest : List Event}

/-- Whatever has been built was built from the present contents. -/
structure Frozen (options : CreateServerOptions Service Protocol Interceptor)
    (s : State Service Protocol Interceptor) : Prop where
  routes : ∀ built ∈ s.builtRoutes, built = s.contents
  starting : ∀ built, s.starting = .busStarting built → s.builtRoutes = some built
  serving : ∀ served ∈ s.serving, s.builtRoutes = some served
  localClient : ∀ transport ∈ s.localTransport,
    s.builtRoutes = some transport.mounted ∧ transport.client = []
  catalog : ∀ transport ∈ s.catalogLocalTransport,
    s.builtRoutes = some transport.mounted ∧ transport.client = options.outgoingInterceptors

theorem frozen_init (contents : Contents Service Protocol Interceptor) :
    Frozen options (init contents) where
  routes _ h := nomatch h
  starting _ h := nomatch h
  serving _ h := nomatch h
  localClient _ h := nomatch h
  catalog _ h := nomatch h

/-- The routes that are there stay, and those that are built now have the present contents. -/
theorem Frozen.routesOf {routes : Option (Contents Service Protocol Interceptor)}
    (h : Frozen options s) (hroutes : RoutesOf s routes) :
    (∀ built ∈ routes, built = s.contents) ∧ ∀ built, s.builtRoutes = some built →
      routes = some built := by
  rcases hroutes with rfl | ⟨hnone, rfl⟩
  · exact ⟨h.routes, fun _ hbuilt => hbuilt⟩
  · refine ⟨fun built hbuilt => (Option.some.inj hbuilt).symm, fun built hbuilt => ?_⟩
    rw [hnone] at hbuilt
    cases hbuilt

/-- Nothing but the routes has been built since. -/
theorem Frozen.grow (h : Frozen options s) (hcontents : t.contents = s.contents)
    (hroutes : RoutesOf s t.builtRoutes) (hserving : t.serving = s.serving)
    (hlocal : t.localTransport = s.localTransport)
    (hcatalog : t.catalogLocalTransport = s.catalogLocalTransport)
    (hstarting : ∀ built, t.starting = .busStarting built → t.builtRoutes = some built) :
    Frozen options t := by
  obtain ⟨hnew, hold⟩ := h.routesOf hroutes
  refine ⟨?_, hstarting, ?_, ?_, ?_⟩
  · rwa [hcontents]
  · rw [hserving]
    exact fun served hserved => hold served (h.serving served hserved)
  · rw [hlocal]
    exact fun transport htransport => (h.localClient transport htransport).imp (hold _) id
  · rw [hcatalog]
    exact fun transport htransport => (h.catalog transport htransport).imp (hold _) id

theorem Frozen.listen {built : Contents Service Protocol Interceptor} (h : Frozen options s)
    (hbuilt : s.builtRoutes = some built) : Frozen options (listen options s built).1 where
  routes := h.routes
  starting _ hat := nomatch hat
  serving served hserved := by
    obtain rfl := Option.some.inj hserved
    exact hbuilt
  localClient := h.localClient
  catalog := h.catalog

theorem Frozen.catchStart {fault : Fault} (h : Frozen options s) :
    Frozen options (catchStart options s fault).1 := by
  unfold Server.catchStart
  split
  · exact h.grow rfl (.inl rfl) rfl rfl rfl fun _ hat => nomatch hat
  · exact h.grow rfl (.inl rfl) rfl rfl rfl fun _ hat => nomatch hat

theorem Frozen.step (h : Frozen options s)
    (hstep : Server.step options outcome depth s a = some (t, out)) : Frozen options t := by
  cases step_cases hstep with
  | quiet | hooked | sessions | stopCalled | aborted | shutdownCalled | shutdown | stopped
  | stopCaught | stopSettled => exact h.grow rfl (.inl rfl) rfl rfl rfl h.starting
  | startCalled | startSettled | busStopped =>
    exact h.grow rfl (.inl rfl) rfl rfl rfl fun _ hat => nomatch hat
  | added contents hstate hnone =>
    refine ⟨?_, h.starting, h.serving, h.localClient, h.catalog⟩
    intro built hbuilt
    cases hnone.symm.trans hbuilt
  | @localClient built hroutes =>
    have hgrown : Frozen options { s with builtRoutes := some built } :=
      h.grow rfl hroutes rfl rfl rfl fun b hat => (h.routesOf hroutes).2 b (h.starting b hat)
    refine { hgrown with localClient := fun transport htransport => ?_ }
    obtain rfl := Option.some.inj htransport
    exact ⟨congrArg some (hgrown.routes built rfl), rfl⟩
  | @catalogTransport built hroutes =>
    have hgrown : Frozen options { s with builtRoutes := some built } :=
      h.grow rfl hroutes rfl rfl rfl fun b hat => (h.routesOf hroutes).2 b (h.starting b hat)
    refine { hgrown with catalog := fun transport htransport => ?_ }
    obtain rfl := Option.some.inj htransport
    exact ⟨congrArg some (hgrown.routes built rfl), rfl⟩
  | caught stack fault hroutes =>
    exact .catchStart (h.grow rfl hroutes rfl rfl rfl fun b hat =>
      (h.routesOf hroutes).2 b (h.starting b hat))
  | busStart stack hat hbus hroutes =>
    refine h.grow rfl hroutes rfl rfl rfl fun b hat => ?_
    cases hat
    rfl
  | listenCalled stack hat hbus hroutes =>
    refine .listen (h.grow rfl hroutes rfl rfl rfl fun b hat => ?_) rfl
    exact (h.routesOf hroutes).2 b (h.starting b hat)
  | busStarted hat =>
    exact .listen (h.grow rfl (.inl rfl) rfl rfl rfl h.starting) (h.starting _ hat)
  | listened address message hat hlive hsignals =>
    obtain ⟨signalHandlers, processListeners, handlers, hframe⟩ :=
      setupAutoShutdown_frame options { s with
        transport := { s.transport with address := some address }
        state := .running }
    rw [hsignals, hframe]
    exact h.grow rfl (.inl rfl) rfl rfl rfl fun _ hat => nomatch hat

theorem contents_catchStart {fault : Fault} :
    (catchStart options s fault).1.contents = s.contents ∧
      (catchStart options s fault).1.builtRoutes = s.builtRoutes := by
  unfold catchStart
  split <;> exact ⟨rfl, rfl⟩

/-- Once the routes are built, they and the contents stay. -/
theorem contents_step {built : Contents Service Protocol Interceptor}
    (hbuilt : s.builtRoutes = some built)
    (hstep : step options outcome depth s a = some (t, out)) :
    t.contents = s.contents ∧ t.builtRoutes = some built := by
  have hroutes {routes : Option (Contents Service Protocol Interceptor)}
      (h : RoutesOf s routes) : routes = some built := by
    rcases h with rfl | ⟨hnone, -⟩
    · exact hbuilt
    · cases hnone.symm.trans hbuilt
  cases step_cases hstep with
  | quiet | hooked | sessions | stopCalled | aborted | shutdownCalled | shutdown | stopped
  | stopCaught | stopSettled | startCalled | startSettled | busStopped | busStarted =>
    exact ⟨rfl, hbuilt⟩
  | added contents hstate hnone => cases hnone.symm.trans hbuilt
  | localClient h | catalogTransport h | busStart _ _ _ h | listenCalled _ _ _ h =>
    exact ⟨rfl, hroutes h⟩
  | caught stack fault h =>
    rw [contents_catchStart.1, contents_catchStart.2]
    exact ⟨rfl, hroutes h⟩
  | listened address message hat hlive hsignals =>
    obtain ⟨signalHandlers, processListeners, handlers, hframe⟩ :=
      setupAutoShutdown_frame options { s with
        transport := { s.transport with address := some address }
        state := .running }
    rw [hsignals, hframe]
    exact ⟨rfl, hbuilt⟩

/-- The network and both in-process transports serve what the server shows. -/
structure Parity (options : CreateServerOptions Service Protocol Interceptor)
    (s : State Service Protocol Interceptor) : Prop where
  serving : ∀ served ∈ s.serving, served = s.contents
  localClient : ∀ transport ∈ s.localTransport, transport = ⟨s.contents, []⟩
  catalog : ∀ transport ∈ s.catalogLocalTransport,
    transport = ⟨s.contents, options.outgoingInterceptors⟩

theorem Frozen.parity (h : Frozen options s) : Parity options s where
  serving served hserved := h.routes _ (h.serving served hserved)
  localClient transport htransport := by
    obtain ⟨hbuilt, hclient⟩ := h.localClient transport htransport
    rw [← h.routes _ hbuilt, ← hclient]
  catalog transport htransport := by
    obtain ⟨hbuilt, hclient⟩ := h.catalog transport htransport
    rw [← h.routes _ hbuilt, ← hclient]

theorem frozen_run (hrun : run (step options outcome depth) (init contents) actions =
    some (s, log)) : Frozen options s :=
  run_preserves (fun _ _ _ _ h hstep => Frozen.step h hstep) (frozen_init contents) hrun

theorem contents_run {built : Contents Service Protocol Interceptor}
    (hbuilt : s.builtRoutes = some built)
    (hrun : run (step options outcome depth) s more = some (t, rest)) :
    t.contents = s.contents := by
  have hinv := run_preserves (P := fun t => t.contents = s.contents ∧ t.builtRoutes = some built)
    ?_ ⟨rfl, hbuilt⟩ hrun
  · exact hinv.1
  · rintro u a v out ⟨hcontents, hroutes⟩ hstep
    obtain ⟨hnext, hroutes⟩ := contents_step hroutes hstep
    exact ⟨hnext.trans hcontents, hroutes⟩

/-- The signals that the server handles. -/
def handledSignals (options : CreateServerOptions Service Protocol Interceptor) : List String :=
  if options.autoShutdown then autoShutdownSignals options else []

/-- The entries of `_signalHandlers`: a signal that comes again replaces its handler. -/
def lastHandlers (names : List String) : List (String × ℕ) :=
  names.zipIdx.foldl (fun map e => JsMap.set map e.1 e.2) []

theorem lastHandlers_concat (names : List String) (name : String) :
    lastHandlers (names ++ [name]) = JsMap.set (lastHandlers names) name names.length := by
  rw [lastHandlers, List.zipIdx_append, List.foldl_append]
  simp [lastHandlers]

theorem mem_lastHandlers {names : List String} {name : String} {i : ℕ} :
    (name, i) ∈ lastHandlers names ↔ names[i]? = some name ∧ name ∉ names.drop (i + 1) := by
  induction names using List.reverseRecOn with
  | nil => simp [lastHandlers]
  | append_singleton names last ih =>
    rw [lastHandlers_concat, JsMap.mem_set, ih, Prod.mk.injEq]
    rcases lt_trichotomy i names.length with hlt | rfl | hlt
    · rw [List.getElem?_append_left hlt, List.drop_append_of_le_length (by omega)]
      simp only [List.mem_append, List.mem_singleton, not_or]
      constructor
      · rintro (⟨rfl, rfl⟩ | ⟨⟨hname, hlater⟩, hne⟩)
        · exact absurd hlt (lt_irrefl _)
        · exact ⟨hname, hlater, hne⟩
      · rintro ⟨hname, hlater, hne⟩
        exact .inr ⟨⟨hname, hlater⟩, hne⟩
    · simp [eq_comm (a := name)]
    · have hlength : (names ++ [last]).length ≤ i := by
        rw [List.length_append, List.length_singleton]
        omega
      rw [List.getElem?_eq_none hlength, List.getElem?_eq_none hlt.le]
      simp only [reduceCtorEq, false_and, or_false, iff_false]
      rintro ⟨-, rfl⟩
      exact absurd hlt (lt_irrefl _)

/-- The handlers of the server after all names have been gone through. -/
theorem foldl_setupSignal (names : List String) (hsignals : s.signalHandlers = [])
    (hlisteners : s.processListeners = []) (hhandlers : s.handlers = 0) :
    names.foldl setupSignal s = { s with
      signalHandlers := lastHandlers names
      processListeners := names.zipIdx
      handlers := names.length } := by
  induction names using List.reverseRecOn with
  | nil =>
    obtain ⟨⟩ := s
    cases hsignals
    cases hlisteners
    cases hhandlers
    rfl
  | append_singleton names last ih =>
    rw [List.foldl_append, ih, lastHandlers_concat]
    simp [setupSignal, List.zipIdx_append]

theorem setupAutoShutdown_eq (options : CreateServerOptions Service Protocol Interceptor)
    (hsignals : s.signalHandlers = [])
    (hlisteners : s.processListeners = []) (hhandlers : s.handlers = 0) :
    setupAutoShutdown options s = { s with
      signalHandlers := lastHandlers (handledSignals options)
      processListeners := (handledSignals options).zipIdx
      handlers := (handledSignals options).length } := by
  have hfold := foldl_setupSignal (handledSignals options) hsignals hlisteners hhandlers
  rw [← hfold, setupAutoShutdown, handledSignals]
  split <;> rfl

/-- The handlers that the process has, by how far the server has come. -/
structure Handled (options : CreateServerOptions Service Protocol Interceptor)
    (s : State Service Protocol Interceptor) (log : List Event) : Prop where
  before : .ready ∉ phases log →
    s.signalHandlers = [] ∧ s.processListeners = [] ∧ s.handlers = 0
  running : .ready ∈ phases log → .shutdown ∉ phases log →
    s.signalHandlers = lastHandlers (handledSignals options) ∧
      s.processListeners = (handledSignals options).zipIdx
  after : .shutdown ∈ phases log → s.processListeners =
    (handledSignals options).zipIdx.diff (lastHandlers (handledSignals options))

theorem Handled.frame (h : Handled options s log) (hsignals : t.signalHandlers = s.signalHandlers)
    (hlisteners : t.processListeners = s.processListeners) (hhandlers : t.handlers = s.handlers)
    (hout : .ready ∉ phases out ∧ .shutdown ∉ phases out) :
    Handled options t (log ++ out) := by
  obtain ⟨hready, hshutdown⟩ := hout
  have hsame {p : Phase} (hp : p ∉ phases out) : p ∈ phases (log ++ out) ↔ p ∈ phases log := by
    rw [phases_append, List.mem_append, or_iff_left hp]
  constructor
  · rw [hsame hready, hsignals, hlisteners, hhandlers]
    exact h.before
  · rw [hsame hready, hsame hshutdown, hsignals, hlisteners]
    exact h.running
  · rw [hsame hshutdown, hlisteners]
    exact h.after

theorem Handled.step (h : Handled options s log) (hscripted : Scripted options s log)
    (hstep : Server.step options outcome depth s a = some (t, out)) :
    Handled options t (log ++ out) := by
  have hquiet (hout : phases out = []) : .ready ∉ phases out ∧ .shutdown ∉ phases out := by
    rw [hout]
    exact ⟨List.not_mem_nil, List.not_mem_nil⟩
  cases step_cases hstep with
  | quiet _ _ _ hout | hooked _ hout | startSettled _ _ hout | stopSettled _ _ _ _ hout =>
    exact h.frame rfl rfl rfl (hquiet (phases_of_isQuiet hout))
  | added | localClient | catalogTransport | sessions | startCalled | busStart | listenCalled
  | busStarted | busStopped | aborted | stopped | stopCaught =>
    exact h.frame rfl rfl rfl (by simp [phases, Event.phase?])
  | stopCalled hcall =>
    cases hcall <;> exact h.frame rfl rfl rfl (by simp [phases, Event.phase?])
  | caught stack fault =>
    unfold catchStart
    split <;> exact h.frame rfl rfl rfl (by simp [phases, Event.phase?, startFailed])
  | shutdown hcall =>
    refine h.frame rfl rfl rfl (hquiet (List.filterMap_eq_nil_iff.mpr fun e he => ?_))
    obtain ⟨_, -, rfl⟩ := List.mem_map.mp he
    rfl
  | shutdownCalled stack hat =>
    have hphases := hscripted.reached .abort hat
    have hready : .ready ∈ phases log := by
      rw [hphases]
      cases options.eventBus <;> decide
    have hshutdown : .shutdown ∉ phases log := by
      rw [hphases]
      cases options.eventBus <;> decide
    obtain ⟨hsignals, hlisteners⟩ := h.running hready hshutdown
    have hmem : .shutdown ∈ phases (log ++ [.performGracefulShutdown]) := by
      rw [phases_append]
      exact List.mem_append_right _ (List.mem_singleton_self _)
    refine ⟨fun hnot => absurd ?_ hnot, fun _ hnot => absurd hmem hnot, fun _ => ?_⟩
    · rw [phases_append]
      exact List.mem_append_left _ hready
    · rw [removeAutoShutdown, List.diff_eq_foldl, ← hsignals, ← hlisteners]
  | listened address message hat hlive hsignals =>
    have hphases := hscripted.reached .listen hat
    have hready : .ready ∉ phases log := by
      rw [hphases]
      cases options.eventBus <;> decide
    obtain ⟨hnone, hlisteners, hhandlers⟩ := h.before hready
    have hinstalled := setupAutoShutdown_eq options (s := { s with
      transport := { s.transport with address := some address }
      state := .running }) hnone hlisteners hhandlers
    have hmem : .ready ∈ phases (log ++ [.info message, .emit .start .ready]) := by
      rw [phases_append]
      exact List.mem_append_right _ (by simp [phases, Event.phase?])
    have hshutdown : .shutdown ∉ phases (log ++ [.info message, .emit .start .ready]) := by
      rw [phases_append, hphases]
      cases options.eventBus <;> simp [phases, Event.phase?, upTo, script]
    rw [hsignals, hinstalled]
    exact ⟨fun hnot => absurd hmem hnot, fun _ _ => ⟨rfl, rfl⟩, fun h => absurd h hshutdown⟩

theorem handled_run (hrun : run (step options outcome depth) (init contents) actions =
    some (s, log)) : Handled options s log := by
  have h := run_invariant (I := fun s log => Handled options s log ∧ Scripted options s log)
    (l := []) (fun s log a t out h hstep => ⟨h.1.step h.2 hstep, h.2.step hstep⟩)
    ⟨⟨fun _ => ⟨rfl, rfl, rfl⟩, (nomatch ·), (nomatch ·)⟩, scripted_init contents⟩ hrun
  exact h.1

theorem nodup_iff_drop {names : List String} : names.Nodup ↔
    ∀ name i, ¬ (names[i]? = some name ∧ name ∈ names.drop (i + 1)) := by
  induction names with
  | nil => simp
  | cons first names ih =>
    rw [List.nodup_cons, ih]
    constructor
    · rintro ⟨hfirst, hrest⟩ name i ⟨hname, hlater⟩
      cases i with
      | zero =>
        obtain rfl := Option.some.inj hname
        exact hfirst hlater
      | succ i => exact hrest name i ⟨hname, hlater⟩
    · intro h
      exact ⟨fun hmem => h first 0 ⟨rfl, hmem⟩, fun name i hi => h name (i + 1) hi⟩

end Connectum.Core.Server
