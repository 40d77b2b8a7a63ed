import Connectum.Core.ServerLifecycle

/-! What a server has done when it says that it has stopped, and the servers that never stop. -/
namespace Connectum.Core
open Machine
open ShutdownManager (HookOutcome addHooks Guard Execution)

namespace ShutdownManager
variable {Hook : Type*} {manager : ShutdownManager Hook} {name : String} {handler : Hook}
  {call : AddHook Hook} {outcome : String → ℕ → HookOutcome} {s t : Execution}

theorem addHooks_concat (calls : List (AddHook Hook)) (call : AddHook Hook) :
    addHooks (calls ++ [call]) = ((addHooks calls).addHook call).1 :=
  List.foldl_append

/-- A hook stays whatever is registered later. -/
theorem mem_moduleHandlers_addHook (h : handler ∈ manager.moduleHandlers name) :
    handler ∈ (manager.addHook call).1.moduleHandlers name := by
  unfold addHook
  generalize manager.parse call = parsed
  obtain ⟨other, deps, added, anonCounter⟩ := parsed
  dsimp only
  split
  · exact h
  · unfold moduleHandlers
    by_cases hname : name = other
    · subst hname
      rw [JsMap.lookup_set_self, Option.getD_some]
      exact List.mem_append_left _ h
    · rwa [JsMap.lookup_set_of_ne hname]

theorem mem_moduleHandlers_named {manager' : ShutdownManager Hook} {u : Unit}
    (h : manager.addHook (.named name handler) = (manager', .ok u)) :
    handler ∈ manager'.moduleHandlers name := by
  unfold addHook parse at h
  dsimp only at h
  split at h
  · cases h
  · cases h
    rw [moduleHandlers, JsMap.lookup_set_self, Option.getD_some]
    exact List.mem_append_right _ (List.mem_singleton_self _)

theorem mem_log_step {a : Action} {e : Event} (h : manager.step outcome s a = some t)
    (he : e ∈ s.log) : e ∈ t.log := by
  cases step_cases h <;> exact List.mem_append_left _ he

end ShutdownManager

namespace GracefulShutdown
variable {Server Address Session Hook : Type*} {calls more : List (AddHook Hook)}
  {outcome : String → ℕ → HookOutcome} {depth : ℕ} {options : GracefulShutdownOptions}
  {s t : State Server Address Session} {events out : List (Event Session)} {a : Action}

theorem Sound.withTransport (h : Sound calls outcome depth s events)
    (transport : TransportManager Server Address Session) :
    Sound calls outcome depth { s with transport } events := by
  cases h with
  | racing hs he htimer => exact .racing hs he htimer
  | closeError hs he hr => exact .closeError hs he hr
  | executing hs he hr hreached => exact .executing hs he hr hreached
  | hookError hs he hr hreached hfails => exact .hookError hs he hr hreached hfails
  | disposed hs he hr hreached hnone => exact .disposed hs he hr hreached hnone

/-- Until the hooks are called, others may be registered. -/
theorem Sound.register (h : Sound calls outcome depth s events) (hnone : s.execution = none) :
    Sound more outcome depth s events := by
  cases h with
  | racing hs he htimer => exact .racing hs he htimer
  | closeError hs he hr => exact .closeError hs he hr
  | executing _ he | hookError _ he | disposed _ he => cases hnone.symm.trans he

/-- What has been done when the shutdown resolves. -/
def Done (s : State Server Address Session) : Prop :=
  s.settled = some .resolved → s.transport = {} ∧
    ∃ execution, s.execution = some execution ∧ .resolved ∈ execution.log

theorem startHooks_settled
    (h : startHooks (addHooks calls) outcome depth s events = some (t, out)) :
    t.settled = s.settled ∧ t.transport = s.transport := by
  obtain ⟨execution, -, heq⟩ := Option.map_eq_some_iff.mp h
  obtain ⟨rfl, -⟩ := Prod.mk.inj heq
  exact ⟨rfl, rfl⟩

theorem afterRace_settled {result : Race} (hsettled : s.settled = none)
    (h : afterRace (addHooks calls) outcome depth options s result = some (t, out)) :
    t.settled ≠ some .resolved ∧ t.transport.server = s.transport.server := by
  have hstarted {u : State Server Address Session} {events} (hu : u.settled = none)
      (hserver : u.transport.server = s.transport.server)
      (h : startHooks (addHooks calls) outcome depth u events = some (t, out)) :
      t.settled ≠ some .resolved ∧ t.transport.server = s.transport.server := by
    obtain ⟨heq, htransport⟩ := startHooks_settled h
    rw [heq, hu, htransport]
    exact ⟨nofun, hserver⟩
  cases result with
  | closed => exact hstarted hsettled rfl h
  | rejected err =>
    obtain ⟨rfl, -⟩ := Prod.mk.inj (Option.some.inj h)
    exact ⟨nofun, rfl⟩
  | timeout =>
    simp only [afterRace] at h
    split at h
    · exact hstarted (u := { s with transport := s.transport.destroyAllSessions }) hsettled rfl h
    · exact hstarted hsettled rfl h

theorem Done.step (h : Done s)
    (hstep : GracefulShutdown.step (addHooks calls) outcome depth options s a = some (t, out)) :
    Done t := by
  cases step_cases hstep with
  | closed | closeFailed | timedOut => exact h
  | @hook _ execution execution' hexecution hhook =>
    intro hresolved
    obtain ⟨htransport, found, hfound, hmem⟩ := h hresolved
    obtain rfl := Option.some.inj (hexecution.symm.trans hfound)
    exact ⟨htransport, execution', rfl, ShutdownManager.mem_log_step hhook hmem⟩
  | afterRace hsettled _ _ hresume =>
    exact fun hresolved => absurd hresolved (afterRace_settled hsettled hresume).1
  | @afterHooks execution _ _ _ hexecution hresume =>
    unfold GracefulShutdown.afterHooks at hresume
    split at hresume
    next => cases hresume
    next =>
      split at hresume
      next hmem =>
        cases hresume
        exact fun _ => ⟨rfl, execution, hexecution, hmem⟩
      next =>
        cases hresume
        exact nofun

theorem settled_step {result : Settled} (hsettled : s.settled = some result)
    (hstep : GracefulShutdown.step (addHooks calls) outcome depth options s a = some (t, out)) :
    t.settled = some result := by
  cases step_cases hstep with
  | closed | closeFailed | timedOut | hook => exact hsettled
  | afterRace hnone | afterHooks hnone => cases hnone.symm.trans hsettled

end GracefulShutdown

namespace Server
variable {Service Protocol Interceptor : Type}

/-- The run of the hooks, once it has begun. -/
def execution (s : State Service Protocol Interceptor) : Option Execution :=
  s.shutdown.bind GracefulShutdown.State.execution

def Action.registers : Action Service Protocol Interceptor → Bool
  | .onShutdown _ => true
  | _ => false

/-- No hook is registered once the hooks are called. -/
def HooksFixed (s : State Service Protocol Interceptor)
    (a : Action Service Protocol Interceptor) : Prop := a.registers = true → execution s = none

instance (s : State Service Protocol Interceptor) (a : Action Service Protocol Interceptor) :
    Decidable (HooksFixed s a) :=
  inferInstanceAs (Decidable (a.registers = true → execution s = none))

variable {options : CreateServerOptions Service Protocol Interceptor}
  {outcome : String → ℕ → HookOutcome} {depth : ℕ} {s t : State Service Protocol Interceptor}
  {a : Action Service Protocol Interceptor}
  {actions more : List (Action Service Protocol Interceptor)}
  {contents : Contents Service Protocol Interceptor} {out log rest : List Event}

/-- The transport is there from `ready` on until the shutdown has disposed of it, and the shutdown
is sound for the hooks that are registered. -/
structure Closing (options : CreateServerOptions Service Protocol Interceptor)
    (outcome : String → ℕ → HookOutcome) (depth : ℕ) (s : State Service Protocol Interceptor)
    (log : List Event) : Prop where
  manager : ∃ calls, s.shutdownManager = addHooks calls ∧
    ∀ call ∈ s.shutdown, ∃ events, GracefulShutdown.Sound calls outcome depth call events
  bus : options.eventBus = true → .listen ∈ phases log →
    .eventBus ∈ s.shutdownManager.moduleHandlers "eventbus"
  live : .ready ∈ phases log → s.shutdown = none → s.transport.server.isSome
  begun : s.shutdown.isSome → .shutdown ∈ phases log
  done : ∀ call ∈ s.shutdown, GracefulShutdown.Done { call with transport := s.transport }
  stopped : .stop ∈ phases log → ∃ call ∈ s.shutdown, call.settled = some .resolved

theorem closing_init (contents : Contents Service Protocol Interceptor) :
    Closing options outcome depth (init contents) [] where
  manager := ⟨[], rfl, fun call h => absurd h (Option.not_mem_none call)⟩
  bus _ h := nomatch h
  live h := nomatch h
  begun h := nomatch h
  done call h := absurd h (Option.not_mem_none call)
  stopped h := nomatch h

/-- A hook is registered before the hooks are called. -/
theorem Closing.register (h : Closing options outcome depth s log) (hnone : execution s = none)
    (call : AddHook Hook) :
    Closing options outcome depth
      { s with shutdownManager := (s.shutdownManager.addHook call).1 } log := by
  obtain ⟨calls, hmanager, hsound⟩ := h.manager
  refine { h with manager := ⟨calls ++ [call], ?_, fun c hc => ?_⟩, bus := fun hbus hlisten => ?_ }
  · rw [ShutdownManager.addHooks_concat, ← hmanager]
  · obtain ⟨events, hevents⟩ := hsound c hc
    refine ⟨events, hevents.register ?_⟩
    rwa [execution, Option.mem_def.mp hc] at hnone
  · exact ShutdownManager.mem_moduleHandlers_addHook (h.bus hbus hlisten)

/-- Other fields change. -/
theorem Closing.frame (h : Closing options outcome depth s log)
    (hmanager : t.shutdownManager = s.shutdownManager) (hshutdown : t.shutdown = s.shutdown)
    (hlive : s.transport.server.isSome → t.transport.server.isSome)
    (hdisposed : s.transport = {} → t.transport = {}) : Closing options outcome depth t log := by
  refine ⟨?_, ?_, ?_, ?_, ?_, ?_⟩
  · rw [hmanager, hshutdown]
    exact h.manager
  · rw [hmanager]
    exact h.bus
  · rw [hshutdown]
    exact fun hready hnone => hlive (h.live hready hnone)
  · rw [hshutdown]
    exact h.begun
  · rw [hshutdown]
    intro call hcall hresolved
    exact (h.done call hcall hresolved).imp_left hdisposed
  · rw [hshutdown]
    exact h.stopped

/-- What the effects that come require of the state. -/
theorem Closing.extend (h : Closing options outcome depth s log)
    (hlisten : .listen ∉ phases out) (hready : .ready ∈ phases out → s.transport.server.isSome)
    (hstop : .stop ∈ phases out → ∃ call ∈ s.shutdown, call.settled = some .resolved) :
    Closing options outcome depth s (log ++ out) := by
  refine ⟨h.manager, fun hbus hmem => ?_, fun hmem hnone => ?_, fun hsome => ?_, h.done,
    fun hmem => ?_⟩
  · rw [phases_append, List.mem_append] at hmem
    exact h.bus hbus (hmem.resolve_right hlisten)
  · rw [phases_append, List.mem_append] at hmem
    exact hmem.elim (fun hold => h.live hold hnone) hready
  · rw [phases_append]
    exact List.mem_append_left _ (h.begun hsome)
  · rw [phases_append, List.mem_append] at hmem
    exact hmem.elim h.stopped hstop

/-- None of the effects that matter here comes. -/
theorem Closing.append (h : Closing options outcome depth s log)
    (hout : ∀ p ∈ phases out, p ≠ .listen ∧ p ≠ .ready ∧ p ≠ .stop) :
    Closing options outcome depth s (log ++ out) :=
  h.extend (fun hp => (hout _ hp).1 rfl) (fun hp => absurd rfl (hout _ hp).2.1)
    fun hp => absurd rfl (hout _ hp).2.2

theorem Closing.quiet (h : Closing options outcome depth s log)
    (hout : ∀ e ∈ out, e.isQuiet = true) : Closing options outcome depth s (log ++ out) := by
  refine h.append fun p hp => ?_
  rw [phases_of_isQuiet hout] at hp
  cases hp

theorem Closing.catchStart {fault : Fault} (h : Closing options outcome depth s log) :
    Closing options outcome depth (catchStart options s fault).1
      (log ++ (catchStart options s fault).2) := by
  unfold Server.catchStart
  split
  · exact .append (h.frame rfl rfl id id) (by simp [phases, Event.phase?])
  · exact .append (h.frame rfl rfl id id) (by simp [phases, Event.phase?, startFailed])

/-- The bus is registered before the transport listens. -/
theorem Closing.listen {built : Contents Service Protocol Interceptor}
    (h : Closing options outcome depth s log) (hnone : s.shutdown = none)
    (hphases : .ready ∉ phases log ∧ .stop ∉ phases log)
    (hbus : options.eventBus = true → .eventBus ∈ s.shutdownManager.moduleHandlers "eventbus") :
    Closing options outcome depth (listen options s built).1 (log ++ [.listen]) := by
  have hnot {p : Phase} (hp : p ∉ phases log) (hne : p ≠ .listen) :
      p ∉ phases (log ++ [.listen]) := by
    rw [phases_append, List.mem_append, not_or]
    exact ⟨hp, by simpa [phases, Event.phase?] using hne⟩
  refine ⟨h.manager, fun hbus' _ => hbus hbus', fun hready => ?_, fun hsome => ?_,
    fun call hcall => ?_, fun hstop => ?_⟩
  · exact absurd hready (hnot hphases.1 Phase.noConfusion)
  · change s.shutdown.isSome = true at hsome
    rw [hnone] at hsome
    cases hsome
  · change call ∈ s.shutdown at hcall
    rw [hnone] at hcall
    cases hcall
  · exact absurd hstop (hnot hphases.2 Phase.noConfusion)

/-- Before the shutdown begins there is no call of it. -/
theorem Closing.absent (h : Closing options outcome depth s log)
    (hphases : .shutdown ∉ phases log) : s.shutdown = none :=
  Option.not_isSome_iff_eq_none.mp (mt h.begun hphases)

theorem Scripted.early {p : Phase} (h : Scripted options s log) (hearly : Early s)
    (hp : p ∈ [.ready, .stopping, .abort, .shutdown, .stop]) : p ∉ phases log := by
  have hbus := h.eventBus
  obtain ⟨q, hq, hat⟩ : ∃ q ∈ [Phase.start, .eventBusStart, .listen], At s q := by
    rcases hearly with hat | hat | hat
    · exact ⟨.start, by decide, hat⟩
    · exact ⟨.eventBusStart, by decide, hat⟩
    · exact ⟨.listen, by decide, hat⟩
  have hmem : q = .eventBusStart → options.eventBus = true := by
    rintro rfl
    exact hbus hat
  rw [h.reached q hat]
  generalize options.eventBus = eventBus at hmem
  cases eventBus <;> cases q <;> cases p <;> simp_all [upTo, script]

/-- The shutdown begins. -/
theorem Closing.perform (h : Closing options outcome depth s log) (hat : s.stopping = .aborting)
    (hscripted : Scripted options s log) (hmanager : t.shutdownManager = s.shutdownManager)
    (hshutdown : t.shutdown = some (GracefulShutdown.performGracefulShutdown s.transport)) :
    Closing options outcome depth t (log ++ [.performGracefulShutdown]) := by
  have hphases := hscripted.reached .abort hat
  have hready : .ready ∈ phases log := by
    rw [hphases]
    cases options.eventBus <;> decide
  have hnot : .shutdown ∉ phases log := by
    rw [hphases]
    cases options.eventBus <;> decide
  have hserver := h.live hready (h.absent hnot)
  have hcalled : GracefulShutdown.performGracefulShutdown s.transport =
      { transport := s.transport, closing := true, timer := true } := by
    rw [GracefulShutdown.performGracefulShutdown, if_neg]
    rwa [Option.isNone_iff_eq_none, ← ne_eq, Option.ne_none_iff_isSome]
  obtain ⟨calls, hcalls, -⟩ := h.manager
  refine ⟨⟨calls, hmanager.trans hcalls, fun call hcall => ?_⟩, ?_, fun _ hnone => ?_,
    fun _ => ?_, fun call hcall hresolved => ?_, fun hstop => ?_⟩
  · rw [hshutdown, hcalled] at hcall
    obtain rfl := Option.some.inj hcall
    exact ⟨[], .racing rfl rfl fun _ => rfl⟩
  · rw [hmanager, phases_append, List.mem_append]
    intro hbus hlisten
    refine h.bus hbus (hlisten.resolve_right ?_)
    simp [phases, Event.phase?]
  · cases hshutdown.symm.trans hnone
  · rw [phases_append]
    exact List.mem_append_right _ (by simp [phases, Event.phase?])
  · rw [hshutdown, hcalled] at hcall
    obtain rfl := Option.some.inj hcall
    cases hresolved
  · rw [phases_append, hphases] at hstop
    generalize options.eventBus = eventBus at hstop
    revert hstop
    cases eventBus <;> simp [phases, Event.phase?, upTo, script]

/-- The shutdown takes a step. -/
theorem Closing.shutdown {call call' : GracefulShutdown.State Unit AddressInfo ℕ}
    {events : List (GracefulShutdown.Event ℕ)} {b : GracefulShutdown.Action}
    (h : Closing options outcome depth s log) (hcall : s.shutdown = some call)
    (hstep : GracefulShutdown.step s.shutdownManager outcome depth
      (gracefulShutdownOptions options) { call with transport := s.transport } b =
        some (call', events)) :
    Closing options outcome depth
      { s with shutdown := some call', transport := call'.transport } log := by
  obtain ⟨calls, hcalls, hsound⟩ := h.manager
  obtain ⟨before, hbefore⟩ := hsound call hcall
  rw [hcalls] at hstep
  refine ⟨⟨calls, hcalls, fun c hc => ?_⟩, h.bus, nofun, fun _ => ?_, fun c hc => ?_,
    fun hstop => ?_⟩
  · obtain rfl := Option.some.inj hc
    exact ⟨_, (hbefore.withTransport s.transport).step hstep⟩
  · exact h.begun (by rw [hcall]; rfl)
  · obtain rfl := Option.some.inj hc
    exact (h.done call hcall).step hstep
  · obtain ⟨c, hc, hsettled⟩ := h.stopped hstop
    obtain rfl := Option.some.inj (hcall.symm.trans hc)
    exact ⟨call', rfl, GracefulShutdown.settled_step (s := { call with transport := s.transport }) hsettled hstep⟩

theorem Closing.step (h : Closing options outcome depth s log) (hscripted : Scripted options s log)
    (hcond : HooksFixed s a) (hstep : Server.step options outcome depth s a = some (t, out)) :
    Closing options outcome depth t (log ++ out) := by
  have hnone (hearly : Early s) : s.shutdown = none :=
    h.absent (hscripted.early hearly (by decide))
  have hadded {manager : ShutdownManager Hook} (hmanager : ManagerOf s manager) :
      Closing options outcome depth { s with shutdownManager := manager } log := by
    rcases hmanager with rfl | ⟨hat, rfl⟩
    · exact h
    · refine h.register ?_ _
      rw [execution, hnone (.inr (.inl hat))]
      rfl
  cases step_cases hstep with
  | quiet _ _ _ hout | startSettled _ _ hout | stopSettled _ _ _ _ hout =>
    exact .quiet (h.frame rfl rfl id id) hout
  | hooked call hout => exact .quiet (h.register (hcond rfl) call) hout
  | added | localClient | catalogTransport | startCalled | busStart | busStopped | aborted
  | stopCaught => exact .append (h.frame rfl rfl id id) (by simp [phases, Event.phase?])
  | stopCalled hcall =>
    cases hcall <;> exact .append (h.frame rfl rfl id id) (by simp [phases, Event.phase?])
  | sessions sessions hlive =>
    refine .append (h.frame rfl rfl id fun hdisposed => ?_) (by simp [phases])
    rw [hdisposed] at hlive
    have hnil := List.sublist_nil.mp (hlive.resolve_left Bool.false_ne_true)
    rw [hdisposed, hnil]
  | caught stack fault _ hmanager => exact .catchStart ((hadded hmanager).frame rfl rfl id id)
  | listenCalled stack hat hbus =>
    have hearly : Early s := .inl hat
    refine .listen (h.frame rfl rfl id id) (hnone hearly)
      ⟨hscripted.early hearly (by decide), hscripted.early hearly (by decide)⟩ fun hbus' => ?_
    cases hbus.symm.trans hbus'
  | busStarted hat hmanager =>
    have hearly : Early s := .inr (.inl ⟨_, hat⟩)
    refine .listen (hadded (.inr ⟨⟨_, hat⟩, by rw [hmanager]⟩)) (hnone hearly)
      ⟨hscripted.early hearly (by decide), hscripted.early hearly (by decide)⟩ fun _ => ?_
    exact ShutdownManager.mem_moduleHandlers_named hmanager
  | listened address message hat hlive hsignals =>
    obtain ⟨signalHandlers, processListeners, handlers, hframe⟩ :=
      setupAutoShutdown_frame options { s with
        transport := { s.transport with address := some address }
        state := .running }
    rw [hsignals, hframe]
    refine .extend (h.frame rfl rfl id fun hdisposed => ?_) (by simp [phases, Event.phase?])
      (fun _ => hlive) (by simp [phases, Event.phase?])
    rw [hdisposed] at hlive
    cases hlive
  | shutdownCalled stack hat => exact h.perform hat hscripted rfl rfl
  | shutdown hcall hcallstep =>
    refine .append (h.shutdown hcall hcallstep) fun p hp => ?_
    obtain ⟨e, he, hphase⟩ := List.mem_filterMap.mp hp
    obtain ⟨_, -, rfl⟩ := List.mem_map.mp he
    cases hphase
  | stopped hat hcall hsettled =>
    exact .extend (h.frame rfl rfl id id) (by simp [phases, Event.phase?])
      (by simp [phases, Event.phase?]) fun _ => ⟨_, hcall, hsettled⟩

theorem closing_run (hrun : run (step options outcome depth) (init contents) actions =
      some (s, log))
    (hmeets : Meets (step options outcome depth) HooksFixed (init contents) actions) :
    Closing options outcome depth s log := by
  have h := run_invariant_of_meets (I := fun s log => Closing options outcome depth s log ∧
      Scripted options s log) (l := [])
    (fun s log a t out h hcond hstep => ⟨h.1.step h.2 hcond hstep, h.2.step hstep⟩)
    ⟨closing_init contents, scripted_init contents⟩ hmeets hrun
  exact h.1

theorem Scripted.phases_of_stop (h : Scripted options s log) (hstop : .stop ∈ phases log) :
    phases log = script options.eventBus := by
  have hscript : script options.eventBus = (script options.eventBus).dropLast ++ [.stop] := by
    cases options.eventBus <;> rfl
  have hfollows := h.follows
  rw [hscript, List.prefix_concat_iff] at hfollows
  rcases hfollows with heq | hprefix
  · rwa [hscript]
  · have hmem := hprefix.subset hstop
    generalize options.eventBus = eventBus at hmem
    cases eventBus <;> simp [script] at hmem

theorem mem_phases_stop (h : .emit .stop .stop ∈ log) : .stop ∈ phases log :=
  List.mem_filterMap.mpr ⟨_, h, rfl⟩

/-- When a server says that it has stopped, every hook has completed, that of the event bus among
them, each called at most once and after those that it depends on, and nothing is left of the
transport. -/
theorem stop_complete (hrun : run (step options outcome depth) (init contents) actions =
      some (s, log))
    (hmeets : Meets (step options outcome depth) HooksFixed (init contents) actions)
    (hstop : .emit .stop .stop ∈ log) :
    s.transport = {} ∧ ∃ t, execution s = some t ∧
      (∀ name, ∀ i < s.shutdownManager.hookCount name,
        .completed name i ∈ t.log ∧ t.log.count (.invoked name i) ≤ 1) ∧
      Justified (Guard s.shutdownManager) t.log ∧
      (options.eventBus = true →
        .eventBus ∈ s.shutdownManager.moduleHandlers "eventbus") := by
  have h := closing_run hrun hmeets
  have hstopped := mem_phases_stop hstop
  obtain ⟨call, hcall, hsettled⟩ := h.stopped hstopped
  obtain ⟨htransport, t, ht, hresolved⟩ := h.done call hcall hsettled
  obtain ⟨calls, hcalls, hsound⟩ := h.manager
  have hlisten : .listen ∈ phases log := by
    rw [(scripted_run hrun).phases_of_stop hstopped]
    cases options.eventBus <;> decide
  obtain ⟨events, hevents⟩ := hsound call hcall
  have hreached : GracefulShutdown.Reached calls outcome depth t := by
    cases hevents with
    | racing hs | closeError hs | executing hs | hookError hs => cases hs.symm.trans hsettled
    | disposed _ he _ hreached => exact Option.some.inj (he.symm.trans ht) ▸ hreached
  obtain ⟨started, steps, hstart, hsteps⟩ := hreached
  obtain ⟨hinv, -⟩ := ShutdownManager.inv_run (ShutdownManager.acyclic_addHooks calls) hstart hsteps
  obtain ⟨before, after, hsplit⟩ := List.append_of_mem hresolved
  rw [← hcalls] at hinv
  refine ⟨htransport, t, ?_, fun name i hi => ⟨?_, hinv.calls_le_one name i⟩, hinv.guarded,
    fun hbus => h.bus hbus hlisten⟩
  · rw [execution, Option.mem_def.mp hcall]
    exact ht
  · rw [hsplit]
    exact List.mem_append_left _ (hinv.guarded before _ after hsplit name i hi)

theorem stop_complete_busLife : ∃ s log,
    run (step busOptions (fun _ _ => .resolves) 3) (init ⟨[0], [], []⟩) busLife = some (s, log) ∧
      .emit .stop .stop ∈ log ∧ s.transport = {} ∧ (execution s).isSome := by
  have hmem : (run (step busOptions (fun _ _ => .resolves) 3) (init ⟨[0], [], []⟩) busLife).map
      (fun p => decide (.emit .stop .stop ∈ p.2)) = some true := by
    decide +kernel
  obtain ⟨⟨s, log⟩, hrun, hstop⟩ := Option.map_eq_some_iff.mp hmem
  have hstop := of_decide_eq_true hstop
  have hmeets : Meets (step busOptions (fun _ _ => .resolves) 3) HooksFixed
      (init ⟨[0], [], []⟩) busLife := by
    decide +kernel
  obtain ⟨htransport, t, ht, -⟩ := stop_complete hrun hmeets hstop
  exact ⟨s, log, hrun, hstop, htransport, by rw [ht]; rfl⟩

/-- What the state of a server tells of the calls under way, where it is not final. -/
structure Settling (options : CreateServerOptions Service Protocol Interceptor)
    (s : State Service Protocol Interceptor) (log : List Event) : Prop where
  starting : s.state = .starting → s.stopping = .idle ∧ s.shutdown = none ∧
    s.starting ≠ .idle ∧ s.starting ≠ .emittingReady ∧ (∀ fault, s.starting ≠ .emittingError fault) ∧
    (s.starting = .settled → phases log = upTo options.eventBus .start)
  running : s.state = .running → s.stopping = .idle ∧ s.shutdown = none ∧ s.starting ≠ .idle ∧
    s.transport.server.isSome
  stopping : s.state = .stopping → s.starting ≠ .idle ∧ s.stopping ≠ .idle ∧
    s.stopping ≠ .emittingStop ∧ (∀ fault, s.stopping ≠ .emittingError fault) ∧
    (s.stopping = .emittingStopping ∨ s.stopping = .settled →
      phases log = upTo options.eventBus .stopping ∧ s.shutdown = none ∧
        s.transport.server.isSome)

theorem settling_init (contents : Contents Service Protocol Interceptor) :
    Settling options (init contents) [] where
  starting h := nomatch h
  running h := nomatch h
  stopping h := nomatch h

/-- No effect comes. -/
theorem Settling.append (h : Settling options s log) (hout : phases out = []) :
    Settling options s (log ++ out) := by
  have hphases : phases (log ++ out) = phases log := by rw [phases_append, hout, List.append_nil]
  exact ⟨hphases ▸ h.starting, h.running, hphases ▸ h.stopping⟩

/-- Only other fields change. -/
theorem Settling.frame (h : Settling options s log) (hstate : t.state = s.state)
    (hstarting : t.starting = s.starting) (hstopping : t.stopping = s.stopping)
    (hshutdown : t.shutdown = s.shutdown)
    (hlive : s.transport.server.isSome → t.transport.server.isSome) : Settling options t log := by
  refine ⟨?_, ?_, ?_⟩
  · rw [hstate, hstarting, hstopping, hshutdown]
    exact h.starting
  · rw [hstate, hstarting, hstopping, hshutdown]
    exact fun hs => (h.running hs).imp_right (And.imp_right (And.imp_right hlive))
  · rw [hstate, hstarting, hstopping, hshutdown]
    intro hs
    obtain ⟨hidle, hstop, hemit, herror, hrest⟩ := h.stopping hs
    exact ⟨hidle, hstop, hemit, herror, fun hat =>
      (hrest hat).imp_right (And.imp_right hlive)⟩

theorem settling_stopped (hstate : t.state = .stopped) : Settling options t log := by
  refine ⟨?_, ?_, ?_⟩ <;> simp [hstate]

theorem Settling.catchStart {fault : Fault} (h : Settling options s log) :
    Settling options (catchStart options s fault).1
      (log ++ (catchStart options s fault).2) := by
  unfold Server.catchStart
  split
  · refine .append ⟨fun hs => ?_, fun hs => ?_, fun hs => ?_⟩ rfl
    · obtain ⟨hstopping, hshutdown, -⟩ := h.starting hs
      simp [hstopping, hshutdown]
    · obtain ⟨hstopping, hshutdown, -, hlive⟩ := h.running hs
      simp [hstopping, hshutdown, hlive]
    · exact ⟨nofun, (h.stopping hs).2⟩
  · exact settling_stopped rfl

theorem Settling.step (h : Settling options s log) (hscripted : Scripted options s log)
    (hstep : Server.step options outcome depth s a = some (t, out)) :
    Settling options t (log ++ out) := by
  have hnext := hscripted.step hstep
  have hearly (hearly : Early s) {point : StartPoint (Contents Service Protocol Interceptor)}
      (hpoint : point ≠ .idle ∧ point ≠ .emittingReady ∧ point ≠ .settled ∧
        ∀ fault, point ≠ .emittingError fault)
      (hstate : t.state = s.state) (hstarting : t.starting = point)
      (hstopping : t.stopping = s.stopping) (hshutdown : t.shutdown = s.shutdown) :
      Settling options t (log ++ out) := by
    obtain ⟨hs, -⟩ := hscripted.starting hearly
    obtain ⟨hidle, hready, hsettled, herror⟩ := hpoint
    obtain ⟨hstop, hnone, -⟩ := h.starting hs
    refine ⟨?_, ?_, ?_⟩ <;> simp_all
  cases step_cases hstep with
  | quiet _ _ _ hout | hooked _ hout =>
    exact .append (h.frame rfl rfl rfl rfl id) (phases_of_isQuiet hout)
  | added | localClient | catalogTransport | sessions =>
    exact .append (h.frame rfl rfl rfl rfl id) rfl
  | startCalled hstate =>
    obtain ⟨-, hstopping, hshutdown⟩ := hscripted.started hstate
    refine ⟨fun _ => ?_, fun hs => ?_, fun hs => ?_⟩
    · simp [hstopping, hshutdown]
    · cases hs
    · cases hs
  | caught => exact .catchStart (h.frame rfl rfl rfl rfl id)
  | busStart stack hat => exact hearly (.inl hat) (by simp) rfl rfl rfl rfl
  | listenCalled stack hat => exact hearly (.inl hat) (by simp [listen]) rfl rfl rfl rfl
  | busStarted hat =>
    exact hearly (.inr (.inl ⟨_, hat⟩)) (by simp [listen]) rfl rfl rfl rfl
  | busStopped | stopped | stopCaught => exact settling_stopped rfl
  | listened address message hat hlive hsignals =>
    obtain ⟨signalHandlers, processListeners, handlers, hframe⟩ :=
      setupAutoShutdown_frame options { s with
        transport := { s.transport with address := some address }
        state := .running }
    rw [hsignals, hframe]
    obtain ⟨hs, -⟩ := hscripted.starting (.inr (.inr hat))
    obtain ⟨hstopping, hshutdown, -⟩ := h.starting hs
    refine ⟨fun hs => ?_, fun _ => ?_, fun hs => ?_⟩
    · cases hs
    · simp [hstopping, hshutdown, hlive]
    · cases hs
  | startSettled stack hat hout =>
    refine .append ⟨fun hs => ?_, fun hs => ?_, fun hs => ?_⟩ (phases_of_isQuiet hout)
    · obtain ⟨hstopping, hshutdown, -, hready, herror, -⟩ := h.starting hs
      have hat := hat.resolve_right (not_or.mpr ⟨hready, not_exists.mpr herror⟩)
      simp [hstopping, hshutdown, hscripted.reached .start hat]
    · obtain ⟨hstopping, hshutdown, -, hlive⟩ := h.running hs
      simp [hstopping, hshutdown, hlive]
    · exact ⟨by simp, (h.stopping hs).2⟩
  | stopCalled hcall hstate =>
    obtain ⟨-, hshutdown, hidle, hlive⟩ := h.running hstate
    have hphases := hnext.reached .stopping rfl
    refine ⟨fun hs => ?_, fun hs => ?_, fun _ => ?_⟩
    · cases hs
    · cases hs
    · simp [hidle, hphases, hshutdown, hlive]
  | aborted stack hat =>
    refine ⟨fun hs => ?_, fun hs => ?_, fun hs => ?_⟩
    · cases hat.symm.trans (h.starting hs).1
    · cases hat.symm.trans (h.running hs).1
    · simp [(h.stopping hs).1]
  | shutdownCalled stack hat =>
    refine ⟨fun hs => ?_, fun hs => ?_, fun hs => ?_⟩
    · cases hat.symm.trans (h.starting hs).1
    · cases hat.symm.trans (h.running hs).1
    · simp [removeAutoShutdown, (h.stopping hs).1]
  | @shutdown _ _ _ events hcall =>
    refine .append ⟨fun hs => ?_, fun hs => ?_, fun hs => ?_⟩ ?_
    · cases hcall.symm.trans (h.starting hs).2.1
    · cases hcall.symm.trans (h.running hs).2.1
    · obtain ⟨hidle, hstop, hemit, herror, hrest⟩ := h.stopping hs
      refine ⟨hidle, hstop, hemit, herror, fun hat => ?_⟩
      cases hcall.symm.trans (hrest hat).2.1
    · refine List.filterMap_eq_nil_iff.mpr fun e he => ?_
      obtain ⟨_, -, rfl⟩ := List.mem_map.mp he
      rfl
  | stopSettled stack stopPromise catches hat hout =>
    refine .append ⟨fun hs => ?_, fun hs => ?_, fun hs => ?_⟩ (phases_of_isQuiet hout)
    · rw [(h.starting hs).1] at hat
      simp at hat
    · rw [(h.running hs).1] at hat
      simp at hat
    · obtain ⟨hidle, -, hemit, herror, hrest⟩ := h.stopping hs
      have hat := hat.resolve_right (not_or.mpr ⟨hemit, not_exists.mpr herror⟩)
      simpa [hidle] using hrest (.inl hat)

theorem settling_run (hrun : run (step options outcome depth) (init contents) actions =
    some (s, log)) : Settling options s log := by
  have h := run_invariant (I := fun s log => Settling options s log ∧ Scripted options s log)
    (l := []) (fun s log a t out h hstep => ⟨h.1.step h.2 hstep, h.2.step hstep⟩)
    ⟨settling_init contents, scripted_init contents⟩ hrun
  exact h.1

/-- No listener runs, and no call of `start` or `stop` is under way. -/
def Resting (s : State Service Protocol Interceptor) : Prop :=
  s.stack = [] ∧ (s.starting = .idle ∨ s.starting = .settled) ∧
    (s.stopping = .idle ∨ s.stopping = .settled)

/-- The state that a server cannot leave any more. -/
def Stuck (state : ServerState) (s : State Service Protocol Interceptor) : Prop :=
  s.state = state ∧ s.starting = .settled ∧ (s.stopping = .idle ∨ s.stopping = .settled) ∧
    s.shutdown = none

theorem Stuck.step {state : ServerState} (h : Stuck state s) (hcreated : state ≠ .created)
    (hrunning : state ≠ .running)
    (hstep : Server.step options outcome depth s a = some (t, out)) :
    Stuck state t ∧ phases out = [] ∧
      (s.transport.server.isSome → t.transport.server.isSome) := by
  obtain ⟨hstate, hstarting, hstopping, hshutdown⟩ := id h
  cases step_cases hstep with
  | quiet _ _ _ hout | hooked _ hout => exact ⟨h, phases_of_isQuiet hout, id⟩
  | localClient | catalogTransport | sessions => exact ⟨h, rfl, id⟩
  | added _ hs | startCalled hs => exact absurd (hstate.symm.trans hs) hcreated
  | stopCalled _ hs => exact absurd (hstate.symm.trans hs) hrunning
  | caught _ _ _ _ hat => simp [Trying, hstarting] at hat
  | busStart _ hat | listenCalled _ hat | busStarted hat | busStopped hat | listened _ _ hat =>
    cases hstarting.symm.trans hat
  | startSettled _ hat => simp [hstarting] at hat
  | shutdown hcall => cases hshutdown.symm.trans hcall
  | aborted _ hat | shutdownCalled _ hat | stopped hat => simp [hat] at hstopping
  | stopCaught _ _ hat | stopSettled _ _ _ hat => rcases hstopping with hs | hs <;> simp [hs] at hat

instance (s : State Service Protocol Interceptor) [DecidableEq Service] [DecidableEq Protocol]
    [DecidableEq Interceptor] : Decidable (Resting s) :=
  inferInstanceAs (Decidable (_ ∧ _ ∧ _))

end Server
end Connectum.Core
