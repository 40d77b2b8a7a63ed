import Connectum.Core.GracefulShutdown

/-! The life of a server. Its methods are called from outside and by the listeners of its own
events, which run before `emit` returns. -/
namespace Connectum.Core
open ShutdownManager (HookOutcome)

inductive ServerState where
  | created
  | starting
  | running
  | stopping
  | stopped
  deriving DecidableEq, Repr

def ServerState.value : ServerState → String
  | .created => "created"
  | .starting => "starting"
  | .running => "running"
  | .stopping => "stopping"
  | .stopped => "stopped"

/-- The place of a state in the life of a server. -/
def ServerState.rank : ServerState → ℕ
  | .created => 0
  | .starting => 1
  | .running => 2
  | .stopping => 3
  | .stopped => 4

inductive LifecycleEvent where
  | start
  | ready
  | stopping
  | stop
  | error
  deriving DecidableEq, Repr

structure AddressInfo where
  address : String
  port : ℕ
  deriving DecidableEq, Repr

namespace Server

/-- An error with a message, or the one that a shutdown hook has failed with. -/
inductive Fault where
  | error (message : String)
  | hook
  deriving DecidableEq, Repr

/-- The hook that the server registers itself, and those of `onShutdown`. -/
inductive Hook where
  | eventBus
  | user (handler : ℕ)
  deriving DecidableEq, Repr

/-- What is registered on a server. -/
structure Contents (Service Protocol Interceptor : Type) where
  services : List Service
  protocols : List Protocol := []
  interceptors : List Interceptor := []
  deriving DecidableEq, Repr

variable {Service Protocol Interceptor : Type}

/-- An in-process transport: the contents that its router was set up with, and the interceptors of
its client side after the marker. -/
structure LocalTransport (Service Protocol Interceptor : Type) where
  mounted : Contents Service Protocol Interceptor
  client : List Interceptor
  deriving DecidableEq, Repr

/-- `mount` is what a `register` closure throws, and `validation` what `validateTransport` returns
for the contents; `certificates` is what reading them throws. -/
structure CreateServerOptions (Service Protocol Interceptor : Type) where
  catalog : Option (List String) := none
  enabledServices : Option (List String) := none
  mount : Contents Service Protocol Interceptor → Option Fault := fun _ => none
  validation : Contents Service Protocol Interceptor → Option Fault := fun _ => none
  outgoingInterceptors : List Interceptor := []
  eventBus : Bool := false
  certificates : Option Fault := none
  autoShutdown : Bool := false
  signals : Option (List String) := none
  timeout : Option ℕ := none
  forceCloseOnTimeout : Option Bool := none

/-- Where a call of `start` is that has passed the guard; `built` is what it has got from
`_ensureRoutesBuilt`. -/
inductive StartPoint (Built : Type) where
  | idle
  | emittingStart
  | busStarting (built : Built)
  | listening
  | emittingReady
  | busStopping (fault : Fault)
  | emittingError (fault : Fault)
  | settled
  deriving DecidableEq, Repr

/-- Where a call of `stop` is that has passed the guards. -/
inductive StopPoint where
  | idle
  | emittingStopping
  | aborting
  | shuttingDown
  | emittingStop
  | emittingError (fault : Fault)
  | settled
  deriving DecidableEq, Repr

/-- Who waits for listeners to return. -/
inductive Emitter where
  | start
  | stop
  | signal
  deriving DecidableEq, Repr

/-- Who called `stop`: the user, or the handler of a signal, which catches the rejection. -/
inductive Caller where
  | user
  | signal
  deriving DecidableEq, Repr

inductive Method where
  | start
  | stop
  deriving DecidableEq, Repr

inductive Event where
  | emit (emitter : Emitter) (event : LifecycleEvent) (error : Option Fault := none)
  | eventBusStart
  | eventBusStop
  | listen
  | abort
  | performGracefulShutdown
  | shutdown (event : GracefulShutdown.Event ℕ)
  | info (message : String)
  | resolved (method : Method)
  | rejected (method : Method) (fault : Fault)
  | threw (fault : Fault)
  | unhandledRejection (fault : Fault)
  deriving DecidableEq, Repr

/-- The fields of a server, the calls of `start` and `stop` under way, the listeners that run, and
the handlers that the process has for signals. -/
structure State (Service Protocol Interceptor : Type) where
  state : ServerState := .created
  contents : Contents Service Protocol Interceptor
  builtRoutes : Option (Contents Service Protocol Interceptor) := none
  serving : Option (Contents Service Protocol Interceptor) := none
  localTransport : Option (LocalTransport Service Protocol Interceptor) := none
  catalogLocalTransport : Option (LocalTransport Service Protocol Interceptor) := none
  shutdownManager : ShutdownManager Hook := {}
  aborted : Bool := false
  signalHandlers : List (String × ℕ) := []
  stopPromise : Bool := false
  transport : TransportManager Unit AddressInfo ℕ := {}
  starting : StartPoint (Contents Service Protocol Interceptor) := .idle
  stopping : StopPoint := .idle
  shutdown : Option (GracefulShutdown.State Unit AddressInfo ℕ) := none
  stopCallers : List Caller := []
  catches : List Fault := []
  stack : List Emitter := []
  processListeners : List (String × ℕ) := []
  handlers : ℕ := 0

/-- The calls, the returns of listeners, and what is awaited. -/
inductive Action (Service Protocol Interceptor : Type) where
  | start
  | stop
  | addService (service : Service)
  | addProtocol (protocol : Protocol)
  | addInterceptor (interceptor : Interceptor)
  | onShutdown (call : AddHook Hook)
  | localClient
  | catalogTransport
  | returned
  | threw (fault : Fault)
  | busStarted (result : Except Fault Unit)
  | busStopped
  | listened (result : Except Fault AddressInfo)
  | session (id : ℕ)
  | sessionClosed (id : ℕ)
  | shutdown (a : GracefulShutdown.Action)
  | finished
  | signal (name : String) (handler : ℕ)
  | signalCatch

section
variable (options : CreateServerOptions Service Protocol Interceptor)

/-- `_validateCatalogConfig`. -/
def validateCatalogConfig : Option Fault :=
  match options.catalog, options.enabledServices with
  | some catalog, some enabledServices =>
    let missing := enabledServices.filter fun name => name ∉ catalog
    if missing.length > 0 then
      some (.error ("enabledServices lists " ++ toString missing.length ++
        " typeName(s) absent from the catalog: " ++ ", ".intercalate missing ++ ". " ++
        "Known catalog services: " ++
        (if catalog.length > 0 then ", ".intercalate catalog else "(none)") ++ "."))
    else none
  | _, _ => none

def gracefulShutdownOptions : GracefulShutdownOptions where
  timeout := options.timeout.getD 30000
  forceCloseOnTimeout := options.forceCloseOnTimeout.getD true

def autoShutdownSignals : List String := options.signals.getD ["SIGTERM", "SIGINT"]

variable (s : State Service Protocol Interceptor)

def ensureRoutesBuilt :
    Except Fault (State Service Protocol Interceptor × Contents Service Protocol Interceptor) :=
  match s.builtRoutes with
  | some built => .ok (s, built)
  | none =>
    match options.mount s.contents with
    | some fault => .error fault
    | none => .ok ({ s with builtRoutes := some s.contents }, s.contents)

/-- `createLocalTransport`: the router is set up with what the routes callback reads now. -/
def createLocalTransport (client : List Interceptor) :
    Except Fault (State Service Protocol Interceptor ×
      LocalTransport Service Protocol Interceptor) :=
  match ensureRoutesBuilt options s with
  | .error fault => .error fault
  | .ok (s, _) => .ok (s, { mounted := s.contents, client })

/-- `localClient`, up to its client. -/
def localClient : State Service Protocol Interceptor × List Event :=
  match s.localTransport with
  | some _ => (s, [])
  | none =>
    match createLocalTransport options s [] with
    | .error fault => (s, [.threw fault])
    | .ok (s, transport) => ({ s with localTransport := some transport }, [])

/-- `_getCatalogLocalTransport`. -/
def getCatalogLocalTransport : State Service Protocol Interceptor × List Event :=
  match s.catalogLocalTransport with
  | some _ => (s, [])
  | none =>
    match createLocalTransport options s options.outgoingInterceptors with
    | .error fault => (s, [.threw fault])
    | .ok (s, transport) => ({ s with catalogLocalTransport := some transport }, [])

/-- The guards of `addService`, `addInterceptor` and `addProtocol`; `kind` is their word. -/
def add (kind : String) (contents : Contents Service Protocol Interceptor) :
    State Service Protocol Interceptor × List Event :=
  if s.state ≠ .created then
    (s, [.threw (.error ("Cannot add " ++ kind ++ ": server is already " ++ s.state.value ++
      ". Add " ++ kind ++ "s before calling start()."))])
  else if s.builtRoutes.isSome then
    (s, [.threw (.error ("Cannot add " ++ kind ++ ": routes have already been materialized " ++
      "(e.g. via server.localClient()). Add " ++ kind ++ "s before any local-transport access."))])
  else ({ s with contents }, [])

def addService (service : Service) : State Service Protocol Interceptor × List Event :=
  add s "service" { s.contents with services := s.contents.services ++ [service] }

def addProtocol (protocol : Protocol) : State Service Protocol Interceptor × List Event :=
  add s "protocol" { s.contents with protocols := s.contents.protocols ++ [protocol] }

def addInterceptor (interceptor : Interceptor) :
    State Service Protocol Interceptor × List Event :=
  add s "interceptor" { s.contents with interceptors := s.contents.interceptors ++ [interceptor] }

def onShutdown (call : AddHook Hook) : State Service Protocol Interceptor × List Event :=
  if s.state = .stopped then
    (s, [.threw (.error "Cannot add shutdown hook: server is already stopped")])
  else
    match s.shutdownManager.addHook call with
    | (shutdownManager, .ok _) => ({ s with shutdownManager }, [])
    | (shutdownManager, .error message) =>
      ({ s with shutdownManager }, [.threw (.error message)])

/-- The end of the `catch` block of `start`. -/
def startFailed (fault : Fault) : State Service Protocol Interceptor × List Event :=
  ({ s with state := .stopped, starting := .emittingError fault, stack := .start :: s.stack },
    [.emit .start .error (some fault)])

/-- The `catch` block of `start`. -/
def catchStart (fault : Fault) : State Service Protocol Interceptor × List Event :=
  if options.eventBus then ({ s with starting := .busStopping fault }, [.eventBusStop])
  else startFailed s fault

/-- The call of `listen`, which creates the underlying server unless the certificates cannot be
read. -/
def listen (built : Contents Service Protocol Interceptor) :
    State Service Protocol Interceptor × List Event :=
  let transport :=
    if options.certificates.isNone then { s.transport with server := some () } else s.transport
  ({ s with starting := .listening, transport, serving := some built }, [.listen])

/-- The body of `start` after its first event. -/
def afterStart : State Service Protocol Interceptor × List Event :=
  match validateCatalogConfig options with
  | some fault => catchStart options s fault
  | none =>
    match ensureRoutesBuilt options s with
    | .error fault => catchStart options s fault
    | .ok (s, built) =>
      match options.validation built with
      | some fault => catchStart options s fault
      | none =>
        if options.eventBus then ({ s with starting := .busStarting built }, [.eventBusStart])
        else listen options s built

/-- After `await this._eventBus.start(…)`. -/
def afterBusStart (built : Contents Service Protocol Interceptor) :
    Except Fault Unit → State Service Protocol Interceptor × List Event
  | .error fault => catchStart options s fault
  | .ok _ =>
    match s.shutdownManager.addHook (.named "eventbus" .eventBus) with
    | (shutdownManager, .error message) =>
      catchStart options { s with shutdownManager } (.error message)
    | (shutdownManager, .ok _) => listen options { s with shutdownManager } built

/-- One turn of the loop of `_setupAutoShutdown`. -/
def setupSignal (name : String) : State Service Protocol Interceptor :=
  { s with
    signalHandlers := JsMap.set s.signalHandlers name s.handlers
    processListeners := s.processListeners ++ [(name, s.handlers)]
    handlers := s.handlers + 1 }

def setupAutoShutdown : State Service Protocol Interceptor :=
  if options.autoShutdown then (autoShutdownSignals options).foldl setupSignal s else s

def removeAutoShutdown : State Service Protocol Interceptor :=
  { s with
    processListeners := s.signalHandlers.foldl List.erase s.processListeners
    signalHandlers := [] }

/-- After `await this._transport.listen(…)`. -/
def afterListen : Except Fault AddressInfo → State Service Protocol Interceptor × List Event
  | .error fault => catchStart options s fault
  | .ok address =>
    if s.transport.server.isNone then catchStart options s (.error "Server closed during startup")
    else
      let s := setupAutoShutdown options { s with
        transport := { s.transport with address := some address }
        state := .running }
      let displayHost := if address.address = "::" then "localhost" else address.address
      ({ s with starting := .emittingReady, stack := .start :: s.stack },
        [.info ("Server listening " ++ displayHost ++ ":" ++ toString address.port),
          .emit .start .ready])

/-- What the callers of `stop` see of its rejection. -/
def reject (fault : Fault) (callers : List Caller) :
    State Service Protocol Interceptor × List Event :=
  ({ s with
    catches := s.catches ++ (callers.filter fun caller => caller = .signal).map fun _ => fault },
    (callers.filter fun caller => caller = .user).map fun _ => .rejected .stop fault)

def resolve (callers : List Caller) : List Event :=
  (callers.filter fun caller => caller = .user).map fun _ => .resolved .stop

def stop (caller : Caller) : State Service Protocol Interceptor × List Event :=
  if s.state = .stopping ∧ s.stopPromise then
    ({ s with stopCallers := s.stopCallers ++ [caller] }, [])
  else if s.state ≠ .running then
    reject s (.error ("Cannot stop server: current state is \"" ++ s.state.value ++
      "\", expected \"running\"")) [caller]
  else
    ({ s with
      state := .stopping
      stopping := .emittingStopping
      stopCallers := [caller]
      stack := .stop :: s.stack }, [.emit .stop .stopping])

/-- The `catch` block of the shutdown. -/
def catchStop (fault : Fault) : State Service Protocol Interceptor × List Event :=
  ({ s with state := .stopped, stopping := .emittingError fault, stack := .stop :: s.stack },
    [.emit .stop .error (some fault)])

/-- The `finally` block of the shutdown, and what its callers see. -/
def stopRejected (fault : Fault) : State Service Protocol Interceptor × List Event :=
  reject { s with stopPromise := false, stopping := .settled } fault s.stopCallers

/-- The shutdown goes on after `await performGracefulShutdown(…)`. -/
def afterShutdown : GracefulShutdown.Settled → State Service Protocol Interceptor × List Event
  | .resolved =>
    ({ s with state := .stopped, stopping := .emittingStop, stack := .stop :: s.stack },
      [.emit .stop .stop])
  | .closeError message => catchStop s (.error message)
  | .hookError => catchStop s .hook

/-- The listeners that `start` waits for have returned. -/
def startReturned : Option (State Service Protocol Interceptor × List Event) :=
  match s.starting with
  | .emittingStart => some (afterStart options s)
  | .emittingReady => some ({ s with starting := .settled }, [.resolved .start])
  | .emittingError fault => some ({ s with starting := .settled }, [.rejected .start fault])
  | .idle | .busStarting _ | .listening | .busStopping _ | .settled => none

/-- A listener that `start` waits for has thrown. -/
def startThrew (fault : Fault) : Option (State Service Protocol Interceptor × List Event) :=
  match s.starting with
  | .emittingStart | .emittingError _ =>
    some ({ s with starting := .settled }, [.rejected .start fault])
  | .emittingReady => some (catchStart options s fault)
  | .idle | .busStarting _ | .listening | .busStopping _ | .settled => none

/-- The listeners that `stop` waits for have returned. -/
def stopReturned : Option (State Service Protocol Interceptor × List Event) :=
  match s.stopping with
  | .emittingStopping =>
    some ({ s with aborted := true, stopping := .aborting, stack := .stop :: s.stack }, [.abort])
  | .aborting =>
    some ({ removeAutoShutdown s with
      stopping := .shuttingDown
      stopPromise := true
      shutdown := some (GracefulShutdown.performGracefulShutdown s.transport) },
      [.performGracefulShutdown])
  | .emittingStop =>
    some ({ s with stopPromise := false, stopping := .settled }, resolve s.stopCallers)
  | .emittingError fault => some (stopRejected s fault)
  | .idle | .shuttingDown | .settled => none

/-- A listener that `stop` waits for has thrown; what those of the abort signal throw does not reach
it. -/
def stopThrew (fault : Fault) : Option (State Service Protocol Interceptor × List Event) :=
  match s.stopping with
  | .emittingStopping => some (reject { s with stopping := .settled } fault s.stopCallers)
  | .emittingStop => some (catchStop s fault)
  | .emittingError _ => some (stopRejected s fault)
  | .idle | .aborting | .shuttingDown | .settled => none

end

variable (options : CreateServerOptions Service Protocol Interceptor)
  (outcome : String → ℕ → HookOutcome) (depth : ℕ)

def step : Machine.Step (State Service Protocol Interceptor)
    (Action Service Protocol Interceptor) Event
  | s, .start =>
    if s.state ≠ .created then
      some (s, [.rejected .start (.error ("Cannot start server: current state is \"" ++
        s.state.value ++ "\", expected \"created\""))])
    else
      some ({ s with
        state := .starting
        starting := .emittingStart
        stack := .start :: s.stack }, [.emit .start .start])
  | s, .stop => some (stop s .user)
  | s, .addService service => some (addService s service)
  | s, .addProtocol protocol => some (addProtocol s protocol)
  | s, .addInterceptor interceptor => some (addInterceptor s interceptor)
  | s, .onShutdown call => some (onShutdown s call)
  | s, .localClient => some (localClient options s)
  | s, .catalogTransport => some (getCatalogLocalTransport options s)
  | s, .returned =>
    match s.stack with
    | [] => none
    | .start :: stack => startReturned options { s with stack }
    | .stop :: stack => stopReturned { s with stack }
    | .signal :: stack => some ({ s with stack }, [])
  | s, .threw fault =>
    match s.stack with
    | [] => none
    | .start :: stack => startThrew options { s with stack } fault
    | .stop :: stack => stopThrew { s with stack } fault
    | .signal :: stack => some ({ s with stack }, [.unhandledRejection fault])
  -- What follows happens between the turns of synchronous code.
  | s, .busStarted result =>
    match s.stack, s.starting with
    | [], .busStarting built => some (afterBusStart options s built result)
    | _, _ => none
  | s, .busStopped =>
    match s.stack, s.starting with
    | [], .busStopping fault => some (startFailed s fault)
    | _, _ => none
  | s, .listened result =>
    match s.stack, s.starting with
    | [], .listening =>
      if ∀ fault ∈ options.certificates, result = .error fault then
        some (afterListen options s result)
      else none
    | _, _ => none
  | s, .session id =>
    if s.stack = [] ∧ s.transport.server.isSome ∧ id ∉ s.transport.sessions then
      some ({ s with transport.sessions := s.transport.sessions ++ [id] }, [])
    else none
  | s, .sessionClosed id =>
    if s.stack = [] then
      some ({ s with transport.sessions := s.transport.sessions.erase id }, [])
    else none
  | s, .shutdown a =>
    match s.stack, s.shutdown with
    | [], some call =>
      (GracefulShutdown.step s.shutdownManager outcome depth (gracefulShutdownOptions options)
        { call with transport := s.transport } a).map fun (call, events) =>
          ({ s with shutdown := some call, transport := call.transport },
            events.map .shutdown)
    | _, _ => none
  | s, .finished =>
    match s.stack, s.stopping, s.shutdown.bind GracefulShutdown.State.settled with
    | [], .shuttingDown, some result => some (afterShutdown s result)
    | _, _, _ => none
  | s, .signal name handler =>
    if s.stack = [] ∧ (name, handler) ∈ s.processListeners then
      let (s, events) := stop s .signal
      some (s, .info ("Received " ++ name ++ ", initiating graceful shutdown...") :: events)
    else none
  | s, .signalCatch =>
    match s.stack, s.catches with
    | [], fault :: catches =>
      some ({ s with catches, stack := [.signal] }, [.emit .signal .error (some fault)])
    | _, _ => none

end Server
end Connectum.Core
