import Connectum.Async
import Connectum.Events.Lifecycle
import Mathlib.Data.Int.Notation

/-! The methods of an event bus as asynchronous functions over the variables of
`createEventBus`. -/
namespace Connectum.Events

def extractPackageName (typeName : String) : String :=
  match (typeName.toList.reverse.dropWhile (· ≠ '.')).tail.reverse with
  | [] => typeName
  | package => String.ofList package

def deriveServiceName (hostname : String) (serviceNames : List String) : Option String :=
  if serviceNames = [] then none
  else some ("/".intercalate (serviceNames.map extractPackageName).eraseDups ++ "@" ++ hostname)

structure EventBusOptions where
  routes : BusRoutes
  serviceNames : List String := []
  hostname : String := "localhost"
  group : Option String := none
  drainTimeout : ℤ := 30000
  strictTopics : Bool := false
  signal : Option ℕ := none

def EventBusOptions.derivedName (options : EventBusOptions) : Option String :=
  deriveServiceName options.hostname options.serviceNames

/-- The variables of `createEventBus`. Subscriptions, signals and the promises of handlers are
numbered; of `startPromise` and `stopPromise` only whether they are set is kept, and of
`drainController` whether it is aborted. `now` is the clock. -/
structure EventBus where
  subscriptions : List ℕ := []
  started : Bool := false
  starting : Bool := false
  stopping : Bool := false
  startPromise : Bool := false
  stopPromise : Bool := false
  inFlight : List ℕ := []
  drainAborted : Bool := false
  draining : Bool := false
  shutdownSignal : Option ℕ := none
  publishTopicMap : List (String × String) := []
  now : ℤ := 0
  deriving DecidableEq, Repr

namespace EventBus

structure PublishOptions where
  topic : Option String := none
  group : Option String := none
  metadata : List (String × String) := []
  key : Option String := none
  messageId : Option String := none
  timestamp : Option ℤ := none
  deriving DecidableEq, Repr

/-- What the methods await. `unsubscribe` and `settled` wait for all their promises to settle,
`race` for that or for a timer. -/
inductive Query where
  | connect (serviceName : Option String)
  | subscribe (topics : List String) (group : Option String)
  | unsubscribe (subscriptions : List ℕ)
  | disconnect
  | publish (eventType : String) (payload : List UInt8) (publishOptions : PublishOptions)
  | startPromise
  | stopPromise
  | race (inFlight : List ℕ) (remaining : ℤ)
  | settled (inFlight : List ℕ)
  deriving DecidableEq, Repr

def Query.Answer : Query → Type
  | .connect _ => Except String Unit
  | .subscribe _ _ => Except String ℕ
  | .unsubscribe _ => List (Except String Unit)
  | .disconnect => Except String Unit
  | .publish _ _ _ => Except String Unit
  | .startPromise => Except String Unit
  | .stopPromise => Except String Unit
  | .race _ _ => Unit
  | .settled _ => Unit

abbrev Program (R : Type) := Async Query Query.Answer EventBus R

/-- The loops of `setPublishTopic`; an ambiguous topic leaves the entries before it in the map. -/
def setPublishTopics (publishTopicMap : List (String × String)) :
    List (String × String) → List (String × String) × Except String Unit
  | [] => (publishTopicMap, .ok ())
  | entry :: entries =>
    match setPublishTopic publishTopicMap entry with
    | .error error => (publishTopicMap, .error error)
    | .ok publishTopicMap => setPublishTopics publishTopicMap entries

def subscribed : Except String ℕ → Program (Except String Unit)
  | .error error => .done (.error error)
  | .ok sub =>
    .sync (fun s => { s with
      subscriptions := s.subscriptions ++ [sub]
      started := true }) fun _ => .done (.ok ())

/-- The single subscribe call of `start`, with all topics. -/
def subscribeTopics (options : EventBusOptions) : List String → Program (Except String Unit)
  | [] => .sync (fun s => { s with started := true }) fun _ => .done (.ok ())
  | allTopics => .await (.subscribe allTopics options.group) subscribed

/-- The `try` block of `start`. -/
def tryStart (options : EventBusOptions) : Program (Except String Unit) :=
  .await (.connect options.derivedName) fun
  | .error error => .done (.error error)
  | .ok _ =>
    let (publishTopicMap, result) :=
      setPublishTopics [] (options.routes.entries ++ options.routes.publishes)
    .sync (fun s => { s with publishTopicMap }) fun _ =>
      match result, (options.routes.entries.map Prod.snd).foldlM registerTopic [] with
      | .error error, _ => .done (.error error)
      | .ok _, .error error => .done (.error error)
      | .ok _, .ok allTopics => subscribeTopics options allTopics

/-- The `finally` block of `start`. -/
def finishStart (s : EventBus) : EventBus := { s with starting := false, startPromise := false }

/-- The `catch` block of `start`; the error of a failed disconnect replaces the first one. -/
def rollback (error : String) : Program (Except String Unit) :=
  .sync id fun s =>
    .await (.unsubscribe s.subscriptions) fun _ =>
      .sync (fun s => { s with subscriptions := [] }) fun _ =>
        .await .disconnect fun disconnected =>
          .done (disconnected.bind fun _ => .error error)

/-- The `try` and `catch` blocks of `start`. -/
def attemptStart (options : EventBusOptions) : Program (Except String Unit) := do
  match ← tryStart options with
  | .error error => rollback error
  | .ok _ => return .ok ()

def start (options : EventBusOptions) (signal : Option ℕ) : Program (Except String Unit) :=
  .sync id fun s =>
    if s.started || s.starting || s.stopping then
      .done (.error "EventBus already started or stopping")
    else
      .sync (fun s => { s with
        starting := true
        shutdownSignal := signal.or options.signal
        startPromise := true }) fun _ => do
        let result ← attemptStart options
        .sync finishStart fun _ => .done result

/-- `while (inFlight.size > 0)`; `false` if it has not ended after this many rounds. -/
def drainLoop (deadline : ℤ) : ℕ → Program Bool
  | 0 => .sync id fun s => .done (s.inFlight = [] || deadline - s.now ≤ 0)
  | rounds + 1 =>
    .sync id fun s =>
      if s.inFlight = [] || deadline - s.now ≤ 0 then .done true
      else .await (.race s.inFlight (deadline - s.now)) fun _ => drainLoop deadline rounds

/-- The `finally` block of `stop`. -/
def finishStop (s : EventBus) : EventBus :=
  { s with
    started := false
    shutdownSignal := none
    stopping := false
    draining := false
    drainAborted := false
    stopPromise := false }

/-- The drain of the handlers in flight. -/
def drain (options : EventBusOptions) (rounds : ℕ) : Program Bool :=
  .sync id fun s =>
    if s.inFlight ≠ [] && 0 < options.drainTimeout then
      drainLoop (s.now + options.drainTimeout) rounds
    else .done true

/-- The `try` block of `stop` after the drain. -/
def abortAndDisconnect : Program (Except String Unit) := do
  .sync id fun s =>
    if s.inFlight ≠ [] then
      .sync (fun s => { s with drainAborted := true }) fun s =>
        .await (.settled s.inFlight) fun _ => .done ()
    else .done ()
  .sync (fun s => { s with inFlight := [] }) fun _ => .await .disconnect .done

/-- `stop` once it goes ahead; `none` while its drain goes on. -/
def stopStarted (options : EventBusOptions) (rounds : ℕ) :
    Program (Option (Except String Unit)) :=
  .sync (fun s => { s with stopping := true, draining := true, stopPromise := true }) fun s =>
    .await (.unsubscribe s.subscriptions) fun _ =>
      .sync (fun s => { s with subscriptions := [] }) fun _ => do
        if ← drain options rounds then
          let result ← abortAndDisconnect
          .sync finishStop fun _ => .done (some result)
        else .done none

/-- A `stop` during a `start` waits for it. -/
def awaitStart : Program Unit :=
  .sync id fun s =>
    if s.starting && s.startPromise then .await .startPromise fun _ => .done () else .done ()

def stop (options : EventBusOptions) (rounds : ℕ) : Program (Option (Except String Unit)) :=
  .sync id fun s =>
    if s.stopPromise then .await .stopPromise fun result => .done (some result)
    else do
      awaitStart
      .sync id fun s =>
        if s.started then stopStarted options rounds else .done (some (.ok ()))

/-- The message is given by its type name and its serialization. -/
def publish (options : EventBusOptions) (typeName : String) (payload : List UInt8)
    (publishOptions : PublishOptions) : Program (Except String Unit) :=
  .sync id fun s =>
    if !s.started || s.stopping then .done (.error "EventBus not started. Call start() first.")
    else
      let declaredTopic := publishOptions.topic.or (s.publishTopicMap.lookup typeName)
      if options.strictTopics && declaredTopic = none then
        .done (.error (s!"Cannot resolve a topic for \"{typeName}\" (strictTopics is enabled): it is covered by neither a subscriber route nor the publishes option, and no publishOptions.topic was given. " ++
          "Register the event service in routes/publishes so its (connectum.events.v1.event).topic is used, or pass publishOptions.topic explicitly."))
      else .await (.publish (declaredTopic.getD typeName) payload publishOptions) .done

inductive Call where
  | start (signal : Option ℕ)
  | stop
  | publish (typeName : String) (payload : List UInt8) (publishOptions : PublishOptions)
  deriving DecidableEq, Repr

def program (options : EventBusOptions) (rounds : ℕ) : Call → Program (Option (Except String Unit))
  | .start signal => do return some (← start options signal)
  | .stop => stop options rounds
  | .publish typeName payload publishOptions => do
    return some (← publish options typeName payload publishOptions)

end EventBus
end Connectum.Events
