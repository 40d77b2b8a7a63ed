import Connectum.Json
import Connectum.JsMap
import Connectum.Machine

/-! The subscriptions of the AMQP adapter across reconnects: the replay of `onSetup`, and the calls
of `subscribe()`, `unsubscribe()` and `disconnect()` beside it. -/
namespace Connectum.Events.Amqp.Recovery

inductive AmqpTopologyMode where
  | assert
  | check
  | skip
  deriving DecidableEq, Repr

/-- The numbers are given by their bits, as in a JSON value. -/
structure AmqpQueueOptions where
  durable : Option Bool := none
  messageTtl : Option UInt64 := none
  maxLength : Option UInt64 := none
  deadLetterExchange : Option String := none
  deadLetterRoutingKey : Option String := none

structure AmqpQueueOverride where
  queue : String
  arguments : List (String × JsonValue) := []
  durable : Option Bool := none

/-- What `startConsumer` reads of the options: of the topology, the names of its queues. -/
structure AmqpAdapterOptions where
  exchange : Option String := none
  topologyMode : AmqpTopologyMode := .assert
  topologyQueues : List String := []
  queueOverrides : List (String × AmqpQueueOverride) := []
  queueOptions : AmqpQueueOptions := {}
  prefetch : Option ℕ := none
  exclusive : Option Bool := none

structure AssertQueueOptions where
  durable : Bool
  autoDelete : Bool
  exclusive : Bool
  arguments : Option (List (String × JsonValue))

/-- The commands of a consumer channel that `startConsumer` awaits. -/
inductive SetupCommand where
  | prefetch (count : ℕ)
  | assertQueue (queue : String) (options : AssertQueueOptions)
  | bindQueue (queue source pattern : String)
  | checkQueue (queue : String)
  | consume (queue : String)

/-- The commands by which `unsubscribe()` and `disconnect()` take a channel down. -/
inductive TeardownCommand where
  | cancel
  | deleteQueue
  | close
  deriving DecidableEq, Repr

structure SubscriptionRecord where
  patterns : List String
  group : Option String
  channel : Option ℕ := none
  consumerTag : Option String := none
  queueName : String := ""
  isAutoGroup : Bool
  active : Bool := true
  deriving DecidableEq, Repr

/-- `!group`. -/
def isAutoGroup (group : Option String) : Bool := decide (group.getD "" = "")

/-- `pattern.replace(/>/g, "#")`. -/
def toAmqpPattern (pattern : String) : String :=
  String.ofList (pattern.toList.map fun c => if c = '>' then '#' else c)

namespace AmqpAdapterOptions
variable (options : AmqpAdapterOptions)

def exchangeName : String := options.exchange.getD "connectum.events"

def queueOverride (group : Option String) : Option AmqpQueueOverride :=
  if isAutoGroup group then none else options.queueOverrides.lookup (group.getD "")

def resolveQueueName (group : Option String) (uuid : String) : String :=
  match options.queueOverride group with
  | some override => override.queue
  | none =>
    let exchange := options.exchangeName
    let name := group.getD ""
    if isAutoGroup group then s!"{exchange}.sub-{uuid}" else s!"{exchange}.{name}"

/-- The defaults of all queues, and the arguments of the override over them. -/
def queueArgs (group : Option String) : List (String × JsonValue) :=
  let defaults : List (Option (String × JsonValue)) :=
    [options.queueOptions.messageTtl.map fun n => ("x-message-ttl", .number n),
      options.queueOptions.maxLength.map fun n => ("x-max-length", .number n),
      options.queueOptions.deadLetterExchange.map fun e =>
        ("x-dead-letter-exchange", .string (JsString.js e)),
      options.queueOptions.deadLetterRoutingKey.map fun k =>
        ("x-dead-letter-routing-key", .string (JsString.js k))]
  let arguments := ((options.queueOverride group).map (·.arguments)).getD []
  arguments.foldl (fun args e => JsMap.set args e.1 e.2) (defaults.filterMap id)

def assertQueueOptions (group : Option String) : AssertQueueOptions where
  durable :=
    if isAutoGroup group then false
    else (((options.queueOverride group).bind (·.durable)).or
      options.queueOptions.durable).getD true
  autoDelete := isAutoGroup group
  exclusive := if isAutoGroup group then options.exclusive.getD false else false
  arguments :=
    if (options.queueArgs group).isEmpty then none else some (options.queueArgs group)

def declaredInTopology (queueName : String) : Bool := decide (queueName ∈ options.topologyQueues)

/-- How the queue is declared or checked, according to `topologyMode`. -/
def queueCommands (record : SubscriptionRecord) (queueName : String) : List SetupCommand :=
  let bindings := record.patterns.map fun pattern =>
    .bindQueue queueName options.exchangeName (toAmqpPattern pattern)
  match options.topologyMode with
  | .assert =>
    if options.declaredInTopology queueName then bindings
    else .assertQueue queueName (options.assertQueueOptions record.group) :: bindings
  | .check => [.checkQueue queueName]
  | .skip => []

/-- What `startConsumer` awaits on its channel after `prefetch`. -/
def startCommands (record : SubscriptionRecord) (queueName : String) : List SetupCommand :=
  options.queueCommands record queueName ++ [.consume queueName]

end AmqpAdapterOptions

/-- What a call rejects with: an error of the broker as it is, or an `AmqpTopologyError`. -/
inductive StartError where
  | notConnected
  | broker (text : String)
  | topology (message : String)
  deriving DecidableEq, Repr

def StartError.message : StartError → String
  | .notConnected => "AmqpAdapter: not connected (or recovery in progress)"
  | .broker text => text
  | .topology message => message

/-- The error of `startConsumer` when a command is rejected with `text`. -/
def startError (options : AmqpAdapterOptions) (queueName text : String) :
    SetupCommand → StartError
  | .prefetch _ => .broker text
  | .assertQueue .. => .topology s!"Failed to declare queue '{queueName}': {text}"
  | .bindQueue .. =>
    if options.declaredInTopology queueName then
      .topology s!"Failed to bind topology-declared queue '{queueName}': {text}"
    else .topology s!"Failed to declare queue '{queueName}': {text}"
  | .checkQueue _ =>
    .topology s!"Queue '{queueName}' does not exist (topologyMode: \"check\"): {text}"
  | .consume _ => .topology s!"Failed to consume from queue '{queueName}': {text}"

/-- Where a call of `startConsumer` is: the command it awaits, and those that follow. -/
inductive StartPhase where
  | creatingChannel
  | configuring (channel : ℕ) (queueName : String) (command : SetupCommand)
      (rest : List SetupCommand)

structure Starting where
  record : ℕ
  phase : StartPhase

def Starting.channel (job : Starting) : Option ℕ :=
  match job.phase with
  | .creatingChannel => none
  | .configuring channel .. => some channel

/-- The error of `startConsumer` when the call that it awaits is rejected with `text`. -/
def Starting.error (options : AmqpAdapterOptions) (text : String) (job : Starting) : StartError :=
  match job.phase with
  | .creatingChannel => .broker text
  | .configuring _ queueName command _ => startError options queueName text command

/-- Where `onSetup` is; `next` is the index at which its loop goes on. -/
inductive Replay where
  | creatingPublishChannel
  | applyingTopology
  | starting (next : ℕ) (job : Starting)

def Replay.error (options : AmqpAdapterOptions) (text : String) : Replay → StartError
  | .creatingPublishChannel => .broker text
  | .applyingTopology =>
    match options.topologyMode with
    | .assert => .topology s!"Topology declaration failed: {text}"
    | .check => .topology s!"Topology check failed (missing broker object): {text}"
    | .skip => .broker text
  | .starting _ job => job.error options text

/-- A call of `unsubscribe()`, with the channel that it has read. -/
structure Unsubscribing where
  record : ℕ
  channel : ℕ
  awaiting : TeardownCommand
  deriving DecidableEq, Repr

/-- Where a call of `disconnect()` is; `channel` is the one that its command was sent on. -/
inductive Disconnecting where
  | visiting (next record channel : ℕ) (awaiting : TeardownCommand)
  | closingPublishChannel
  | closingConnection
  deriving DecidableEq, Repr

/-- The recovering connection: not asked for, being (re)established, or established. -/
inductive Link where
  | idle
  | down
  | up
  deriving DecidableEq, Repr

/-- The adapter and the broker: `channels` are the records that the consumer channels were created
for, `consumers` the channels with a live consumer and their records. -/
structure Adapter where
  link : Link := .idle
  connection : Bool := false
  publishChannel : Bool := false
  channels : List ℕ := []
  records : List SubscriptionRecord := []
  subscriptionRecords : List ℕ := []
  consumers : List (ℕ × ℕ) := []
  replay : Option Replay := none
  subscribes : List Starting := []
  unsubscribes : List Unsubscribing := []
  disconnects : List Disconnecting := []

/-- A call of `startConsumer`: by the replay, or by the `subscribe()` of a record. -/
inductive Job where
  | replay
  | subscribe (record : ℕ)
  deriving DecidableEq, Repr

/-- `lost` is also the end of a connection whose `onSetup` has been rejected; `ok` tells whether a
command was fulfilled or rejected. -/
inductive Action where
  | connect
  | opened
  | publishChannelCreated
  | topologyApplied
  | connected
  | connectFailed
  | connectRejected
  | lost (text : String)
  | subscribe (patterns : List String) (group : Option String)
  | channelCreated (job : Job) (uuid : String)
  | answered (job : Job) (consumerTag : String)
  | refused (record : ℕ) (text : String)
  | unsubscribe (record : ℕ)
  | unsubscribeAnswered (call : ℕ) (ok : Bool)
  | disconnect
  | disconnectAnswered (call : ℕ) (ok : Bool)
  | connectionClosed (call : ℕ) (text : String)
  deriving DecidableEq, Repr

inductive Event where
  | subscribed (record : ℕ)
  | subscribeRejected (error : StartError)
  | unsubscribing (record : ℕ)
  | unsubscribed (record : ℕ)
  | disconnected
  | disconnectRejected (text : String)
  | setupRejected (error : StartError)
  deriving DecidableEq, Repr

namespace Adapter
variable (s : Adapter)

def isActive (r : ℕ) : Bool := s.records[r]?.any (·.active)

def channelOf (r : ℕ) : Option ℕ := s.records[r]?.bind (·.channel)

def inAutoGroup (r : ℕ) : Bool := s.records[r]?.any (·.isAutoGroup)

def update (r : ℕ) (f : SubscriptionRecord → SubscriptionRecord) : Adapter :=
  { s with records := s.records.modify r f }

/-- `record.channel = null; record.consumerTag = null`. -/
def clear (r : ℕ) : Adapter := s.update r fun record =>
  { record with channel := none, consumerTag := none }

/-- `record.active = false`. -/
def deactivate (r : ℕ) : Adapter := s.update r fun record => { record with active := false }

/-- `record.active = false; record.channel = null; record.consumerTag = null`. -/
def detach (r : ℕ) : Adapter := (s.deactivate r).clear r

/-- What the end of `startConsumer` writes. -/
def store (r channel : ℕ) (consumerTag queueName : String) : Adapter := s.update r fun record =>
  { record with
    channel := some channel
    consumerTag := some consumerTag
    queueName := queueName
    isAutoGroup := Recovery.isAutoGroup record.group }

/-- `consume` is answered: the broker delivers to the channel. -/
def serve (r channel : ℕ) (consumerTag queueName : String) : Adapter :=
  { s.store r channel consumerTag queueName with consumers := s.consumers ++ [(channel, r)] }

/-- The loop of `onSetup` over the rest of the registry, up to its next await. -/
def replayFrom (next : ℕ) : List ℕ → Option Replay
  | [] => none
  | r :: rest =>
    if s.isActive r then some (.starting (next + 1) ⟨r, .creatingChannel⟩)
    else replayFrom (next + 1) rest

/-- `onSetup` goes on at index `next`. -/
def continueReplay (next : ℕ) : Adapter :=
  { s with replay := s.replayFrom next (s.subscriptionRecords.drop next) }

/-- The channels of the connection are closed. -/
def dropLink (link : Link) : Adapter :=
  { s with link := link, consumers := [], replay := none }

/-- The connection is lost: a call that still waits for its channel waits on. -/
def lose (options : AmqpAdapterOptions) (text : String) : Adapter × List Event :=
  ({ s.dropLink .down with subscribes := s.subscribes.filter fun job => job.channel.isNone },
    s.replay.toList.map (fun replay => .setupRejected (replay.error options text)) ++
      (s.subscribes.filter fun job => job.channel.isSome).map fun job =>
        .subscribeRejected (job.error options text))

def findJob : Job → Option Starting
  | .replay =>
    match s.replay with
    | some (.starting _ job) => some job
    | _ => none
  | .subscribe r => s.subscribes.find? fun job => job.record = r

def setPhase (phase : StartPhase) : Job → Adapter
  | .replay =>
    match s.replay with
    | some (.starting next job) =>
      { s with replay := some (.starting next { job with phase := phase }) }
    | _ => s
  | .subscribe r =>
    { s with subscribes := s.subscribes.map fun job =>
        if job.record = r then { job with phase := phase } else job }

def removeSubscribe (r : ℕ) : Adapter :=
  { s with subscribes := s.subscribes.filter fun job => job.record ≠ r }

/-- `createChannel` is answered. -/
def configure (options : AmqpAdapterOptions) (r : ℕ) (record : SubscriptionRecord)
    (uuid : String) (job : Job) : Adapter :=
  let queueName := options.resolveQueueName record.group uuid
  { s with channels := s.channels ++ [r] }.setPhase
    (.configuring s.channels.length queueName (.prefetch (options.prefetch.getD 10))
      (options.startCommands record queueName)) job

/-- `startConsumer` has ended: its caller goes on. -/
def finishStart (r channel : ℕ) (consumerTag queueName : String) : Job → Adapter × List Event
  | .replay =>
    match s.replay with
    | some (.starting next _) =>
      ((s.serve r channel consumerTag queueName).continueReplay next, [])
    | _ => (s.serve r channel consumerTag queueName, [])
  | .subscribe _ =>
    ({ (s.serve r channel consumerTag queueName).removeSubscribe r with
      subscriptionRecords := s.subscriptionRecords ++ [r] }, [.subscribed r])

/-- `if (record.consumerTag)`, `if (record.isAutoGroup)`: the first command of a teardown. -/
def firstTeardown (r : ℕ) : TeardownCommand :=
  if (s.records[r]?.bind (·.consumerTag)).getD "" ≠ "" then .cancel
  else if s.inAutoGroup r then .deleteQueue
  else .close

def nextTeardown (r : ℕ) : TeardownCommand → Option TeardownCommand
  | .cancel => some (if s.inAutoGroup r then .deleteQueue else .close)
  | .deleteQueue => some .close
  | .close => none

/-- What the end of a command does at the broker; a channel that cannot be closed is closed. -/
def commandDone (channel : ℕ) (command : TeardownCommand) (ok : Bool) : Adapter :=
  if command = .close ∨ (command = .cancel ∧ ok = true) then
    { s with consumers := s.consumers.filter fun c => c.1 ≠ channel }
  else s

/-- The end of `unsubscribe()`. -/
def endUnsubscribe (r : ℕ) : Adapter :=
  { s.clear r with subscriptionRecords := s.subscriptionRecords.erase r }

def unsubscribe (r : ℕ) : Adapter × List Event :=
  match s.channelOf r with
  | none => ((s.deactivate r).endUnsubscribe r, [.unsubscribing r, .unsubscribed r])
  | some channel =>
    ({ s.deactivate r with
      unsubscribes := s.unsubscribes ++ [⟨r, channel, s.firstTeardown r⟩] }, [.unsubscribing r])

def unsubscribeAnswered (call : ℕ) (u : Unsubscribing) (ok : Bool) : Adapter × List Event :=
  let t := s.commandDone u.channel u.awaiting ok
  match s.nextTeardown u.record u.awaiting with
  | some command =>
    ({ t with unsubscribes := s.unsubscribes.set call { u with awaiting := command } }, [])
  | none =>
    ({ t.endUnsubscribe u.record with unsubscribes := s.unsubscribes.eraseIdx call },
      [.unsubscribed u.record])

/-- The loop of `disconnect()` over the rest of the registry, up to its next await; what follows
the loop awaits the closing of what is there. -/
def disconnectFrom (s : Adapter) (next : ℕ) : List ℕ → Adapter × Option Disconnecting
  | [] =>
    ({ s with subscriptionRecords := [] },
      if s.publishChannel then some .closingPublishChannel
      else if s.connection then some .closingConnection
      else none)
  | r :: rest =>
    match if s.isActive r then s.channelOf r else none with
    | some channel => (s, some (.visiting (next + 1) r channel (s.firstTeardown r)))
    | none => (s.detach r).disconnectFrom (next + 1) rest

/-- A call of `disconnect()` beside the `rest` has come to its next await, or to its end. -/
def settle (rest : List Disconnecting) : Option Disconnecting → Adapter × List Event
  | some d => ({ s with disconnects := rest ++ [d] }, [])
  | none => ({ s with disconnects := rest }, [.disconnected])

def disconnect : Adapter × List Event :=
  let (t, d) := s.disconnectFrom 0 s.subscriptionRecords
  t.settle s.disconnects d

def typeError (command : TeardownCommand) : String :=
  match command with
  | .cancel => "Cannot read properties of null (reading 'cancel')"
  | .deleteQueue => "Cannot read properties of null (reading 'deleteQueue')"
  | .close => "Cannot read properties of null (reading 'close')"

def disconnectAnswered (call : ℕ) (ok : Bool) : Disconnecting → Option (Adapter × List Event)
  | .visiting next r channel command =>
    let t := s.commandDone channel command ok
    let rest := s.disconnects.eraseIdx call
    match s.nextTeardown r command with
    | some following =>
      match s.channelOf r with
      | some current => some (t.settle rest (some (.visiting next r current following)))
      | none => some ({ t with disconnects := rest }, [.disconnectRejected (typeError following)])
    | none =>
      let u := t.detach r
      let (v, d) := u.disconnectFrom next (u.subscriptionRecords.drop next)
      some (v.settle rest d)
  | .closingPublishChannel =>
    some ({ s with publishChannel := false }.settle (s.disconnects.eraseIdx call)
      (if s.connection then some .closingConnection else none))
  | .closingConnection => none

/-- `connection.close()` has ended, and with it all calls that wait for the connection. -/
def connectionClosed (options : AmqpAdapterOptions) (call : ℕ) (text : String) :
    Adapter × List Event :=
  ({ s.dropLink .idle with
    connection := false
    subscribes := []
    disconnects := s.disconnects.eraseIdx call },
    s.replay.toList.map (fun replay => .setupRejected (replay.error options text)) ++
      s.subscribes.map (fun job => .subscribeRejected (job.error options text)) ++
      [.disconnected])

end Adapter

open Adapter

/-- A `connect()` is not made before the calls of `disconnect()` have ended; the subscription of a
`subscribe()` is there once the call has ended. -/
def step (options : AmqpAdapterOptions) : Machine.Step Adapter Action Event
  | s, .connect =>
    if s.link = .idle ∧ s.disconnects = [] then some ({ s with link := .down }, []) else none
  | s, .opened =>
    if s.link = .down then
      some ({ s with link := .up, replay := some .creatingPublishChannel }, [])
    else none
  | s, .publishChannelCreated =>
    match s.replay with
    | some .creatingPublishChannel =>
      some ({ s with publishChannel := true, replay := some .applyingTopology }, [])
    | _ => none
  | s, .topologyApplied =>
    match s.replay with
    | some .applyingTopology => some (s.continueReplay 0, [])
    | _ => none
  | s, .connected =>
    match s.link, s.replay with
    | .up, none => some ({ s with connection := true }, [])
    | _, _ => none
  | s, .connectFailed =>
    if s.link = .down then some ({ s with publishChannel := false }, []) else none
  | s, .connectRejected =>
    if s.link = .down ∧ s.connection = false then
      some ({ s with link := .idle, publishChannel := false }, [])
    else none
  | s, .lost text => if s.link = .up then some (s.lose options text) else none
  | s, .subscribe patterns group =>
    if s.connection then
      some ({ s with
        records := s.records ++
          [{ patterns := patterns, group := group, isAutoGroup := isAutoGroup group }]
        subscribes := s.subscribes ++ [⟨s.records.length, .creatingChannel⟩] }, [])
    else some (s, [.subscribeRejected .notConnected])
  | s, .channelCreated job uuid =>
    match s.link, s.findJob job with
    | .up, some ⟨r, .creatingChannel⟩ =>
      s.records[r]?.map fun record => (s.configure options r record uuid job, [])
    | _, _ => none
  | s, .answered job consumerTag =>
    match s.link, s.findJob job with
    | .up, some ⟨_, .configuring channel queueName _ (command :: rest)⟩ =>
      some (s.setPhase (.configuring channel queueName command rest) job, [])
    | .up, some ⟨r, .configuring channel queueName _ []⟩ =>
      some (s.finishStart r channel consumerTag queueName job)
    | _, _ => none
  | s, .refused r text =>
    (s.findJob (.subscribe r)).map fun job =>
      (s.removeSubscribe r, [.subscribeRejected (job.error options text)])
  | s, .unsubscribe r =>
    if r < s.records.length ∧ ∀ job ∈ s.subscribes, job.record ≠ r then some (s.unsubscribe r)
    else none
  | s, .unsubscribeAnswered call ok =>
    s.unsubscribes[call]?.map fun u => s.unsubscribeAnswered call u ok
  | s, .disconnect => some s.disconnect
  | s, .disconnectAnswered call ok =>
    s.disconnects[call]?.bind fun d => s.disconnectAnswered call ok d
  | s, .connectionClosed call text =>
    if s.disconnects[call]? = some .closingConnection then
      some (s.connectionClosed options call text)
    else none

end Connectum.Events.Amqp.Recovery
