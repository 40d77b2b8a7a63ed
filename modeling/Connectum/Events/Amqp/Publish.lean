import Connectum.Events.Amqp.Consumer
import Connectum.JsMap
import Connectum.Machine
import Mathlib.Data.List.Infix

/-! The publishing side of the AMQP adapter: the confirm channel, the `return` listener, and the
promises of the publishes. -/
namespace Connectum.Events.Amqp

structure AmqpPublisherOptions where
  persistent : Option Bool := none
  mandatory : Option Bool := none
  correlationHeader : Option Bool := none
  externalContract : Option Bool := none

/-- An encoder that throws returns the text of its error. -/
structure AmqpAdapterOptions where
  exchange : Option String := none
  contentType : Option String := none
  encode : Option (List UInt8 → Except String (List UInt8)) := none
  publishTimeoutMs : Option ℕ := none
  publisherOptions : AmqpPublisherOptions := {}

structure PublishOptions where
  metadata : List (String × String) := []
  messageId : Option String := none
  timestamp : Option ℤ := none

/-- What `publish` reads from its surroundings: a fresh uuid, and the clock in milliseconds and as
a text. -/
structure PublishEnvironment where
  randomUUID : String
  now : ℤ
  isoNow : String

/-- The errors that a publish rejects with, with their texts. -/
inductive PublishError where
  | connection (message : String)
  | serialization (message : String)
  | nack (message : String)
  | timeout (message : String)
  | unroutable (message routingKey : String)
  deriving DecidableEq, Repr

inductive Outcome where
  | resolved
  | rejected (error : PublishError)
  deriving DecidableEq, Repr

structure PublishProps where
  persistent : Bool
  mandatory : Bool
  headers : List (String × String)
  contentType : String
  messageId : Option String
  timestamp : Option ℤ
  deriving DecidableEq, Repr

structure Message where
  exchange : String
  routingKey : String
  body : List UInt8
  props : PublishProps
  deriving DecidableEq, Repr

namespace AmqpAdapterOptions
variable (options : AmqpAdapterOptions)

def mandatory : Bool := options.publisherOptions.mandatory.getD false

def externalContract : Bool := options.publisherOptions.externalContract.getD false

def correlationHeader : Bool :=
  if options.externalContract then false
  else options.publisherOptions.correlationHeader.getD true

def timeoutMs : ℕ := options.publishTimeoutMs.getD 30000

end AmqpAdapterOptions

/-- `headers[key] = value`: the prototype is not replaced by a string. -/
def assign (headers : List (String × String)) (key value : String) : List (String × String) :=
  if key = "__proto__" then headers else JsMap.set headers key value

/-- The user's metadata without internal headers. -/
def userHeaders (metadata : List (String × String)) : List (String × String) :=
  metadata.foldl (fun headers e =>
    if e.1 ∈ internalHeaders then headers else assign headers e.1 e.2) []

def publishHeaders (options : AmqpAdapterOptions) (env : PublishEnvironment)
    (publishOptions : PublishOptions) : List (String × String) :=
  let user := userHeaders publishOptions.metadata
  let headers :=
    if options.externalContract then user
    else assign (assign user "x-event-id" env.randomUUID) "x-published-at" env.isoNow
  if options.mandatory && options.correlationHeader then
    assign headers publishIdHeader env.randomUUID
  else headers

theorem lookup_assign_eq_none {headers : List (String × String)} {key other value : String}
    (hne : other ≠ key) (h : headers.lookup other = none) :
    (assign headers key value).lookup other = none := by
  unfold assign
  split
  next => exact h
  next => exact JsMap.lookup_set_eq_none hne h

/-- The user cannot set an internal header. -/
theorem lookup_userHeaders (metadata : List (String × String)) {key : String}
    (hkey : key ∈ internalHeaders) : (userHeaders metadata).lookup key = none := by
  have hfrom : ∀ headers : List (String × String), headers.lookup key = none →
      (metadata.foldl (fun headers e =>
        if e.1 ∈ internalHeaders then headers else assign headers e.1 e.2) headers).lookup key =
          none := by
    induction metadata with
    | nil => exact fun headers h => h
    | cons e metadata ih =>
      intro headers h
      apply ih
      dsimp only
      split
      next => exact h
      next he =>
        apply lookup_assign_eq_none _ h
        rintro rfl
        exact he hkey
  exact hfrom [] rfl

/-- A mandatory message bears its id if and only if returns are correlated by it. -/
theorem lookup_publishHeaders {options : AmqpAdapterOptions} (env : PublishEnvironment)
    (publishOptions : PublishOptions) (hmandatory : options.mandatory = true) :
    (publishHeaders options env publishOptions).lookup publishIdHeader =
      if options.correlationHeader then some env.randomUUID else none := by
  have huser : (userHeaders publishOptions.metadata).lookup publishIdHeader = none :=
    lookup_userHeaders _ (by decide)
  simp only [publishHeaders, hmandatory, Bool.true_and]
  split
  next =>
    rw [assign, if_neg (by decide)]
    exact JsMap.lookup_set_self
  next =>
    split
    next => exact huser
    next => exact lookup_assign_eq_none (by decide) (lookup_assign_eq_none (by decide) huser)

def publishProps (options : AmqpAdapterOptions) (env : PublishEnvironment)
    (publishOptions : PublishOptions) : PublishProps where
  persistent := options.publisherOptions.persistent.getD true
  mandatory := options.mandatory
  headers := publishHeaders options env publishOptions
  contentType := options.contentType.getD "application/protobuf"
  messageId := publishOptions.messageId.or
    (if options.externalContract then none else some env.randomUUID)
  timestamp := publishOptions.timestamp.or
    (if options.externalContract then none else some (env.now.tdiv 1000))

def encodePayload (options : AmqpAdapterOptions) (payload : List UInt8) :
    Except PublishError (List UInt8) :=
  match options.encode with
  | none => .ok payload
  | some encode =>
    match encode payload with
    | .ok body => .ok body
    | .error text => .error (.serialization s!"Payload encoding failed: {text}")

/-- The message that `publish` writes. -/
def prepare (options : AmqpAdapterOptions) (env : PublishEnvironment) (eventType : String)
    (payload : List UInt8) (publishOptions : PublishOptions) : Except PublishError Message :=
  (encodePayload options payload).map fun body =>
    ⟨options.exchange.getD "connectum.events", eventType, body,
      publishProps options env publishOptions⟩

theorem prepare_eq_ok {options : AmqpAdapterOptions} {env : PublishEnvironment}
    {eventType : String} {payload : List UInt8} {publishOptions : PublishOptions}
    {message : Message}
    (h : prepare options env eventType payload publishOptions = .ok message) :
    encodePayload options payload = .ok message.body ∧ message.routingKey = eventType ∧
      message.props.headers = publishHeaders options env publishOptions := by
  unfold prepare at h
  cases hbody : encodePayload options payload with
  | error error =>
    rw [hbody] at h
    cases h
  | ok body =>
    rw [hbody] at h
    obtain rfl := Except.ok.inj h
    exact ⟨rfl, rfl, rfl⟩

/-- `/channel closed|connection closed|closed unexpectedly/i`. -/
def isConnectionLostError (text : String) : Bool :=
  ["channel closed", "connection closed", "closed unexpectedly"].any fun phrase =>
    decide (phrase.toList <:+: text.toList.map Char.toLower)

structure ConfirmFailure where
  text : String
  closing : Bool
  channelClosed : Bool
  channelSwapped : Bool
  routingKey : String

def classifyConfirmError (params : ConfirmFailure) : PublishError :=
  if params.closing || params.channelClosed || params.channelSwapped ||
      isConnectionLostError params.text then
    .connection "Connection lost while awaiting publish confirm"
  else .nack s!"Broker nacked message for routing key '{params.routingKey}'"

def notConnected : PublishError :=
  .connection "AmqpAdapter: not connected (or recovery in progress)"

def unroutable (routingKey : String) : PublishError :=
  .unroutable
    s!"Message unroutable (mandatory): no queue bound for routing key '{routingKey}'" routingKey

def timedOut (timeoutMs : ℕ) (routingKey : String) : PublishError :=
  .timeout (s!"No broker outcome within {timeoutMs}ms for routing key '{routingKey}'" ++
    " (message state UNKNOWN)")

/-- Where a publish is: waiting for its turn in `mandatoryChain`, waiting for the broker, before
its `finally` block, or done. -/
inductive PublishPhase where
  | queued
  | waiting
  | finalizing (outcome : Outcome)
  | settled (outcome : Outcome)
  deriving DecidableEq, Repr

def PublishPhase.isSettled : PublishPhase → Bool
  | .settled _ => true
  | .queued | .waiting | .finalizing _ => false

/-- One call of `publish`, with the channel and the chain that it found and the flag of its
`PendingReturn` record. The broker owes an answer to a message that is outstanding. -/
structure Publish where
  eventId : String
  channel : ℕ
  message : Message
  after : Option ℕ
  phase : PublishPhase := .queued
  returned : Bool := false
  outstanding : Bool := false
  deriving DecidableEq, Repr

/-- The publishing part of the adapter's closure. Channels are numbered as they are created, and
publishes as they are called; a pending record is given by the number of its publish. -/
structure Publisher where
  publishChannel : Option ℕ := none
  channels : ℕ := 0
  closedPublishChannels : List ℕ := []
  closing : Bool := false
  pendingReturns : List (String × ℕ) := []
  mandatoryChain : Option ℕ := none
  publishes : List Publish := []
  deriving DecidableEq, Repr

/-- What happens to one publish. -/
inductive PublishEvent where
  | started
  | failed
  | returned
  | confirmed
  | nacked
  | timedOut
  | lost
  | cleared
  | settled (outcome : Outcome)
  deriving DecidableEq, Repr

namespace Publisher

inductive Event where
  | refused (error : PublishError)
  | happened (publish : ℕ) (event : PublishEvent)
  deriving DecidableEq, Repr

/-- The calls of the adapter, the turns of its promises, and the frames, errors and timers that it
reacts to. Where `ch.publish` throws, the action has the text of the error. -/
inductive Action where
  | publish (env : PublishEnvironment) (eventType : String) (payload : List UInt8)
      (publishOptions : PublishOptions) (throws : Option String)
  | doPublish (publish : ℕ) (throws : Option String)
  | returned (publish : ℕ)
  | confirmed (publish : ℕ)
  | nacked (publish : ℕ) (text : String)
  | timedOut (publish : ℕ)
  | channelClosed (channel : ℕ) (text : String)
  | finalize (publish : ℕ)
  | failPendingReturns
  | channelCreated
  | clearPublishChannel
  | connect
  | disconnect

variable (s : Publisher)

def isOpen (channel : ℕ) : Bool :=
  decide (channel < s.channels) && !s.closedPublishChannels.contains channel

/-- A change of each publish. -/
def adjust (f : ℕ → Publish → Publish) : Publisher :=
  { s with publishes := s.publishes.mapIdx f }

/-- A change of one publish. -/
def adjustOne (i : ℕ) (f : Publish → Publish) : Publisher :=
  s.adjust fun j p => if j = i then f p else p

def eventsOf (f : ℕ → Publish → Option PublishEvent) : List Event :=
  (List.range s.publishes.length).filterMap fun i =>
    (s.publishes[i]?.bind (f i)).map (Event.happened i)

/-- `fn` in `settle(fn)`: nothing happens once the promise is settled. -/
def conclude (outcome : Outcome) (p : Publish) : Publish :=
  if p.phase = .waiting then { p with phase := .finalizing outcome } else p

/-- `doPublish`, up to its `await`. A closed channel throws. -/
def doPublish (options : AmqpAdapterOptions) (i : ℕ) (p : Publish) (throws : Option String) :
    Option (Publisher × List Event) :=
  let pending :=
    if options.mandatory then JsMap.set s.pendingReturns p.eventId i else s.pendingReturns
  match throws with
  | some text =>
    some (({ s with pendingReturns := pending }).adjustOne i fun p =>
        { p with
          phase := .finalizing (.rejected (.connection s!"Publish failed: {text}"))
          returned := false },
      [.happened i .failed])
  | none =>
    if s.isOpen p.channel then
      some (({ s with pendingReturns := pending }).adjustOne i fun p =>
          { p with phase := .waiting, returned := false, outstanding := true },
        [.happened i .started])
    else none

/-- The publish of a call, before its turn. -/
def begun (env : PublishEnvironment) (channel : ℕ) (message : Message) : Publish where
  eventId := env.randomUUID
  channel := channel
  message := message
  after := s.mandatoryChain

def call (p : Publish) : Publisher := { s with publishes := s.publishes ++ [p] }

/-- `publish`, up to the call of `doPublish` or to its place in `mandatoryChain`. A fresh uuid has
not been used before. -/
def publish (options : AmqpAdapterOptions) (env : PublishEnvironment) (eventType : String)
    (payload : List UInt8) (publishOptions : PublishOptions) (throws : Option String) :
    Option (Publisher × List Event) :=
  match s.publishChannel with
  | none => some (s, [.refused notConnected])
  | some ch =>
    if s.closing then some (s, [.refused notConnected])
    else
      match prepare options env eventType payload publishOptions with
      | .error error => some (s, [.refused error])
      | .ok message =>
        if s.publishes.any fun p => p.eventId = env.randomUUID then none
        else
          let p := s.begun env ch message
          if options.mandatory && !options.correlationHeader then
            some ({ s.call p with mandatoryChain := some s.publishes.length }, [])
          else (s.call p).doPublish options s.publishes.length p throws

/-- `mandatoryChain.then(doPublish, doPublish)`: the run before has settled. -/
def isTurn (p : Publish) : Bool :=
  match p.after with
  | none => true
  | some i => s.publishes[i]?.any fun earlier => earlier.phase.isSettled

/-- The records that the `return` listener marks for a returned message. -/
def marked (message : Message) : List ℕ :=
  match message.props.headers.lookup publishIdHeader with
  | some id => (s.pendingReturns.lookup id).toList
  | none => s.pendingReturns.map Prod.snd

/-- The `return` listener. -/
def onReturn (message : Message) : Publisher :=
  s.adjust fun j p => if j ∈ s.marked message then { p with returned := true } else p

/-- The positive confirm callback. -/
def onAck (p : Publish) : Publish :=
  conclude (if p.returned then .rejected (unroutable p.message.routingKey) else .resolved)
    { p with outstanding := false }

/-- The confirm callback with an error. -/
def onConfirmError (text : String) (p : Publish) : Publish :=
  conclude (.rejected (classifyConfirmError
      { text := text
        closing := s.closing
        channelClosed := s.closedPublishChannels.contains p.channel
        channelSwapped := decide (s.publishChannel ≠ some p.channel)
        routingKey := p.message.routingKey }))
    { p with outstanding := false }

/-- The `close` event of a channel, with the callbacks of its unconfirmed messages. -/
def close (channel : ℕ) (text : String) : Publisher :=
  let closed := { s with closedPublishChannels := channel :: s.closedPublishChannels }
  closed.adjust fun _ p =>
    if p.channel = channel ∧ p.outstanding = true then closed.onConfirmError text p else p

/-- The `finally` block and the end of the publish. -/
def finalize (options : AmqpAdapterOptions) (i : ℕ) (p : Publish) (outcome : Outcome) :
    Publisher :=
  { s with
    pendingReturns :=
      if options.mandatory then JsMap.delete s.pendingReturns p.eventId else s.pendingReturns
  }.adjustOne i fun p => { p with phase := .settled outcome }

def isPending (j : ℕ) (p : Publish) : Bool := s.pendingReturns.contains (p.eventId, j)

/-- A step that is about a publish in some condition. -/
def onPublish (i : ℕ) (condition : Publish → Bool) (f : Publish → Option (Publisher × List Event)) :
    Option (Publisher × List Event) :=
  match s.publishes[i]? with
  | some p => if condition p then f p else none
  | none => none

/-- A message is returned and answered while it is outstanding, and returned only if it is
mandatory. -/
def step (options : AmqpAdapterOptions) : Machine.Step Publisher Action Event
  | s, .publish env eventType payload publishOptions throws =>
    s.publish options env eventType payload publishOptions throws
  | s, .doPublish i throws =>
    s.onPublish i (fun p => decide (p.phase = .queued) && s.isTurn p) fun p =>
      s.doPublish options i p throws
  | s, .returned i =>
    s.onPublish i (fun p => p.outstanding && p.message.props.mandatory) fun p =>
      some (s.onReturn p.message, [.happened i .returned])
  | s, .confirmed i =>
    s.onPublish i Publish.outstanding fun _ =>
      some (s.adjustOne i onAck, [.happened i .confirmed])
  | s, .nacked i text =>
    s.onPublish i Publish.outstanding fun _ =>
      some (s.adjustOne i (s.onConfirmError text), [.happened i .nacked])
  | s, .timedOut i =>
    s.onPublish i (fun p => decide (p.phase = .waiting)) fun p =>
      some (s.adjustOne i (conclude (.rejected
          (Amqp.timedOut options.timeoutMs p.message.routingKey))),
        [.happened i .timedOut])
  | s, .channelClosed channel text =>
    if s.isOpen channel then
      some (s.close channel text, s.eventsOf fun _ p =>
        if p.channel = channel ∧ p.outstanding = true then some .lost else none)
    else none
  | s, .finalize i =>
    match s.publishes[i]? with
    | some p =>
      match p.phase with
      | .finalizing outcome =>
        some (s.finalize options i p outcome, [.happened i (.settled outcome)])
      | .queued | .waiting | .settled _ => none
    | none => none
  | s, .failPendingReturns =>
    some ({ s with pendingReturns := [] }, s.eventsOf fun j p =>
      if s.isPending j p then some .cleared else none)
  | s, .channelCreated =>
    some ({ s with publishChannel := some s.channels, channels := s.channels + 1 }, [])
  | s, .clearPublishChannel => some ({ s with publishChannel := none }, [])
  | s, .connect => some ({ s with closing := false }, [])
  | s, .disconnect => some ({ s with closing := true }, [])

/-- What a step of the publisher can do. -/
inductive Step (options : AmqpAdapterOptions) : Action → Publisher → List Event → Prop
  | quiet {a : Action} {s' : Publisher} {out : List Event} : s'.publishes = s.publishes →
      s'.pendingReturns = s.pendingReturns → s'.mandatoryChain = s.mandatoryChain →
      (∀ channel, s.isOpen channel = true → s'.isOpen channel = true) →
      (out = [] ∨ ∃ error, out = [.refused error]) → Step options a s' out
  | queued {env : PublishEnvironment} {eventType : String} {payload : List UInt8}
      {publishOptions : PublishOptions} {throws : Option String} (channel : ℕ)
      (message : Message) :
      prepare options env eventType payload publishOptions = .ok message →
      (∀ p ∈ s.publishes, p.eventId ≠ env.randomUUID) →
      (options.mandatory && !options.correlationHeader) = true →
      Step options (.publish env eventType payload publishOptions throws)
        { s.call (s.begun env channel message) with mandatoryChain := some s.publishes.length } []
  | called {env : PublishEnvironment} {eventType : String} {payload : List UInt8}
      {publishOptions : PublishOptions} {throws : Option String} (channel : ℕ)
      (message : Message) {s' : Publisher} {out : List Event} :
      prepare options env eventType payload publishOptions = .ok message →
      (∀ p ∈ s.publishes, p.eventId ≠ env.randomUUID) →
      (options.mandatory && !options.correlationHeader) = false →
      (s.call (s.begun env channel message)).doPublish options s.publishes.length
        (s.begun env channel message) throws = some (s', out) →
      Step options (.publish env eventType payload publishOptions throws) s' out
  | doPublish {i : ℕ} {throws : Option String} (p : Publish) {s' : Publisher} {out : List Event} :
      s.publishes[i]? = some p → p.phase = .queued → s.isTurn p = true →
      s.doPublish options i p throws = some (s', out) → Step options (.doPublish i throws) s' out
  | returned {i : ℕ} (p : Publish) : s.publishes[i]? = some p → p.outstanding = true →
      Step options (.returned i) (s.onReturn p.message) [.happened i .returned]
  | confirmed {i : ℕ} (p : Publish) : s.publishes[i]? = some p → p.outstanding = true →
      Step options (.confirmed i) (s.adjustOne i onAck) [.happened i .confirmed]
  | nacked {i : ℕ} {text : String} (p : Publish) : s.publishes[i]? = some p →
      p.outstanding = true →
      Step options (.nacked i text) (s.adjustOne i (s.onConfirmError text)) [.happened i .nacked]
  | timedOut {i : ℕ} (p : Publish) : s.publishes[i]? = some p → p.phase = .waiting →
      Step options (.timedOut i)
        (s.adjustOne i (conclude (.rejected
          (Amqp.timedOut options.timeoutMs p.message.routingKey))))
        [.happened i .timedOut]
  | channelClosed {channel : ℕ} {text : String} : s.isOpen channel = true →
      Step options (.channelClosed channel text) (s.close channel text)
        (s.eventsOf fun _ p =>
          if p.channel = channel ∧ p.outstanding = true then some .lost else none)
  | finalize {i : ℕ} (p : Publish) (outcome : Outcome) : s.publishes[i]? = some p →
      p.phase = .finalizing outcome →
      Step options (.finalize i) (s.finalize options i p outcome)
        [.happened i (.settled outcome)]
  | failPendingReturns :
      Step options .failPendingReturns { s with pendingReturns := [] }
        (s.eventsOf fun j p => if s.isPending j p then some .cleared else none)

variable {s} {s' : Publisher} {options : AmqpAdapterOptions} {a : Action} {out : List Event}

theorem onPublish_eq_some {i : ℕ} {condition : Publish → Bool}
    {f : Publish → Option (Publisher × List Event)} :
    s.onPublish i condition f = some (s', out) ↔
      ∃ p, s.publishes[i]? = some p ∧ condition p = true ∧ f p = some (s', out) := by
  unfold onPublish
  cases s.publishes[i]? with
  | none => simp
  | some p => simp

theorem publish_cases {env : PublishEnvironment} {eventType : String} {payload : List UInt8}
    {publishOptions : PublishOptions} {throws : Option String}
    (h : s.publish options env eventType payload publishOptions throws = some (s', out)) :
    Step s options (.publish env eventType payload publishOptions throws) s' out := by
  have hrefused : ∀ error, some (s, [Event.refused error]) = some (s', out) →
      Step s options (.publish env eventType payload publishOptions throws) s' out := by
    intro error heq
    obtain ⟨rfl, rfl⟩ := Prod.mk.inj (Option.some.inj heq)
    exact .quiet rfl rfl rfl (fun _ hopen => hopen) (.inr ⟨error, rfl⟩)
  unfold publish at h
  split at h
  next => exact hrefused _ h
  next channel hchannel =>
    split at h
    next => exact hrefused _ h
    next =>
      split at h
      next => exact hrefused _ h
      next message hmessage =>
        split at h
        next => cases h
        next hfresh =>
          have hfresh : ∀ p ∈ s.publishes, p.eventId ≠ env.randomUUID := by
            simpa using hfresh
          dsimp only at h
          split at h
          next hchain =>
            obtain ⟨rfl, rfl⟩ := Prod.mk.inj (Option.some.inj h)
            exact .queued channel message hmessage hfresh hchain
          next hchain =>
            exact .called channel message hmessage hfresh (by simpa using hchain) h

theorem step_cases (h : step options s a = some (s', out)) : Step s options a s' out := by
  cases a with
  | publish => exact publish_cases h
  | doPublish i throws =>
    obtain ⟨p, hp, hcondition, h⟩ := onPublish_eq_some.mp h
    obtain ⟨hphase, hturn⟩ := Bool.and_eq_true_iff.mp hcondition
    exact .doPublish p hp (of_decide_eq_true hphase) hturn h
  | returned i =>
    obtain ⟨p, hp, hcondition, h⟩ := onPublish_eq_some.mp h
    obtain ⟨rfl, rfl⟩ := Prod.mk.inj (Option.some.inj h)
    exact .returned p hp (Bool.and_eq_true_iff.mp hcondition).1
  | confirmed i =>
    obtain ⟨p, hp, hout, h⟩ := onPublish_eq_some.mp h
    obtain ⟨rfl, rfl⟩ := Prod.mk.inj (Option.some.inj h)
    exact .confirmed p hp hout
  | nacked i text =>
    obtain ⟨p, hp, hout, h⟩ := onPublish_eq_some.mp h
    obtain ⟨rfl, rfl⟩ := Prod.mk.inj (Option.some.inj h)
    exact .nacked p hp hout
  | timedOut i =>
    obtain ⟨p, hp, hphase, h⟩ := onPublish_eq_some.mp h
    obtain ⟨rfl, rfl⟩ := Prod.mk.inj (Option.some.inj h)
    exact .timedOut p hp (of_decide_eq_true hphase)
  | channelClosed channel text =>
    simp only [step] at h
    split at h
    next hopen =>
      obtain ⟨rfl, rfl⟩ := Prod.mk.inj (Option.some.inj h)
      exact .channelClosed hopen
    next => cases h
  | finalize i =>
    simp only [step] at h
    split at h
    next p hp =>
      split at h
      next outcome hphase =>
        obtain ⟨rfl, rfl⟩ := Prod.mk.inj (Option.some.inj h)
        exact .finalize p outcome hp hphase
      all_goals cases h
    next => cases h
  | failPendingReturns =>
    obtain ⟨rfl, rfl⟩ := Prod.mk.inj (Option.some.inj h)
    exact .failPendingReturns
  | channelCreated =>
    obtain ⟨rfl, rfl⟩ := Prod.mk.inj (Option.some.inj h)
    refine .quiet rfl rfl rfl (fun channel hopen => ?_) (.inl rfl)
    obtain ⟨hlt, hclosed⟩ := Bool.and_eq_true_iff.mp hopen
    exact Bool.and_eq_true_iff.mpr
      ⟨decide_eq_true (Nat.lt_succ_of_lt (of_decide_eq_true hlt)), hclosed⟩
  | clearPublishChannel | connect | disconnect =>
    obtain ⟨rfl, rfl⟩ := Prod.mk.inj (Option.some.inj h)
    exact .quiet rfl rfl rfl (fun _ hopen => hopen) (.inl rfl)

end Publisher
end Connectum.Events.Amqp
