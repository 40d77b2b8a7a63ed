import Connectum.Events.Nats.JetStream

/-! The subscriptions of the NATS adapter: one durable consumer for each pattern. -/
namespace Connectum.Events.Nats

def DEFAULT_ACK_WAIT_NS : ℕ := 30000000000

def DEFAULT_MAX_DELIVER : ℤ := 5

def MS_TO_NS : ℕ := 1000000

structure ConsumerOptions where
  deliverPolicy : Option DeliverPolicy := none
  ackWait : Option ℕ := none
  maxDeliver : Option ℤ := none

structure NatsAdapterOptions where
  stream : Option String := none
  consumerOptions : ConsumerOptions := {}

def NatsAdapterOptions.streamName (options : NatsAdapterOptions) : String :=
  options.stream.getD "events"

def toDeliverPolicy (policy : Option DeliverPolicy) : DeliverPolicy :=
  match policy with
  | some .all => .all
  | some .last => .last
  | _ => .new

def isDurableChar (c : Char) : Bool :=
  ('a' ≤ c && c ≤ 'z') || ('A' ≤ c && c ≤ 'Z') || ('0' ≤ c && c ≤ '9') || c = '_' || c = '-'

/-- Every other UTF-16 code unit is replaced with `_`. -/
def sanitizeDurableName (name : String) : String :=
  String.ofList (name.toList.flatMap fun c =>
    if isDurableChar c then [c] else if c.toNat < 0x10000 then ['_'] else ['_', '_'])

/-- `sha256` is the digest in hexadecimal. -/
def consumerName (sha256 : String → String) (group pattern : String) : String :=
  let suffix := String.ofList ((sha256 (group ++ "\x00" ++ pattern)).toList.take 8)
  sanitizeDurableName group ++ "--" ++ sanitizeDurableName pattern ++ "--" ++ suffix

/-- The subject that an event of this type is published to, and that a pattern filters by. -/
def NatsAdapterOptions.subject (options : NatsAdapterOptions) (eventType : String) : String :=
  options.streamName ++ "." ++ eventType

/-- The event type in the subject of a delivered message. -/
def NatsAdapterOptions.eventType (options : NatsAdapterOptions) (subject : String) : String :=
  let subjectPrefix := (options.streamName ++ ".").toList
  if subjectPrefix.isPrefixOf subject.toList then
    String.ofList (subject.toList.drop subjectPrefix.length)
  else subject

/-- The functions that the adapter is made of: the digest and the random identifiers. -/
structure Crypto where
  sha256 : String → String
  randomUUID : String

abbrev NatsProgram (R : Type) := Async Call Call.Answer Broker R

/-- What `subscribe()` returns, as far as its cleanup reads it. -/
structure Subscription where
  isAutoGroup : Bool
  messageIterators : List ℕ
  createdDurables : List String
  deriving DecidableEq, Repr

variable (crypto : Crypto) (options : NatsAdapterOptions)

def consumerConfig (group pattern : String) : ConsumerConfig where
  durableName := consumerName crypto.sha256 group pattern
  ackPolicy := .explicit
  deliverPolicy := toDeliverPolicy options.consumerOptions.deliverPolicy
  filterSubject := options.subject pattern
  ackWait := match options.consumerOptions.ackWait with
    | some ackWait => if ackWait = 0 then DEFAULT_ACK_WAIT_NS else ackWait * MS_TO_NS
    | none => DEFAULT_ACK_WAIT_NS
  maxDeliver := options.consumerOptions.maxDeliver.getD DEFAULT_MAX_DELIVER

/-- The `try` block: the error that ended it, if one did, with the iterators and the durables that
it has tracked by then. -/
def declareConsumers (group : String) : List String → List ℕ → List String →
    NatsProgram (Option String × List ℕ × List String)
  | [], messageIterators, createdDurables => .done (none, messageIterators, createdDurables)
  | pattern :: patterns, messageIterators, createdDurables =>
    let durableName := consumerName crypto.sha256 group pattern
    .await (.add options.streamName (consumerConfig crypto options group pattern)) fun
    | .error error => .done (some error, messageIterators, createdDurables)
    | .ok _ =>
      let createdDurables := createdDurables ++ [durableName]
      .await (.get options.streamName durableName) fun
      | .error error => .done (some error, messageIterators, createdDurables)
      | .ok _ =>
        .await (.consume durableName) fun
        | .error error => .done (some error, messageIterators, createdDurables)
        | .ok messages =>
          declareConsumers group patterns (messageIterators ++ [messages]) createdDurables

def closeIterators : List ℕ → NatsProgram Unit
  | [] => .done ()
  | iterator :: iterators => .await (.close iterator) fun _ => closeIterators iterators

def deleteDurables : List String → NatsProgram Unit
  | [] => .done ()
  | durableName :: durables =>
    .await (.delete options.streamName durableName) fun _ => deleteDurables durables

/-- `subscribe()` of a connected adapter; `group` is the one of its options. -/
def subscribe (patterns : List String) (group : Option String) :
    NatsProgram (Except String Subscription) := do
  let isAutoGroup := group.all (· = "")
  let group := group.getD ("sub-" ++ String.ofList (crypto.randomUUID.toList.take 8))
  let (error, messageIterators, createdDurables) ←
    declareConsumers crypto options group patterns [] []
  match error with
  | none => return .ok ⟨isAutoGroup, messageIterators, createdDurables⟩
  | some error =>
    -- the `catch` block: an iterator or a durable that is not cleaned up is passed over
    closeIterators messageIterators
    deleteDurables options createdDurables
    return .error error

open Async Broker

abbrev NatsTrace := List (Answered Call Call.Answer Broker)

def openedBy (trace : NatsTrace) : List (ℕ × String) :=
  trace.flatMap fun x => opens x.query x.answer

/-- The durables of the `consumers.add` calls that succeeded. -/
def addedBy (trace : NatsTrace) : List String :=
  trace.flatMap fun x => declares x.query x.answer

variable {crypto : Crypto} {options : NatsAdapterOptions} {group : String} {patterns : List String}
  {messageIterators iterators : List ℕ} {createdDurables durables : List String} {b t : Broker}
  {trace : NatsTrace} {error : Option String}

/-- The loop tracks what it opens and what it declares. -/
theorem tracked_declareConsumers (h : ExecIn Answers
    (declareConsumers crypto options group patterns messageIterators createdDurables) b trace t
    (error, iterators, durables)) :
    Tracked b t (openedBy trace) (addedBy trace) ∧
      iterators = messageIterators ++ (openedBy trace).map Prod.fst ∧
      durables = createdDurables ++ addedBy trace := by
  induction patterns generalizing messageIterators createdDurables b trace with
  | nil =>
    obtain ⟨hr, rfl, rfl⟩ := execIn_done_iff.mp h
    obtain ⟨-, rfl, rfl⟩ := hr
    exact ⟨Tracked.refl t, by simp [openedBy], by simp [addedBy]⟩
  | cons pattern patterns ih =>
    obtain ⟨added, u, trace, rfl, hadd, h⟩ := execIn_await_iff.mp h
    have hadd' := tracked_of_answers hadd (by simp) (by simp)
    cases added with
    | error e =>
      obtain ⟨hr, rfl, rfl⟩ := execIn_done_iff.mp h
      obtain ⟨-, rfl, rfl⟩ := hr
      exact ⟨hadd', by simp [openedBy, opens], by simp [addedBy, declares]⟩
    | ok _ =>
      obtain ⟨got, v, trace, rfl, hget, h⟩ := execIn_await_iff.mp h
      have hget' := hadd'.trans (tracked_of_answers hget (by simp) (by simp))
      cases got with
      | error e =>
        obtain ⟨hr, rfl, rfl⟩ := execIn_done_iff.mp h
        obtain ⟨-, rfl, rfl⟩ := hr
        exact ⟨hget', by simp [openedBy, opens], by simp [addedBy, declares, consumerConfig]⟩
      | ok _ =>
        obtain ⟨consumed, w, trace, rfl, hconsume, h⟩ := execIn_await_iff.mp h
        have hconsume' := hget'.trans (tracked_of_answers hconsume (by simp) (by simp))
        cases consumed with
        | error e =>
          obtain ⟨hr, rfl, rfl⟩ := execIn_done_iff.mp h
          obtain ⟨-, rfl, rfl⟩ := hr
          exact ⟨hconsume', by simp [openedBy, opens], by simp [addedBy, declares, consumerConfig]⟩
        | ok messages =>
          obtain ⟨htracked, hiterators, hdurables⟩ := ih h
          refine ⟨hconsume'.trans htracked, ?_, ?_⟩
          · simpa [openedBy, opens] using hiterators
          · simpa [addedBy, declares, consumerConfig] using hdurables

/-- The consumer of a pattern is there, and an iterator pulls from it. -/
structure Declared (crypto : Crypto) (options : NatsAdapterOptions) (group : String) (t : Broker)
    (pattern : String) : Prop where
  streamName : IsStreamName options.streamName
  filter : IsFilter (options.subject pattern)
  found : ∃ d, t.find (consumerName crypto.sha256 group pattern) = some d ∧
    d.config = consumerConfig crypto options group pattern
  isOpen : consumerName crypto.sha256 group pattern ∈ t.iterators.map Prod.snd

theorem Declared.tracked {pattern : String} {opened : List (ℕ × String)} {added : List String}
    (h : Declared crypto options group b pattern) (ht : Tracked b t opened added) :
    Declared crypto options group t pattern where
  streamName := h.streamName
  filter := h.filter
  found := by
    obtain ⟨d, hd, hconfig⟩ := h.found
    obtain ⟨d', hd', hfollows⟩ := ht.kept _ d hd
    exact ⟨d', hd', hfollows.1.trans hconfig⟩
  isOpen := by
    rw [ht.iterators, List.map_append]
    exact List.mem_append_left _ h.isOpen

theorem declared_of_consume {pattern : String} {u v w : Broker} {iterator : ℕ}
    (hadd : Answers (.add options.streamName
      (consumerConfig crypto options group pattern)) (.ok ()) b u)
    (hget : Tracked u v [] [])
    (hconsume : Answers (.consume (consumerName crypto.sha256 group pattern)) (.ok iterator) v w) :
    Declared crypto options group w pattern := by
  obtain ⟨b', actions, log, heffect, hrun⟩ := hadd
  obtain ⟨hstream, hfilter, -⟩ := add_cases heffect
  obtain ⟨d, hd, hconfig⟩ := found_of_add heffect
  have hw := tracked_of_answers hconsume (by simp) (by simp)
  obtain ⟨d', hd', hfollows⟩ := (((tracked_run hrun).trans hget).trans hw).kept _ d hd
  refine ⟨hstream, hfilter, ⟨d', hd', hfollows.1.trans hconfig⟩, ?_⟩
  rw [hw.iterators, List.map_append]
  exact List.mem_append_right _ (by simp [opens])

/-- When no call fails, every pattern has its consumer. -/
theorem declared_of_success (h : ExecIn Answers
    (declareConsumers crypto options group patterns messageIterators createdDurables) b trace t
    (none, iterators, durables)) :
    durables = createdDurables ++ patterns.map (consumerName crypto.sha256 group) ∧
      ∀ pattern ∈ patterns, Declared crypto options group t pattern := by
  induction patterns generalizing messageIterators createdDurables b trace with
  | nil =>
    obtain ⟨hr, rfl, rfl⟩ := execIn_done_iff.mp h
    obtain ⟨-, rfl, rfl⟩ := hr
    simp
  | cons pattern patterns ih =>
    obtain ⟨added, u, trace, rfl, hadd, h⟩ := execIn_await_iff.mp h
    cases added with
    | error e => exact absurd (execIn_done_iff.mp h).1 (by simp)
    | ok _ =>
      obtain ⟨got, v, trace, rfl, hget, h⟩ := execIn_await_iff.mp h
      cases got with
      | error e => exact absurd (execIn_done_iff.mp h).1 (by simp)
      | ok _ =>
        obtain ⟨consumed, w, trace, rfl, hconsume, h⟩ := execIn_await_iff.mp h
        cases consumed with
        | error e => exact absurd (execIn_done_iff.mp h).1 (by simp)
        | ok messages =>
          have hpattern := declared_of_consume hadd
            (tracked_of_answers hget (by simp) (by simp)) hconsume
          obtain ⟨hdurables, hdeclared⟩ := ih h
          obtain ⟨htracked, -, -⟩ := tracked_declareConsumers h
          refine ⟨by simp [hdurables], ?_⟩
          intro p hp
          rcases List.mem_cons.mp hp with rfl | hp
          · exact hpattern.tracked htracked
          · exact hdeclared p hp

/-- SHA-256 on the names of a few consumers of the group `orders`. -/
def ordersCrypto : Crypto where
  sha256 s :=
    if s = "orders\x00order.created" then
      "6f62219fa0496933a2f70e6084f5fa956eb35f0d6e6f351b407f88eecd0a99a5"
    else if s = "orders\x00order.paid" then
      "137474a8648d07fbb53c2b9cb41675adc5d308521f0e6fee53afac209d781df4"
    else if s = "orders\x00order.*" then
      "d3eaade672626c6a020c5422c0c46ecdcf064242b5002c7c9784fc70fc96e536"
    else ""
  randomUUID := "0b2f5a7c-6c1e-4d35-9a55-0d6a1f2b7c11"

example : consumerName ordersCrypto.sha256 "orders" "order.*" = "orders--order__--d3eaade6" := by
  decide

/-- `subscribe()` of the group `orders`, at a broker that fails no call that it can answer. -/
def subscribeOrders (patterns : List String) (b : Broker) :
    NatsTrace × Broker × Except String Subscription :=
  runIn respond (subscribe ordersCrypto {} patterns (some "orders")) b

theorem execIn_subscribeOrders {result : Except String Subscription}
    (h : (subscribeOrders patterns b).2 = (t, result)) :
    ExecIn Answers (subscribe ordersCrypto {} patterns (some "orders")) b
      (subscribeOrders patterns b).1 t result := by
  have hrun := execIn_runIn answers_respond (subscribe ordersCrypto {} patterns (some "orders")) b
  rw [subscribeOrders] at h
  rwa [h] at hrun

end Connectum.Events.Nats
