import Connectum.Events.Amqp.Envelope
import Connectum.Events.Kafka.Publish
import Connectum.Events.Redis.Publish

/-! What the adapters publish, and the events that their consumers make of it. -/
namespace Connectum.Events

/-- The id of an event, its type, its payload and its metadata. -/
structure RawEvent.Carries (raw : RawEvent) (eventId eventType : String) (payload : List UInt8)
    (metadata : List (String × String)) : Prop where
  eventId : raw.eventId = eventId
  eventType : raw.eventType = eventType
  payload : raw.payload = payload
  metadata : raw.metadata = metadata

/-- For each adapter, the event that its consumer makes of what `publish` has put on the wire. -/
theorem envelope_round_trip (eventType : String) (payload : List UInt8)
    (metadata : List (String × String)) (hproto : "__proto__" ∉ metadata.map Prod.fst)
    (hnodup : (metadata.map Prod.fst).Nodup) :
    (∀ (connected : Bool) (maxLen : Option ℕ) (env : Redis.PublishEnvironment)
        (environment : Redis.Environment) (args : List String) (entryId : String) (attempt : ℕ),
      environment.fromBase64 (env.toBase64 payload) = payload →
      Redis.publish connected maxLen env eventType payload metadata = .ok args →
      (Redis.rawEvent environment (Redis.stored entryId args) attempt).Carries
        env.randomUUID eventType payload metadata) ∧
    (∀ (connected : Bool) (compression : Option ℕ) (env : Kafka.PublishEnvironment)
        (environment : Kafka.Environment) (key : Option String) (record : Kafka.ProducerRecord)
        (offset : ℕ) (timestamp : Option String),
      (∀ text, environment.utf8 (Kafka.bufferFrom text) = text) →
      Kafka.publish connected compression env eventType payload ⟨metadata, key⟩ = .ok record →
      (Kafka.rawEvent environment record.topic ⟨offset, record.key.map Kafka.bufferFrom,
          some record.value, record.headers, timestamp⟩).Carries
        env.randomUUID eventType payload
        (metadata.filter fun e => e.1 ∉ Kafka.internalHeaders)) ∧
    ∀ (options : Amqp.AmqpAdapterOptions) (decode : Option (List UInt8 → Option (List UInt8)))
        (env : Amqp.PublishEnvironment) (environment : Amqp.Environment)
        (messageId : Option String) (timestamp : Option ℤ) (message : Amqp.Message)
        (redelivered : Bool),
      options.externalContract = false →
      (∀ payload body, Amqp.encodePayload options payload = .ok body →
        Amqp.decodeContent decode body = some payload) →
      Amqp.prepare options env eventType payload ⟨metadata, messageId, timestamp⟩ = .ok message →
      ∃ raw : RawEvent,
        (∀ (Handler : Type) (topicHandlerMap : List (String × Handler)) (draining : Bool)
            (signal : List AbortSource),
          Amqp.consume topicHandlerMap draining signal environment decode
              (message.delivered redelivered) =
            Amqp.handOver topicHandlerMap draining signal raw) ∧
        raw.Carries env.randomUUID eventType payload
          (metadata.filter fun e => e.1 ∉ Amqp.internalHeaders) := by
  refine ⟨?redis, ?kafka, ?amqp⟩
  case redis =>
    intro connected maxLen env environment args entryId attempt hbase64 hpublish
    obtain ⟨hid, htype, hpayload, hmetadata⟩ :=
      Redis.rawEvent_publish hpublish hbase64 hnodup entryId attempt
    exact ⟨hid, htype, hpayload, hmetadata⟩
  case kafka =>
    intro connected compression env environment key record offset timestamp hutf8 hpublish
    obtain ⟨hid, htype, hpayload, hmetadata⟩ :=
      Kafka.rawEvent_publish hpublish hutf8 hproto hnodup offset timestamp
    exact ⟨hid, htype, hpayload, hmetadata⟩
  case amqp =>
    intro options decode env environment messageId timestamp message redelivered hnormal hinverse
      hprepare
    have hbody : Amqp.decodeContent decode message.body = some payload :=
      hinverse payload message.body (Amqp.prepare_eq_ok hprepare).1
    obtain ⟨hid, htype, hpayload, hmetadata⟩ :=
      Amqp.rawEvent_prepare environment hnormal hprepare hproto hnodup redelivered
    apply Exists.intro
      (Amqp.rawEvent environment (message.delivered redelivered) payload)
    constructor
    · intro Handler topicHandlerMap draining signal
      exact Amqp.consume_of_decodeContent topicHandlerMap draining signal environment hbody
    · exact ⟨hid, htype, hpayload, hmetadata⟩

/-- Metadata whose keys look like the fields and headers of the envelopes. -/
def lookalikes : List (String × String) :=
  [("payload", "p"), ("meta:x", "m"), ("x-event-id", "spoofed")]

theorem envelope_round_trip_lookalikes :
    (Redis.rawEvent ⟨0, fun _ => none, fun text => if text = "aGk=" then [104, 105] else []⟩
        (Redis.stored "1-0" (["events:user.created", "*"] ++ Redis.flatten (Redis.entryFields
          ⟨"evt-1", "2026-01-01T00:00:00.000Z", fun bytes => if bytes = [104, 105] then "aGk="
            else ""⟩ "user.created" [104, 105] lookalikes))) 1).Carries
      "evt-1" "user.created" [104, 105] lookalikes ∧
    (Kafka.rawEvent ⟨"uuid", 0, fun _ => none, fun _ => none, Kafka.utf8⟩ "user.created"
        ⟨7, none, some [104, 105], Kafka.publishHeaders ⟨"evt-1", "2026-01-01T00:00:00.000Z"⟩
          lookalikes, none⟩).Carries
      "evt-1" "user.created" [104, 105] [("payload", "p"), ("meta:x", "m")] ∧
    ∃ raw : RawEvent,
      (∀ topicHandlerMap : List (String × Unit),
        Amqp.consume topicHandlerMap false [] ⟨"uuid", 0, fun _ => none⟩ none
            (Amqp.Message.delivered ⟨"connectum.events", "user.created", [104, 105],
              Amqp.publishProps {} ⟨"evt-1", 0, "2026-01-01T00:00:00.000Z"⟩
                { metadata := lookalikes }⟩ false) =
          Amqp.handOver topicHandlerMap false [] raw) ∧
      raw.Carries "evt-1" "user.created" [104, 105] [("payload", "p"), ("meta:x", "m")] := by
  obtain ⟨hredis, hkafka, hamqp⟩ := envelope_round_trip "user.created" [104, 105] lookalikes
    (by decide) (by decide)
  refine ⟨?redis, ?kafka, ?amqp⟩
  case redis =>
    exact hredis true none ⟨"evt-1", "2026-01-01T00:00:00.000Z", _⟩ _ _ "1-0" 1 rfl rfl
  case kafka =>
    exact hkafka true none ⟨"evt-1", "2026-01-01T00:00:00.000Z"⟩ _ none _ 7 none
      Kafka.utf8_bufferFrom rfl
  case amqp =>
    obtain ⟨raw, hconsume, hraw⟩ := hamqp {} none ⟨"evt-1", 0, "2026-01-01T00:00:00.000Z"⟩
      ⟨"uuid", 0, fun _ => none⟩ none none _ false rfl
      (fun payload body hbody => congrArg some (Except.ok.inj hbody).symm) rfl
    exact ⟨raw, fun topicHandlerMap => hconsume Unit topicHandlerMap false [], hraw⟩

end Connectum.Events
