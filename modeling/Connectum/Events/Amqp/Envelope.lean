import Connectum.Events.Amqp.Publish

/-! The event that the AMQP consumer makes of a message that the adapter has published. -/
namespace Connectum.Events.Amqp

/-- A published message as the client library delivers it: its headers, its properties and its
body are unchanged. -/
def Message.delivered (message : Message) (redelivered : Bool) : ConsumeMessage where
  headers := message.props.headers.map (Prod.map id some)
  messageId := message.props.messageId
  timestamp := message.props.timestamp
  routingKey := message.routingKey
  redelivered := redelivered
  content := message.body

/-- `decode ? decode(content) : content`, where a decoder that throws gives `none`. -/
def decodeContent (decode : Option (List UInt8 → Option (List UInt8))) (content : List UInt8) :
    Option (List UInt8) :=
  match decode with
  | none => some content
  | some decode => decode content

variable {options : AmqpAdapterOptions} {env : PublishEnvironment}
  {publishOptions : PublishOptions} {metadata : List (String × String)}

/-- `record.handler(rawEvent, ack, nack)`. -/
def handOver {Handler : Type*} (topicHandlerMap : List (String × Handler)) (draining : Bool)
    (signal : List AbortSource) (raw : RawEvent) : Callback × List ChannelCall :=
  let r := Delivery.receive topicHandlerMap draining signal raw
  (⟨some r.1, false⟩, r.2.map channelCall)

/-- A message that is decoded is handed to the bus as its raw event. -/
theorem consume_of_decodeContent {Handler : Type*} (topicHandlerMap : List (String × Handler))
    (draining : Bool) (signal : List AbortSource) (environment : Environment)
    {decode : Option (List UInt8 → Option (List UInt8))} {msg : ConsumeMessage}
    {payload : List UInt8} (h : decodeContent decode msg.content = some payload) :
    consume topicHandlerMap draining signal environment decode msg =
      handOver topicHandlerMap draining signal (rawEvent environment msg payload) := by
  unfold consume
  cases decode with
  | none =>
    obtain rfl := Option.some.inj h
    rfl
  | some decode =>
    change decode msg.content = some payload at h
    dsimp only
    rw [h]
    rfl

theorem userHeaders_eq (hproto : "__proto__" ∉ metadata.map Prod.fst)
    (hnodup : (metadata.map Prod.fst).Nodup) :
    userHeaders metadata = metadata.filter fun e => e.1 ∉ internalHeaders := by
  have hnodup' : ((metadata.filter fun e => e.1 ∉ internalHeaders).map Prod.fst).Nodup :=
    hnodup.sublist (List.filter_sublist.map Prod.fst)
  calc userHeaders metadata =
        metadata.foldl (fun headers e =>
          if decide (e.1 ∉ internalHeaders) = true then JsMap.set headers e.1 e.2
          else headers) [] := by
        apply List.foldl_ext
        intro headers e he
        have hne : e.1 ≠ "__proto__" := fun heq => hproto (heq ▸ List.mem_map_of_mem he)
        by_cases hinternal : e.1 ∈ internalHeaders
        · simp [hinternal]
        · simp [hinternal, assign, hne]
    _ = (metadata.filter fun e => e.1 ∉ internalHeaders).foldl
          (fun headers e => JsMap.set headers e.1 e.2) [] := by rw [List.foldl_filter]
    _ = metadata.filter fun e => e.1 ∉ internalHeaders := JsMap.foldl_set hnodup'

theorem filter_assign {headers : List (String × String)} {key value : String}
    (hkey : key ∈ internalHeaders) :
    (assign headers key value).filter (fun e => e.1 ∉ internalHeaders) =
      headers.filter fun e => e.1 ∉ internalHeaders := by
  have hfalse : decide (key ∉ internalHeaders) = false := by simp [hkey]
  unfold assign
  split
  · rfl
  · exact JsMap.filter_set (p := fun key => decide (key ∉ internalHeaders)) hfalse

/-- Without the internal headers, the user's are left. -/
theorem filter_publishHeaders (hproto : "__proto__" ∉ publishOptions.metadata.map Prod.fst)
    (hnodup : (publishOptions.metadata.map Prod.fst).Nodup) :
    (publishHeaders options env publishOptions).filter (fun e => e.1 ∉ internalHeaders) =
      publishOptions.metadata.filter fun e => e.1 ∉ internalHeaders := by
  have huser : (userHeaders publishOptions.metadata).filter (fun e => e.1 ∉ internalHeaders) =
      publishOptions.metadata.filter fun e => e.1 ∉ internalHeaders := by
    rw [userHeaders_eq hproto hnodup, List.filter_filter]
    simp
  have henvelope : (if options.externalContract then userHeaders publishOptions.metadata
      else assign (assign (userHeaders publishOptions.metadata) "x-event-id" env.randomUUID)
        "x-published-at" env.isoNow).filter (fun e => e.1 ∉ internalHeaders) =
      publishOptions.metadata.filter fun e => e.1 ∉ internalHeaders := by
    split
    · exact huser
    · rw [filter_assign (by decide), filter_assign (by decide), huser]
  dsimp only [publishHeaders]
  split
  · rw [filter_assign (by decide), henvelope]
  · exact henvelope

theorem lookup_assign_of_ne {headers : List (String × String)} {key other value : String}
    (hne : other ≠ key) : (assign headers key value).lookup other = headers.lookup other := by
  unfold assign
  split
  · rfl
  · exact JsMap.lookup_set_of_ne hne

/-- In its normal mode the adapter stamps the id of the event. -/
theorem lookup_eventId (hnormal : options.externalContract = false) :
    (publishHeaders options env publishOptions).lookup "x-event-id" = some env.randomUUID := by
  have hstamped (headers : List (String × String)) :
      (assign (assign headers "x-event-id" env.randomUUID) "x-published-at" env.isoNow).lookup
        "x-event-id" = some env.randomUUID := by
    rw [lookup_assign_of_ne (by decide), assign, if_neg (by decide), JsMap.lookup_set_self]
  dsimp only [publishHeaders]
  rw [hnormal]
  split
  · rw [lookup_assign_of_ne (by decide)]
    exact hstamped _
  · exact hstamped _

theorem parseHeaders_map (headers : List (String × String)) :
    parseHeaders (headers.map (Prod.map id some)) = headers := by
  rw [parseHeaders, List.filterMap_map]
  exact List.filterMap_some

/-- The consumer hands on what has been published, where it decodes what has been encoded. -/
theorem rawEvent_prepare (environment : Environment) {eventType : String} {payload : List UInt8}
    {message : Message} (hnormal : options.externalContract = false)
    (h : prepare options env eventType payload publishOptions = .ok message)
    (hproto : "__proto__" ∉ publishOptions.metadata.map Prod.fst)
    (hnodup : (publishOptions.metadata.map Prod.fst).Nodup) (redelivered : Bool) :
    let raw := rawEvent environment (message.delivered redelivered) payload
    raw.eventId = env.randomUUID ∧ raw.eventType = eventType ∧ raw.payload = payload ∧
      raw.metadata = publishOptions.metadata.filter fun e => e.1 ∉ internalHeaders := by
  obtain ⟨-, hkey, hheaders⟩ := prepare_eq_ok h
  dsimp only [rawEvent, Message.delivered]
  rw [hheaders, parseHeaders_map, lookup_eventId hnormal, filter_publishHeaders hproto hnodup]
  exact ⟨rfl, hkey, rfl, rfl⟩

end Connectum.Events.Amqp
