import Connectum.Events.Kafka.Envelope
import Connectum.JsMap
import Connectum.Urlencoded

/-! The publishing side of the Kafka adapter, and the event that the consumer makes of a message
that it has sent. -/
namespace Connectum.Events.Kafka

/-- A fresh uuid, and the clock as a text. -/
structure PublishEnvironment where
  randomUUID : String
  isoNow : String

structure PublishOptions where
  metadata : List (String × String) := []
  key : Option String := none

/-- The record handed to the producer. -/
structure ProducerRecord where
  topic : String
  key : Option String
  value : List UInt8
  headers : List (String × HeaderValue)
  compression : Option ℕ
  deriving DecidableEq, Repr

/-- `Buffer.from(text, "utf-8")`. -/
def bufferFrom (text : String) : List UInt8 := (Utf8.encode text.toList).map UInt8.ofNat

/-- `buffer.toString("utf-8")`. -/
def utf8 (bytes : List UInt8) : String := String.ofList (Utf8.decode (bytes.map UInt8.toNat))

/-- A header whose value is the text. -/
def header (text : String) : HeaderValue := .one (.buffer (bufferFrom text))

/-- `headers[key] = value`: for `__proto__` that is the prototype, and not a header. -/
def assign (headers : List (String × HeaderValue)) (key : String) (value : HeaderValue) :
    List (String × HeaderValue) :=
  if key = "__proto__" then headers else JsMap.set headers key value

def encodeMetadata (metadata : List (String × String)) : List (String × HeaderValue) :=
  metadata.foldl (fun headers e => assign headers e.1 (header e.2)) []

/-- User metadata first, and internal headers last, which overwrite any of the user's. -/
def publishHeaders (env : PublishEnvironment) (metadata : List (String × String)) :
    List (String × HeaderValue) :=
  let headers := (encodeMetadata metadata).foldl (fun headers e => assign headers e.1 e.2) []
  assign (assign headers "x-event-id" (header env.randomUUID))
    "x-published-at" (header env.isoNow)

def publish (connected : Bool) (compression : Option ℕ) (env : PublishEnvironment)
    (eventType : String) (payload : List UInt8) (publishOptions : PublishOptions) :
    Except String ProducerRecord :=
  if ¬ connected then .error "KafkaAdapter: not connected"
  else .ok
    { topic := eventType
      key := publishOptions.key
      value := payload
      headers := publishHeaders env publishOptions.metadata
      compression := compression }

/-- The headers that a publish sends, as texts. -/
def headerTexts (env : PublishEnvironment) (metadata : List (String × String)) :
    List (String × String) :=
  JsMap.set (JsMap.set metadata "x-event-id" env.randomUUID) "x-published-at" env.isoNow

variable {env : PublishEnvironment} {environment : Environment}
  {metadata : List (String × String)}

/-- A text is read back from its bytes. -/
theorem utf8_bufferFrom (text : String) : utf8 (bufferFrom text) = text := by
  have hbytes : ((Utf8.encode text.toList).map UInt8.ofNat).map UInt8.toNat =
      Utf8.encode text.toList := by
    rw [List.map_map]
    calc (Utf8.encode text.toList).map (UInt8.toNat ∘ UInt8.ofNat) =
          (Utf8.encode text.toList).map id := by
          apply List.map_congr_left
          intro byte hbyte
          have hlt : byte < UInt8.size := Utf8.lt_of_mem_encode hbyte
          exact UInt8.toNat_ofNat_of_lt' hlt
      _ = Utf8.encode text.toList := List.map_id _
  rw [utf8, bufferFrom, hbytes, Utf8.decode_encode, String.ofList_toList]

theorem foldl_assign {entries : List (String × HeaderValue)}
    (hproto : "__proto__" ∉ entries.map Prod.fst) (hnodup : (entries.map Prod.fst).Nodup) :
    entries.foldl (fun headers e => assign headers e.1 e.2) [] = entries := by
  calc entries.foldl (fun headers e => assign headers e.1 e.2) [] =
        entries.foldl (fun headers e => JsMap.set headers e.1 e.2) [] := by
        apply List.foldl_ext
        intro headers e he
        have hne : e.1 ≠ "__proto__" := fun heq => hproto (heq ▸ List.mem_map_of_mem he)
        rw [assign, if_neg hne]
    _ = entries := JsMap.foldl_set hnodup

theorem map_fst_headers :
    (metadata.map (Prod.map id header)).map Prod.fst = metadata.map Prod.fst := by
  rw [List.map_map]
  rfl

theorem encodeMetadata_eq (hproto : "__proto__" ∉ metadata.map Prod.fst)
    (hnodup : (metadata.map Prod.fst).Nodup) :
    encodeMetadata metadata = metadata.map (Prod.map id header) := by
  have hfold : encodeMetadata metadata =
      (metadata.map (Prod.map id header)).foldl (fun headers e => assign headers e.1 e.2) [] := by
    rw [List.foldl_map]
    rfl
  rw [hfold]
  apply foldl_assign
  · rw [map_fst_headers]
    exact hproto
  · rw [map_fst_headers]
    exact hnodup

theorem publishHeaders_eq (hproto : "__proto__" ∉ metadata.map Prod.fst)
    (hnodup : (metadata.map Prod.fst).Nodup) :
    publishHeaders env metadata = (headerTexts env metadata).map (Prod.map id header) := by
  have hcopy : (metadata.map (Prod.map id header)).foldl
      (fun headers e => assign headers e.1 e.2) [] = metadata.map (Prod.map id header) := by
    rw [← map_fst_headers] at hproto hnodup
    exact foldl_assign hproto hnodup
  dsimp only [publishHeaders]
  rw [encodeMetadata_eq hproto hnodup, hcopy, assign, if_neg (by decide), assign,
    if_neg (by decide), headerTexts, JsMap.set_map, JsMap.set_map]

/-- A header is read as the text that it is made from. -/
theorem parseHeaders_map (hutf8 : ∀ text, environment.utf8 (bufferFrom text) = text)
    (texts : List (String × String)) :
    parseHeaders environment (texts.map (Prod.map id header)) = texts := by
  rw [parseHeaders, List.filterMap_map]
  calc texts.filterMap _ = texts.filterMap some := by
        apply List.filterMap_congr
        intro e _
        simp [HeaderValue.first, header, HeaderItem.toString, hutf8]
    _ = texts := List.filterMap_some

theorem lookup_headerTexts :
    (headerTexts env metadata).lookup "x-event-id" = some env.randomUUID := by
  rw [headerTexts, JsMap.lookup_set_of_ne (by decide), JsMap.lookup_set_self]

theorem filter_headerTexts :
    (headerTexts env metadata).filter (fun e => e.1 ∉ internalHeaders) =
      metadata.filter fun e => e.1 ∉ internalHeaders := by
  have hid : decide ("x-event-id" ∉ internalHeaders) = false := by decide
  have htime : decide ("x-published-at" ∉ internalHeaders) = false := by decide
  rw [headerTexts,
    JsMap.filter_set (p := fun key => decide (key ∉ internalHeaders)) htime,
    JsMap.filter_set (p := fun key => decide (key ∉ internalHeaders)) hid]

/-- The consumer hands on what has been published. -/
theorem rawEvent_publish {connected : Bool} {compression : Option ℕ} {eventType : String}
    {payload : List UInt8} {publishOptions : PublishOptions} {record : ProducerRecord}
    (hpublish : publish connected compression env eventType payload publishOptions = .ok record)
    (hutf8 : ∀ text, environment.utf8 (bufferFrom text) = text)
    (hproto : "__proto__" ∉ publishOptions.metadata.map Prod.fst)
    (hnodup : (publishOptions.metadata.map Prod.fst).Nodup) (offset : ℕ)
    (timestamp : Option String) :
    let raw := rawEvent environment record.topic
      ⟨offset, record.key.map bufferFrom, some record.value, record.headers, timestamp⟩
    raw.eventId = env.randomUUID ∧ raw.eventType = eventType ∧ raw.payload = payload ∧
      raw.metadata = publishOptions.metadata.filter fun e => e.1 ∉ internalHeaders := by
  unfold publish at hpublish
  split at hpublish
  · cases hpublish
  have hrecord := Except.ok.inj hpublish
  subst hrecord
  dsimp only [rawEvent]
  rw [publishHeaders_eq hproto hnodup, parseHeaders_map hutf8, lookup_headerTexts,
    filter_headerTexts]
  exact ⟨rfl, rfl, rfl, rfl⟩

end Connectum.Events.Kafka
