import Connectum.Events.EventContext
import Connectum.Events.Nats.NatsAdapter
import Connectum.JsMap

/-! Headers of NATS messages: what `publish` writes, and what the consume loop reads. -/
namespace Connectum.Events.Nats

/-- The headers of the client library: the values of each key, in the order of the keys. -/
abbrev MsgHdrs := List (String × List String)

namespace MsgHdrs

def append (headers : MsgHdrs) (key value : String) : MsgHdrs :=
  JsMap.set headers key ((headers.lookup key).getD [] ++ [value])

def keys (headers : MsgHdrs) : List String := headers.map Prod.fst

/-- The first value of a key; a key without values gives the empty string. -/
def get (headers : MsgHdrs) (key : String) : String :=
  ((headers.lookup key).bind List.head?).getD ""

end MsgHdrs

/-- A fresh uuid, and the clock. -/
structure Environment where
  randomUUID : String
  now : ℤ

structure PublishedMessage where
  subject : String
  payload : List UInt8
  headers : MsgHdrs
  deriving DecidableEq, Repr

/-- `key.startsWith("x-")`. -/
def isInternal (key : String) : Bool := "x-".toList.isPrefixOf key.toList

/-- The user's metadata follows the id of the event; internal headers are skipped. -/
def publishHeaders (eventId : String) (metadata : List (String × String)) : MsgHdrs :=
  metadata.foldl (fun headers e => if isInternal e.1 then headers else headers.append e.1 e.2)
    (MsgHdrs.append [] "x-event-id" eventId)

def publish (connected : Bool) (options : NatsAdapterOptions) (env : Environment)
    (eventType : String) (payload : List UInt8) (metadata : List (String × String)) :
    Except String PublishedMessage :=
  if ¬ connected then .error "NatsAdapter: not connected"
  else .ok ⟨options.subject eventType, payload, publishHeaders env.randomUUID metadata⟩

def parseHeaders (hdrs : Option MsgHdrs) : List (String × String) :=
  match hdrs with
  | none => []
  | some hdrs =>
    hdrs.keys.foldl (fun map key =>
      let value := hdrs.get key
      if value ≠ "" then JsMap.set map key value else map) []

/-- A message of JetStream. The timestamp is in nanoseconds, `none` if it is not finite. -/
structure JsMsg where
  subject : String
  headers : Option MsgHdrs
  data : List UInt8
  timestampNanos : Option ℤ
  deliveryCount : ℕ
  deriving DecidableEq, Repr

/-- The event that `consumeLoop` hands to the bus. -/
def rawEvent (options : NatsAdapterOptions) (env : Environment) (msg : JsMsg) : RawEvent where
  eventId := match msg.headers with
    | none => env.randomUUID
    | some headers => headers.get "x-event-id"
  eventType := options.eventType msg.subject
  payload := msg.data
  publishedAt := match msg.timestampNanos with
    | none => env.now
    | some nanos => nanos.tdiv MS_TO_NS
  attempt := msg.deliveryCount
  metadata := JsMap.delete (parseHeaders msg.headers) "x-event-id"

/-- A published message as the client library delivers it. -/
def PublishedMessage.delivered (message : PublishedMessage) (timestampNanos : Option ℤ)
    (deliveryCount : ℕ) : JsMsg :=
  ⟨message.subject, some message.headers, message.payload, timestampNanos, deliveryCount⟩

variable {options : NatsAdapterOptions} {eventId : String} {metadata : List (String × String)}
  {headers : MsgHdrs}

/-- Metadata with new and distinct keys makes one header each. -/
theorem foldl_append (hinternal : ∀ e ∈ metadata, isInternal e.1 = false)
    (hnodup : (headers.keys ++ metadata.map Prod.fst).Nodup) :
    metadata.foldl (fun headers e => if isInternal e.1 then headers else headers.append e.1 e.2)
        headers =
      headers ++ metadata.map (Prod.map id fun value => [value]) := by
  induction metadata generalizing headers with
  | nil => simp
  | cons e metadata ih =>
    rw [List.forall_mem_cons] at hinternal
    have hkey : e.1 ∉ headers.keys := by
      have hdisjoint := (List.nodup_append.mp hnodup).2.2
      exact fun hmem => hdisjoint e.1 hmem e.1 List.mem_cons_self rfl
    have hnew : headers.append e.1 e.2 = headers ++ [(e.1, [e.2])] := by
      rw [MsgHdrs.append, JsMap.lookup_eq_none hkey, JsMap.set_of_notMem hkey]
      rfl
    have hkeys : MsgHdrs.keys (headers ++ [(e.1, [e.2])]) ++ metadata.map Prod.fst =
        headers.keys ++ (e :: metadata).map Prod.fst := by
      simp [MsgHdrs.keys]
    rw [List.foldl_cons, if_neg (by simp [hinternal.1]), hnew, ih hinternal.2 (hkeys ▸ hnodup),
      List.append_assoc]
    rfl

/-- The id of the event is no key of such metadata. -/
theorem nodup_eventId (hinternal : ∀ e ∈ metadata, isInternal e.1 = false)
    (hnodup : (metadata.map Prod.fst).Nodup) :
    ("x-event-id" :: metadata.map Prod.fst).Nodup := by
  apply List.nodup_cons.mpr
  apply And.intro _ hnodup
  intro hmem
  obtain ⟨e, he, hkey⟩ := List.mem_map.mp hmem
  have hplain := hinternal e he
  rw [hkey] at hplain
  exact absurd hplain (by decide)

theorem publishHeaders_eq (hinternal : ∀ e ∈ metadata, isInternal e.1 = false)
    (hnodup : (metadata.map Prod.fst).Nodup) :
    publishHeaders eventId metadata =
      (("x-event-id", eventId) :: metadata).map (Prod.map id fun value => [value]) := by
  exact foldl_append hinternal (nodup_eventId hinternal hnodup)

/-- Of headers with one value each the empty ones are left out. -/
theorem parseHeaders_map {texts : List (String × String)} (hnodup : (texts.map Prod.fst).Nodup) :
    parseHeaders (some (texts.map (Prod.map id fun value => [value]))) =
      texts.filter fun e => e.2 ≠ "" := by
  have hkeys : (texts.map (Prod.map id fun value => [value])).map Prod.fst =
      texts.map Prod.fst := by
    rw [List.map_map]
    rfl
  have hget : ∀ e ∈ texts,
      MsgHdrs.get (texts.map (Prod.map id fun value => [value])) e.1 = e.2 := by
    intro e he
    have hmem : (e.1, [e.2]) ∈ texts.map (Prod.map id fun value => [value]) :=
      List.mem_map.mpr ⟨e, he, rfl⟩
    rw [MsgHdrs.get, JsMap.lookup_of_mem (hkeys.symm ▸ hnodup) hmem]
    rfl
  have hnodup' : ((texts.filter fun e => e.2 ≠ "").map Prod.fst).Nodup :=
    hnodup.sublist (List.filter_sublist.map Prod.fst)
  dsimp only [parseHeaders, MsgHdrs.keys]
  rw [hkeys, List.foldl_map]
  calc texts.foldl _ [] =
        texts.foldl (fun map e =>
          if decide (e.2 ≠ "") = true then JsMap.set map e.1 e.2 else map) [] := by
        apply List.foldl_ext
        intro map e he
        simp [hget e he]
    _ = (texts.filter fun e => e.2 ≠ "").foldl (fun map e => JsMap.set map e.1 e.2) [] := by
        rw [List.foldl_filter]
    _ = texts.filter fun e => e.2 ≠ "" := JsMap.foldl_set hnodup'

/-- The consume loop hands on the metadata without its empty values. -/
theorem metadata_publish {connected : Bool} {env environment : Environment} {eventType : String}
    {payload : List UInt8} {message : PublishedMessage}
    (hpublish : publish connected options env eventType payload metadata = .ok message)
    (hinternal : ∀ e ∈ metadata, isInternal e.1 = false)
    (hnodup : (metadata.map Prod.fst).Nodup) (timestampNanos : Option ℤ) (deliveryCount : ℕ) :
    (rawEvent options environment (message.delivered timestampNanos deliveryCount)).metadata =
      metadata.filter fun e => e.2 ≠ "" := by
  unfold publish at hpublish
  split at hpublish
  · cases hpublish
  have hmessage := Except.ok.inj hpublish
  subst hmessage
  have hnodup' : ((("x-event-id", env.randomUUID) :: metadata).map Prod.fst).Nodup :=
    nodup_eventId hinternal hnodup
  dsimp only [rawEvent, PublishedMessage.delivered]
  rw [publishHeaders_eq hinternal hnodup, parseHeaders_map hnodup', JsMap.delete,
    List.filter_filter, List.filter_cons_of_neg (by simp)]
  apply List.filter_congr
  intro e he
  have hplain : e.1 ≠ "x-event-id" := fun heq =>
    (List.nodup_cons.mp hnodup').1 (List.mem_map.mpr ⟨e, he, heq⟩)
  simp [hplain]

/-- The metadata is handed on as it has been published if and only if no value is empty. -/
theorem metadata_publish_iff {connected : Bool} {env environment : Environment}
    {eventType : String} {payload : List UInt8} {message : PublishedMessage}
    (hpublish : publish connected options env eventType payload metadata = .ok message)
    (hinternal : ∀ e ∈ metadata, isInternal e.1 = false)
    (hnodup : (metadata.map Prod.fst).Nodup) (timestampNanos : Option ℤ) (deliveryCount : ℕ) :
    (rawEvent options environment (message.delivered timestampNanos deliveryCount)).metadata =
        metadata ↔
      ∀ e ∈ metadata, e.2 ≠ "" := by
  rw [metadata_publish hpublish hinternal hnodup, List.filter_eq_self]
  simp

theorem metadata_publish_iff_tenant :
    (rawEvent {} ⟨"uuid", 0⟩ (PublishedMessage.delivered
        ⟨"events.user.created", [1], publishHeaders "evt-1" [("tenant", "a")]⟩ none 1)).metadata =
        [("tenant", "a")] ↔
      ∀ e ∈ [("tenant", "a")], e.2 ≠ "" := by
  have hpublish : publish true {} ⟨"evt-1", 0⟩ "user.created" [1] [("tenant", "a")] =
      .ok ⟨"events.user.created", [1], publishHeaders "evt-1" [("tenant", "a")]⟩ := by decide
  exact metadata_publish_iff hpublish (by decide) (by decide) none 1

/-- An empty value does not arrive. -/
theorem metadata_publish_empty :
    ¬ ∀ (connected : Bool) (options : NatsAdapterOptions) (env environment : Environment)
      (eventType : String) (payload : List UInt8) (metadata : List (String × String))
      (message : PublishedMessage) (timestampNanos : Option ℤ) (deliveryCount : ℕ),
      publish connected options env eventType payload metadata = .ok message →
      (∀ e ∈ metadata, isInternal e.1 = false) → (metadata.map Prod.fst).Nodup →
      (rawEvent options environment (message.delivered timestampNanos deliveryCount)).metadata =
        metadata := by
  intro h
  have hpublish : publish true {} ⟨"evt-1", 0⟩ "user.created" [1] [("tenant", "")] =
      .ok ⟨"events.user.created", [1], publishHeaders "evt-1" [("tenant", "")]⟩ := by decide
  have hkept := h true {} ⟨"evt-1", 0⟩ ⟨"uuid", 0⟩ "user.created" [1] [("tenant", "")] _ none 1
    hpublish (by decide) (by decide)
  exact absurd hkept (by decide)

end Connectum.Events.Nats
