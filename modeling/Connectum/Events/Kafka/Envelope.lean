import Connectum.Events.EventContext

/-! Kafka messages, and the event that the consumer makes of one. -/
namespace Connectum.Events.Kafka

inductive HeaderItem where
  | buffer (bytes : List UInt8)
  | text (value : String)
  deriving DecidableEq, Repr

inductive HeaderValue where
  | undefined
  | one (item : HeaderItem)
  | many (items : List HeaderItem)
  deriving DecidableEq, Repr

/-- A fresh uuid, the clock, date and number parsing, where `none` is not finite, and the
decoding of buffers. -/
structure Environment where
  randomUUID : String
  now : ℤ
  parseDate : String → Option ℤ
  parseNumber : String → Option ℤ
  utf8 : List UInt8 → String

structure KafkaMessage where
  offset : ℕ
  key : Option (List UInt8)
  value : Option (List UInt8)
  headers : List (String × HeaderValue)
  timestamp : Option String
  deriving DecidableEq, Repr

def HeaderItem.toString (env : Environment) : HeaderItem → String
  | .buffer bytes => env.utf8 bytes
  | .text value => value

/-- The first element of an array; `undefined` and an empty array have none. -/
def HeaderValue.first : HeaderValue → Option HeaderItem
  | .undefined => none
  | .one item => some item
  | .many items => items.head?

def parseHeaders (env : Environment) (headers : List (String × HeaderValue)) :
    List (String × String) :=
  headers.filterMap fun entry => entry.2.first.map fun item => (entry.1, item.toString env)

def parseTimestamp (env : Environment) (headerValue kafkaTimestamp : Option String) : ℤ :=
  let fromHeader := (headerValue.filter (· ≠ "")).bind env.parseDate
  let fromKafka := (kafkaTimestamp.filter (· ≠ "")).bind env.parseNumber
  (fromHeader.or fromKafka).getD env.now

def internalHeaders : List String := ["x-event-id", "x-published-at"]

def rawEvent (env : Environment) (topic : String) (message : KafkaMessage) : RawEvent :=
  let msgHeaders := parseHeaders env message.headers
  { eventId := ((msgHeaders.lookup "x-event-id").or (message.key.map env.utf8)).getD env.randomUUID
    eventType := topic
    payload := message.value.getD []
    publishedAt := parseTimestamp env (msgHeaders.lookup "x-published-at") message.timestamp
    attempt := 1
    metadata := msgHeaders.filter fun entry => entry.1 ∉ internalHeaders }

end Connectum.Events.Kafka
