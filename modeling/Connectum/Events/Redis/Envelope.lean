import Connectum.Events.EventContext

/-! The fields of a Redis stream entry, and the event that a reader makes of one. -/
namespace Connectum.Events.Redis

def streamPrefix : String := "events:"

def streamKey (eventType : String) : String := streamPrefix ++ eventType

/-- `map.set(key, value)` on an insertion-ordered map. -/
def mapSet (map : List (String × String)) (key value : String) : List (String × String) :=
  if map.any (·.1 = key) then map.map fun e => if e.1 = key then (key, value) else e
  else map ++ [(key, value)]

/-- The flat array `["key1", "val1", "key2", "val2", ...]`; a trailing key has no value. -/
def parseFields (fields : List String) : List (String × String) :=
  go [] fields
where
  go (map : List (String × String)) : List String → List (String × String)
    | key :: value :: rest => go (mapSet map key value) rest
    | _ => map

def metaPrefix : String := "meta:"

def extractMetadata (fieldMap : List (String × String)) : List (String × String) :=
  fieldMap.foldl (fun metadata e =>
    if metaPrefix.toList.isPrefixOf e.1.toList then
      mapSet metadata (String.ofList (e.1.toList.drop 5)) e.2
    else metadata) []

/-- The clock, date parsing, where `none` is an invalid date, and base64 decoding. -/
structure Environment where
  now : ℤ
  parseDate : String → Option ℤ
  fromBase64 : String → List UInt8

structure Entry where
  key : String
  entryId : String
  fields : List String
  deriving DecidableEq, Repr

def publishedAt (env : Environment) (raw : Option String) : ℤ :=
  ((raw.filter (· ≠ "")).bind env.parseDate).getD env.now

/-- The event that `processEntry` hands to the bus. -/
def rawEvent (env : Environment) (entry : Entry) (attempt : ℕ) : RawEvent :=
  let fieldMap := parseFields entry.fields
  { eventId := (fieldMap.lookup "eventId").getD entry.entryId
    eventType := (fieldMap.lookup "eventType").getD ""
    payload := env.fromBase64 ((fieldMap.lookup "payload").getD "")
    publishedAt := publishedAt env (fieldMap.lookup "publishedAt")
    attempt := attempt
    metadata := extractMetadata fieldMap }

example : extractMetadata (parseFields ["eventType", "a", "meta:k", "1", "meta:k", "2"]) =
    [("k", "2")] := by decide

end Connectum.Events.Redis
