import Connectum.JsString

/-! JSON data and its text. -/

/-- A number is the bit pattern of a double. -/
inductive JsonValue where
  | null
  | bool (value : Bool)
  | number (bits : UInt64)
  | string (value : JsString)
  | array (items : List JsonValue)
  | object (fields : List (JsString × JsonValue))
  deriving Repr

/-- The text codec of the language; `parse` returns `none` where `JSON.parse` throws. -/
structure Json where
  parse : JsString → Option JsonValue
  stringify : JsonValue → JsString

namespace JsonValue
open JsString

def string? : JsonValue → Option JsString
  | .string value => some value
  | _ => none

/-- The strings among the items of an array, and nothing for other values. -/
def stringItems : JsonValue → List JsString
  | .array items => items.filterMap string?
  | _ => []

/-- The properties of an object, and none for other values. -/
def properties : JsonValue → List (JsString × JsonValue)
  | .object fields => fields
  | _ => []

/-- The index that a property name of an array stands for. -/
def arrayIndex (key : JsString) : Option ℕ :=
  if key = js "0" then some 0
  else if key ≠ [] ∧ key.all isDigit ∧ key.head? ≠ some (unit '0') then some (ofDigits 10 key)
  else none

/-- The own properties that hold JSON data; what is inherited and the length of an array lead to
no string and to no array with strings. -/
def property (value : JsonValue) (key : JsString) : Option JsonValue :=
  match value with
  | .object fields => fields.lookup key
  | .array items => (arrayIndex key).bind fun i => items[i]?
  | .null | .bool _ | .number _ | .string _ => none

/-- The value that a path of keys leads to. -/
def getNested (value : JsonValue) : List JsString → Option JsonValue
  | [] => some value
  | key :: keys => (value.property key).bind fun value => getNested value keys

end JsonValue
