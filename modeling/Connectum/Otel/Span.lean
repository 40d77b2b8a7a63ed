import Mathlib.Data.List.Basic
import Mathlib.Tactic.Common

/-! Thrown values as the instrumentation reads them, and the calls that it makes on a span. -/
namespace Connectum.Otel

/-- A thrown value. Of an object, whether it is a `ConnectError` (with its code) or an `Error`,
and what reading its constructor's name and its message and converting it to a string give; a
message may be absent. -/
inductive Thrown where
  | undefined
  | null
  | primitive (truthy : Bool) (text : String)
  | object (connectError : Option ℕ) (isError : Bool) (constructorName : Except Thrown String)
      (message : Except Thrown (Option String)) (text : Except Thrown String)

inductive AttributeValue where
  | string (s : String)
  | number (n : ℕ)
  deriving DecidableEq, Repr

abbrev Attributes := List (String × AttributeValue)

def connectErrorCodeName : ℕ → Option String
  | 1 => some "CANCELED"
  | 2 => some "UNKNOWN"
  | 3 => some "INVALID_ARGUMENT"
  | 4 => some "DEADLINE_EXCEEDED"
  | 5 => some "NOT_FOUND"
  | 6 => some "ALREADY_EXISTS"
  | 7 => some "PERMISSION_DENIED"
  | 8 => some "RESOURCE_EXHAUSTED"
  | 9 => some "FAILED_PRECONDITION"
  | 10 => some "ABORTED"
  | 11 => some "OUT_OF_RANGE"
  | 12 => some "UNIMPLEMENTED"
  | 13 => some "INTERNAL"
  | 14 => some "UNAVAILABLE"
  | 15 => some "DATA_LOSS"
  | 16 => some "UNAUTHENTICATED"
  | _ => none

namespace Thrown

def typeError (message : String) : Thrown :=
  .object none true (.ok "TypeError") (.ok (some message)) (.ok ("TypeError: " ++ message))

def truthy : Thrown → Bool
  | .undefined | .null => false
  | .primitive truthy _ => truthy
  | .object .. => true

/-- `(error as Error).message`. -/
def message : Thrown → Except Thrown (Option String)
  | .undefined => .error (typeError "Cannot read properties of undefined (reading \x27message\x27)")
  | .null => .error (typeError "Cannot read properties of null (reading \x27message\x27)")
  | .primitive _ _ => .ok none
  | .object _ _ _ message _ => message

/-- `error instanceof Error ? error.message : String(error)`. -/
def describe : Thrown → Except Thrown (Option String)
  | .undefined => .ok (some "undefined")
  | .null => .ok (some "null")
  | .primitive _ text => .ok (some text)
  | .object _ isError _ message text => if isError then message else text.map some

end Thrown

def buildErrorAttributes : Thrown → Except Thrown Attributes
  | .object (some code) _ _ _ _ =>
    .ok [("error.type", .string ((connectErrorCodeName code).getD "UNKNOWN")),
      ("rpc.connect_rpc.status_code", .number code)]
  | .object none true constructorName _ _ =>
    constructorName.map fun name => [("error.type", .string name)]
  | _ => .ok [("error.type", .string "UNKNOWN")]

inductive SpanStatusCode where
  | unset
  | ok
  | error
  deriving DecidableEq, Repr

/-- A call on the span. None of them throws. -/
inductive SpanCall where
  | addEvent (name : String) (attributes : Attributes)
  | setAttribute (key : String) (value : AttributeValue)
  | recordException (error : Thrown)
  | setStatus (code : SpanStatusCode) (message : Option String)
  | ended

def messageEvent (direction : String) (id size : ℕ) : SpanCall :=
  .addEvent "rpc.message" [("rpc.message.type", .string direction), ("rpc.message.id", .number id),
    ("rpc.message.uncompressed_size", .number size)]

namespace SpanCall

def isEnd : SpanCall → Bool
  | .ended => true
  | _ => false

/-- How often the span is ended. -/
def ends (calls : List SpanCall) : ℕ := calls.countP isEnd

/-- The status when the span is first ended, from the one before the calls. -/
def statusFrom (code : SpanStatusCode) : List SpanCall → SpanStatusCode
  | [] => code
  | .ended :: _ => code
  | .setStatus code _ :: calls => statusFrom code calls
  | .addEvent .. :: calls | .setAttribute .. :: calls | .recordException _ :: calls =>
    statusFrom code calls

def status (calls : List SpanCall) : SpanStatusCode := statusFrom .unset calls

/-- Only events and attributes are recorded. -/
def Quiet (calls : List SpanCall) : Prop :=
  ∀ c ∈ calls, (∃ name attributes, c = .addEvent name attributes) ∨
    (∃ key value, c = .setAttribute key value) ∨ ∃ error, c = .recordException error

variable {calls calls' : List SpanCall} {code : SpanStatusCode}

theorem quiet_nil : Quiet [] := fun _ h => absurd h List.not_mem_nil

theorem Quiet.append (h : Quiet calls) (h' : Quiet calls') : Quiet (calls ++ calls') := by
  intro c hc
  rcases List.mem_append.mp hc with hc | hc
  · exact h c hc
  · exact h' c hc

theorem quiet_event (name : String) (attributes : Attributes) :
    Quiet [.addEvent name attributes] :=
  fun _ hc => .inl ⟨name, attributes, List.mem_singleton.mp hc⟩

theorem quiet_exception (error : Thrown) : Quiet [.recordException error] :=
  fun _ hc => .inr (.inr ⟨error, List.mem_singleton.mp hc⟩)

theorem quiet_attributes (attributes : Attributes) :
    Quiet (attributes.map fun (key, value) => .setAttribute key value) := by
  intro c hc
  obtain ⟨⟨key, value⟩, -, rfl⟩ := List.mem_map.mp hc
  exact .inr (.inl ⟨key, value, rfl⟩)

theorem ends_append (calls calls' : List SpanCall) :
    ends (calls ++ calls') = ends calls + ends calls' := List.countP_append

theorem ends_ended : ends (.ended :: calls) = ends calls + 1 := List.countP_cons_of_pos rfl

theorem ends_setStatus {message : Option String} :
    ends (.setStatus code message :: calls) = ends calls :=
  List.countP_cons_of_neg Bool.false_ne_true

theorem Quiet.ends (h : Quiet calls) : ends calls = 0 := by
  refine List.countP_eq_zero.mpr fun c hc => ?_
  rcases h c hc with ⟨_, _, rfl⟩ | ⟨_, _, rfl⟩ | ⟨_, rfl⟩ <;> exact Bool.false_ne_true

theorem Quiet.statusFrom_append (h : Quiet calls) :
    statusFrom code (calls ++ calls') = statusFrom code calls' := by
  induction calls with
  | nil => rfl
  | cons c calls ih =>
    have hcalls : Quiet calls := fun c hc => h c (List.mem_cons_of_mem _ hc)
    rcases h c List.mem_cons_self with ⟨_, _, rfl⟩ | ⟨_, _, rfl⟩ | ⟨_, rfl⟩ <;> exact ih hcalls

/-- Nothing after the end changes the status. -/
theorem statusFrom_append_ended :
    statusFrom code (calls ++ .ended :: calls') = statusFrom code (calls ++ [.ended]) := by
  induction calls generalizing code with
  | nil => rfl
  | cons c calls ih =>
    cases c with
    | ended => rfl
    | setStatus code' message => exact ih
    | addEvent name attributes => exact ih
    | setAttribute key value => exact ih
    | recordException error => exact ih

/-- Calls that set the status once and end the span, among quiet ones. -/
theorem ended_once {before middle after : List SpanCall} (code : SpanStatusCode)
    (message : Option String) (hbefore : Quiet before) (hmiddle : Quiet middle)
    (hafter : Quiet after) :
    ends (before ++ .setStatus code message :: (middle ++ .ended :: after)) = 1 ∧
      status (before ++ .setStatus code message :: (middle ++ .ended :: after)) = code := by
  constructor
  · rw [ends_append, ends_setStatus, ends_append, ends_ended, hbefore.ends, hmiddle.ends,
      hafter.ends]
  · rw [status, hbefore.statusFrom_append]
    exact hmiddle.statusFrom_append

end SpanCall
end Connectum.Otel
