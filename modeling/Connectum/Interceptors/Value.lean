import Connectum.Auth.Interceptor
import Connectum.JsNumber

/-! Values of the source language as the interceptors read them, and the errors of Connect. -/
namespace Connectum.Interceptors
open Auth (Code)

/-- The classes that `instanceof` is asked about. -/
inductive ErrorClass where
  | error
  | connectError
  | taskCancelledError
  | bulkheadRejectedError
  | brokenCircuitError
  deriving DecidableEq, Repr

/-- Of an object, whether it is a function, what it is an instance of, and its properties. -/
inductive Value where
  | undefined
  | null
  | boolean (value : Bool)
  | number (value : JsNumber)
  | bigint (value : ℤ)
  | string (value : JsString)
  | symbol (description : JsString)
  | object (callable : Bool) (classes : ErrorClass → Bool) (properties : String → Value)

namespace Value

def instanceOf : Value → ErrorClass → Bool
  | .object _ classes _, c => classes c
  | _, _ => false

/-- `value?.key`, where primitive values have no such property. -/
def property : Value → String → Value
  | .object _ _ properties, key => properties key
  | _, _ => .undefined

def truthy : Value → Bool
  | .undefined | .null => false
  | .boolean value => value
  | .number value => decide (value ≠ .nan ∧ value ≠ .finite 0)
  | .bigint value => decide (value ≠ 0)
  | .string value => decide (value ≠ [])
  | .symbol _ | .object .. => true

end Value

/-- The numbers of the enumeration. -/
def codeNumber : Code → ℕ
  | .canceled => 1
  | .unknown => 2
  | .invalidArgument => 3
  | .deadlineExceeded => 4
  | .notFound => 5
  | .alreadyExists => 6
  | .permissionDenied => 7
  | .resourceExhausted => 8
  | .failedPrecondition => 9
  | .aborted => 10
  | .outOfRange => 11
  | .unimplemented => 12
  | .internal => 13
  | .unavailable => 14
  | .dataLoss => 15
  | .unauthenticated => 16

/-- The code as the number that it is. -/
def codeValue (code : Code) : JsNumber := .finite (codeNumber code)

def IsCode (x : JsNumber) : Prop := ∃ code, x = codeValue code

/-- The codes by their numbers. -/
def codes : List Code :=
  [.canceled, .unknown, .invalidArgument, .deadlineExceeded, .notFound, .alreadyExists,
    .permissionDenied, .resourceExhausted, .failedPrecondition, .aborted, .outOfRange,
    .unimplemented, .internal, .unavailable, .dataLoss, .unauthenticated]

theorem mem_codes (code : Code) : code ∈ codes := by cases code <;> decide

theorem exists_codeNumber_iff {n : ℕ} : (∃ code, codeNumber code = n) ↔ 1 ≤ n ∧ n ≤ 16 := by
  have hnumbers : codes.map codeNumber = List.range' 1 16 := by decide
  have hmem : (∃ code, codeNumber code = n) ↔ n ∈ codes.map codeNumber := by
    simp [List.mem_map, mem_codes]
  rw [hmem, hnumbers, List.mem_range'_1]
  omega

/-- The codes are the numbers from 1 to 16. -/
theorem isCode_iff {x : JsNumber} : IsCode x ↔ ∃ n : ℕ, 1 ≤ n ∧ n ≤ 16 ∧ x = .finite n := by
  constructor
  · rintro ⟨code, rfl⟩
    obtain ⟨hlower, hupper⟩ := exists_codeNumber_iff.mp ⟨code, rfl⟩
    exact ⟨codeNumber code, hlower, hupper, rfl⟩
  · rintro ⟨n, hlower, hupper, rfl⟩
    obtain ⟨code, rfl⟩ := exists_codeNumber_iff.mpr ⟨hlower, hupper⟩
    exact ⟨code, rfl⟩

theorem isCode_codeValue (code : Code) : IsCode (codeValue code) := ⟨code, rfl⟩

/-- The class `ConnectError`: its constructor with a message and a code, and `ConnectError.from`. -/
structure ConnectErrors where
  new : JsString → JsNumber → Value
  «from» : Value → JsNumber → Value

/-- A `ConnectError` is left as it is, and any other value is wrapped with the code. -/
structure ConnectErrors.Documented (connect : ConnectErrors) : Prop where
  new_instance : ∀ message code, (connect.new message code).instanceOf .connectError = true
  new_code : ∀ message code, (connect.new message code).property "code" = .number code
  from_connectError : ∀ value code, value.instanceOf .connectError = true →
    connect.from value code = value
  from_instance : ∀ value code, (connect.from value code).instanceOf .connectError = true
  from_code : ∀ value code, value.instanceOf .connectError = false →
    (connect.from value code).property "code" = .number code

end Connectum.Interceptors
