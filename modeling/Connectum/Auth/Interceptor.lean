import Connectum.Auth.Headers

/-! Requests, what an interceptor makes of them, and the method patterns that exempt a method. -/
namespace Connectum.Auth
open JsString

structure Request where
  typeName : JsString
  methodName : JsString
  header : Headers

inductive Code where
  | canceled
  | unknown
  | invalidArgument
  | deadlineExceeded
  | notFound
  | alreadyExists
  | permissionDenied
  | resourceExhausted
  | failedPrecondition
  | aborted
  | outOfRange
  | unimplemented
  | internal
  | unavailable
  | dataLoss
  | unauthenticated
  deriving DecidableEq, Repr

structure AuthzDeniedDetails where
  ruleName : JsString
  requiredRoles : Option (List JsString) := none
  requiredScopes : Option (List JsString) := none
  deriving DecidableEq, Repr

/-- `authzDenied` is the `ConnectError` with these details and the code `PermissionDenied`, and
`thrown` stands for the errors of callbacks that are no `ConnectError`. -/
inductive Failure where
  | connectError (code : Code) (message : String)
  | authzDenied (details : AuthzDeniedDetails)
  | typeError
  | thrown (message : String)
  deriving DecidableEq, Repr

def Failure.isConnectError : Failure → Bool
  | .connectError _ _ | .authzDenied _ => true
  | .typeError | .thrown _ => false

/-- The call of `next`: the headers it gets, and the context of `authContextStorage.run` around
it, if any. -/
structure Forwarded where
  header : Headers
  stored : Option AuthContext

abbrev Interceptor := Request → Except Failure Forwarded

def matchesPattern (serviceName methodName pattern : JsString) : Bool :=
  decide (pattern = js "*") || decide (pattern = serviceName ++ js "/" ++ methodName) ||
    ((js "/*").isSuffixOf pattern && decide (serviceName = pattern.take (pattern.length - 2)))

def matchesMethodPattern (serviceName methodName : JsString) (patterns : List JsString) : Bool :=
  patterns.any (matchesPattern serviceName methodName)

/-- A request is exempt from the interceptor with these `skipMethods`. -/
def Request.skipped (req : Request) (skipMethods : List JsString) : Bool :=
  matchesMethodPattern req.typeName req.methodName skipMethods

/-- `none` as a thrown `TypeError`. -/
def orTypeError {α : Type} (result : Option α) : Except Failure α :=
  match result with
  | some a => .ok a
  | none => .error .typeError

variable {α β : Type}

theorem bind_ok_iff {ε : Type} {x : Except ε α} {next : α → Except ε β} {result : β} :
    (do let a ← x; next a) = .ok result ↔ ∃ a, x = .ok a ∧ next a = .ok result := by
  cases x <;> simp [bind, Except.bind]

@[simp] theorem orTypeError_eq_ok {result : Option α} {a : α} :
    orTypeError result = .ok a ↔ result = some a := by
  cases result <;> simp [orTypeError]

end Connectum.Auth
