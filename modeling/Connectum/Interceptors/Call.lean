import Connectum.Auth.Chain
import Connectum.Interceptors.ErrorHandler

/-! Calls through interceptors. The headers of a request are an object that all interceptors of
the call share and that some of them change. -/
namespace Connectum.Interceptors.Chain
open JsString

/-- What comes from elsewhere: the language, Connect, the codec of the messages, and what a
session of an auth interceptor is. -/
structure Runtime where
  Message : Type
  Schema : Type
  Session : Type
  connect : ConnectErrors
  nodeEnv : Option String
  numberText : JsNumber → JsString
  toJson : Schema → Bool → Message → Except Value Message
  fromJson : Schema → Bool → Message → Except Value Message
  toJsonStream : Schema → Bool → Message → Message
  fromJsonStream : Schema → Bool → Message → Message

structure Method (rt : Runtime) where
  name : JsString
  input : rt.Schema
  output : rt.Schema

/-- A request without its headers, which are in the state of the call. -/
structure Request (rt : Runtime) where
  stream : Bool
  typeName : JsString
  method : Method rt
  message : rt.Message

structure Response (rt : Runtime) where
  stream : Bool
  typeName : JsString
  method : Method rt
  message : rt.Message
  header : Headers
  trailer : Headers

/-- What a call waits for. The policies of the resilience interceptors decide by time and by other
calls; they answer with the error that they reject the call with, if they do. -/
inductive Call (rt : Runtime) where
  | service (req : Request rt)
  | auth (call : Auth.AuthCall rt.Session)
  | authFailed
  | validate (req : Request rt)
  | timeout (duration : JsNumber)
  | bulkhead (capacity queueSize : JsNumber)
  | bulkheadSlots
  | circuitBreaker (threshold halfOpenAfter : JsNumber)
  | recorded (failure : Bool)
  | backoff (initialDelay maxDelay : JsNumber)
  | handler (err : Value)

/-- A retry policy answers whether it goes on after its delay, and a bulkhead how many slots it
has for executions and in its queue. -/
def Call.Answer {rt : Runtime} : Call rt → Type
  | .service _ => Except Value (Response rt)
  | .auth call => call.Answer
  | .validate _ => Except Value Unit
  | .timeout _ | .bulkhead _ _ | .circuitBreaker _ _ => Option Value
  | .bulkheadSlots => JsNumber × JsNumber
  | .authFailed | .recorded _ => Unit
  | .backoff _ _ => Bool
  | .handler _ => Except Value rt.Message

/-- The headers of the request, the state of the auth interceptors, and how often the service has
been called. -/
structure CallState where
  header : Headers
  auth : Auth.AuthState
  calls : ℕ

abbrev Program (rt : Runtime) (R : Type) := Async (Call rt) Call.Answer CallState R

abbrev Outcome (rt : Runtime) := Except Value (Response rt)

/-- A call under the context that `getAuthContext` returns. -/
abbrev Next (rt : Runtime) := Request rt → Option Auth.AuthContext → Program rt (Outcome rt)

abbrev Interceptor (rt : Runtime) := Next rt → Next rt

variable {rt : Runtime}

/-- The innermost `next`. -/
def service : Next rt := fun req _ => .await (.service req) .done

/-- The first interceptor is the outermost one. -/
def compose (interceptors : List (Interceptor rt)) (next : Next rt) : Next rt :=
  interceptors.foldr (fun interceptor next => interceptor next) next

/-- `try { return await … } catch`. -/
def catching (program : Program rt (Outcome rt)) (handle : Value → Program rt (Outcome rt)) :
    Program rt (Outcome rt) :=
  program >>= fun
    | .ok res => .done (.ok res)
    | .error err => handle err

def throwing (err : Value) : Program rt (Outcome rt) := .done (.error err)

/-- `AuthzDeniedError`, whose details are for the server only. -/
def authzDeniedError (details : Auth.AuthzDeniedDetails) : Value :=
  .object false (fun c => decide (c = .error ∨ c = .connectError)) fun key =>
    if key = "rawMessage" then .string (js "Access denied by rule: " ++ details.ruleName)
    else if key = "code" then .number (codeValue .permissionDenied)
    else if key = "clientMessage" then .string (js "Access denied")
    else if key = "serverDetails" then
      .object false (fun _ => false) fun key =>
        if key = "ruleName" then .string details.ruleName else .undefined
    else .undefined

/-- The errors of the auth interceptors as values. -/
def failureValue (rt : Runtime) : Auth.Failure → Value
  | .connectError code message => rt.connect.new (js message) (codeValue code)
  | .authzDenied details => authzDeniedError details
  | .typeError => errorObject false (js "TypeError") .undefined
  | .thrown message => errorObject false (js message) .undefined

/-- An auth interceptor in a chain. It changes the headers and goes on, or throws and leaves some
headers behind. -/
def authInterceptor (interception : Auth.Interception rt.Session) : Interceptor rt :=
  fun next req context =>
    .sync id fun s =>
      (interception ⟨req.typeName, req.method.name, s.header⟩ context).embed .auth (fun _ a => a)
        CallState.auth (fun auth s => { s with auth := auth }) >>= fun
        | .ok fwd =>
          .sync (fun s => { s with header := fwd.header }) fun _ =>
            next req (fwd.stored.or context)
        | .error failure => .await .authFailed fun _ => throwing (failureValue rt failure)

theorem compose_append (outer inner : List (Interceptor rt)) (next : Next rt) :
    compose (outer ++ inner) next = compose outer (compose inner next) := List.foldr_append

end Connectum.Interceptors.Chain
