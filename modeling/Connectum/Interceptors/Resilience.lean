import Connectum.Interceptors.Call
import Mathlib.Data.Rat.Floor

/-! The interceptors of the default chain. -/
namespace Connectum.Interceptors.Chain
open JsString
open Auth (Code)

variable {rt : Runtime}

/-- Finite and not below the bound. -/
def atLeast (bound : ℚ) : JsNumber → Bool
  | .finite q => decide (bound ≤ q)
  | .nan | .infinite _ => false

def positive : JsNumber → Bool
  | .finite q => decide (0 < q)
  | .nan | .infinite _ => false

/-- An interceptor, or the `Error` that its creation throws. -/
abbrev Created (rt : Runtime) := Except Value (Interceptor rt)

def invalid (message : String) : Created rt := .error (errorObject false (js message) .undefined)

theorem checked_eq_ok {check : Bool} {creation : Created rt} {message : String}
    {interceptor : Interceptor rt} :
    (if check then creation else invalid message) = .ok interceptor ↔
      check = true ∧ creation = .ok interceptor := by
  cases check <;> simp [invalid]

/-- Streaming calls are not intercepted. -/
def skipping (skipStreaming : Bool) (interceptor : Interceptor rt) : Interceptor rt :=
  fun next req context =>
    if skipStreaming && req.stream then next req context else interceptor next req context

/-- Errors of a class are converted, and others thrown on. -/
def converting (c : ErrorClass) (convert : Program rt (Outcome rt))
    (program : Program rt (Outcome rt)) : Program rt (Outcome rt) :=
  catching program fun err => if err.instanceOf c then convert else throwing err

structure TimeoutOptions where
  duration : JsNumber := .finite 30000
  skipStreaming : Bool := true

/-- The aggressive timeout rejects while the call goes on. -/
def timeoutPolicy (duration : JsNumber) (fn : Program rt (Outcome rt)) : Program rt (Outcome rt) :=
  fn >>= fun outcome => .await (.timeout duration) fun
    | some err => throwing err
    | none => .done outcome

def createTimeoutInterceptor (options : TimeoutOptions) : Created rt :=
  if positive options.duration then
    .ok (skipping options.skipStreaming fun next req context =>
      converting .taskCancelledError
        (throwing (rt.connect.new
          (js "Request timeout after " ++ rt.numberText options.duration ++ js "ms")
          (codeValue .deadlineExceeded)))
        (timeoutPolicy options.duration (next req context)))
  else invalid "duration must be a positive finite number"

structure BulkheadOptions where
  capacity : JsNumber := .finite 10
  queueSize : JsNumber := .finite 10
  skipStreaming : Bool := true

def bulkheadPolicy (capacity queueSize : JsNumber) (fn : Program rt (Outcome rt)) :
    Program rt (Outcome rt) :=
  .await (.bulkhead capacity queueSize) fun
    | some err => throwing err
    | none => fn

def slotsText (rt : Runtime) (slots limit : JsNumber) : JsString :=
  rt.numberText slots ++ js "/" ++ rt.numberText limit

def createBulkheadInterceptor (options : BulkheadOptions) : Created rt :=
  if atLeast 1 options.capacity then
    if atLeast 0 options.queueSize then
      .ok (skipping options.skipStreaming fun next req context =>
        converting .bulkheadRejectedError
          (.await .bulkheadSlots fun slots =>
            throwing (rt.connect.new
              (js "Bulkhead capacity exceeded (active: " ++ slotsText rt slots.1 options.capacity ++
                js ", queued: " ++ slotsText rt slots.2 options.queueSize ++ js ")")
              (codeValue .resourceExhausted)))
          (bulkheadPolicy options.capacity options.queueSize (next req context)))
    else invalid "queueSize must be a non-negative finite number"
  else invalid "capacity must be a positive finite number"

/-- `INFRASTRUCTURE_CODES`. -/
def infrastructureCodes : List Code :=
  [.unknown, .deadlineExceeded, .internal, .unavailable, .dataLoss, .resourceExhausted]

/-- The code of an error is one of these. -/
def hasCode (err : Value) (codes : List JsNumber) : Bool :=
  match err.property "code" with
  | .number code => decide (code ∈ codes)
  | _ => false

def defaultFailurePredicate (error : Value) : Bool :=
  if error.instanceOf .connectError then hasCode error (infrastructureCodes.map codeValue) else true

/-- `failurePredicate` may throw. -/
structure CircuitBreakerOptions where
  threshold : JsNumber := .finite 5
  halfOpenAfter : JsNumber := .finite 30000
  skipStreaming : Bool := true
  failurePredicate : Option (Value → (Value → Bool) → Except Value Bool) := none

def CircuitBreakerOptions.isFailure (options : CircuitBreakerOptions) (error : Value) : Bool :=
  match options.failurePredicate with
  | none => defaultFailurePredicate error
  | some failurePredicate =>
    match failurePredicate error defaultFailurePredicate with
    | .ok failure => failure
    | .error _ => true

/-- The breaker is told how each call that it lets through has ended. -/
def circuitBreakerPolicy (options : CircuitBreakerOptions) (fn : Program rt (Outcome rt)) :
    Program rt (Outcome rt) :=
  .await (.circuitBreaker options.threshold options.halfOpenAfter) fun
    | some err => throwing err
    | none => fn >>= fun
      | .ok res => .await (.recorded false) fun _ => .done (.ok res)
      | .error err => .await (.recorded (options.isFailure err)) fun _ => throwing err

def createCircuitBreakerInterceptor (options : CircuitBreakerOptions) : Created rt :=
  if atLeast 1 options.threshold then
    if atLeast 0 options.halfOpenAfter then
      .ok (skipping options.skipStreaming fun next req context =>
        converting .brokenCircuitError
          (throwing (rt.connect.new
            (js "Circuit breaker is open (" ++ rt.numberText options.threshold ++
              js " consecutive failures)")
            (codeValue .unavailable)))
          (circuitBreakerPolicy options (next req context)))
    else invalid "halfOpenAfter must be a non-negative finite number"
  else invalid "threshold must be a positive finite number"

structure RetryOptions where
  maxRetries : JsNumber := .finite 3
  initialDelay : JsNumber := .finite 200
  maxDelay : JsNumber := .finite 5000
  skipStreaming : Bool := true
  retryableCodes : List JsNumber := [codeValue .unavailable, codeValue .resourceExhausted]

/-- The retries that fit below `maxRetries`. -/
def RetryOptions.retries (options : RetryOptions) : ℕ :=
  match options.maxRetries with
  | .finite q => ⌈q⌉₊
  | .nan | .infinite _ => 0

def RetryOptions.retryable (rt : Runtime) (options : RetryOptions) (err : Value) : Bool :=
  hasCode (rt.connect.from err (codeValue .unknown)) options.retryableCodes

def retryPolicy (options : RetryOptions) (fn : Program rt (Outcome rt)) :
    ℕ → Program rt (Outcome rt)
  | 0 => fn
  | retries + 1 => catching fn fun err =>
    if options.retryable rt err then
      .await (.backoff options.initialDelay options.maxDelay) fun goesOn : Bool =>
        if goesOn then retryPolicy options fn retries else throwing err
    else throwing err

def createRetryInterceptor (options : RetryOptions) : Created rt :=
  if atLeast 0 options.maxRetries then
    if atLeast 0 options.initialDelay then
      if atLeast 0 options.maxDelay then
        .ok (skipping options.skipStreaming fun next req context =>
          retryPolicy options (next req context) options.retries)
      else invalid "maxDelay must be a non-negative finite number"
    else invalid "initialDelay must be a non-negative finite number"
  else invalid "maxRetries must be a non-negative finite number"

structure FallbackOptions where
  handler : Value
  skipStreaming : Bool := true

/-- The response with the value of the handler. -/
def fallbackResponse (req : Request rt) (message : rt.Message) (header : Headers) :
    Response rt where
  stream := false
  typeName := req.typeName
  method := req.method
  message := message
  header := header
  trailer := fun _ => none

def isFunction : Value → Bool
  | .object callable _ _ => callable
  | _ => false

/-- The headers are read when the handler has returned. -/
def createFallbackInterceptor (options : FallbackOptions) : Created rt :=
  if isFunction options.handler then
    .ok (skipping options.skipStreaming fun next req context =>
      catching (next req context) fun err => .await (.handler err) fun
        | .error err => throwing err
        | .ok message => .sync id fun s => .done (.ok (fallbackResponse req message s.header)))
  else invalid "handler must be a function"

/-- The interceptor of the validation package: it throws, or goes on. -/
def createValidateInterceptor : Interceptor rt := fun next req context =>
  .await (.validate req) fun
    | .error err => throwing err
    | .ok () => next req context

structure SerializerOptions where
  skipGrpcServices : Bool := true
  alwaysEmitImplicit : Bool := true
  ignoreUnknownFields : Bool := true

def SerializerOptions.skips (options : SerializerOptions) (typeName : JsString) : Bool :=
  options.skipGrpcServices && (js "grpc.").isPrefixOf typeName

def serializeRequest (options : SerializerOptions) (req : Request rt) : Except Value (Request rt) :=
  if req.stream then
    .ok { req with
      message := rt.toJsonStream req.method.input options.alwaysEmitImplicit req.message }
  else
    (rt.toJson req.method.input options.alwaysEmitImplicit req.message).map fun message =>
      { req with message := message }

def deserializeResponse (options : SerializerOptions) (res : Response rt) : Outcome rt :=
  if options.skips res.typeName then .ok res
  else if res.stream then
    .ok { res with
      message := rt.fromJsonStream res.method.output options.ignoreUnknownFields res.message }
  else
    (rt.fromJson res.method.output options.ignoreUnknownFields res.message).map fun message =>
      { res with message := message }

def createSerializerInterceptor (options : SerializerOptions) : Interceptor rt :=
  fun next req context =>
    if options.skips req.typeName then next req context
    else
      match serializeRequest options req with
      | .error err => throwing err
      | .ok modifiedReq =>
        next modifiedReq context >>= fun
          | .ok res => .done (deserializeResponse options res)
          | .error err => throwing err

/-- The error handler around a call. -/
def errorHandler (options : ErrorHandlerOptions) : Interceptor rt := fun next req context =>
  next req context >>= fun outcome =>
    .done (createErrorHandlerInterceptor rt.connect rt.nodeEnv options outcome)

/-- An option that is a boolean or an object; it may be missing or `null`. -/
inductive Setting (α : Type) where
  | absent
  | flag (value : Bool)
  | object (value : α)

/-- `isOptionsObject`. -/
def Setting.object? {α : Type} : Setting α → Option α
  | .object value => some value
  | .absent | .flag _ => none

structure DefaultInterceptorOptions where
  errorHandler : Setting ErrorHandlerOptions := .absent
  timeout : Setting TimeoutOptions := .absent
  bulkhead : Setting BulkheadOptions := .absent
  circuitBreaker : Setting CircuitBreakerOptions := .absent
  retry : Setting RetryOptions := .absent
  fallback : Setting FallbackOptions := .absent
  validation : Option Bool := none
  serializer : Setting SerializerOptions := .absent

/-- The options of an interceptor that is on unless it is switched off. -/
def Setting.unlessOff {α : Type} (default : α) : Setting α → Option α
  | .flag false => none
  | setting => some (setting.object?.getD default)

/-- The options of an interceptor that is off unless it is switched on. -/
def Setting.ifOn {α : Type} (default : α) : Setting α → Option α
  | .flag true => some default
  | setting => setting.object?

/-- An interceptor, if there are options to create it with. -/
def created {α : Type} (create : α → Created rt) : Option α → Except Value (List (Interceptor rt))
  | none => .ok []
  | some options => (create options).map fun interceptor => [interceptor]

def createDefaultInterceptors (options : DefaultInterceptorOptions) :
    Except Value (List (Interceptor rt)) := do
  let errorHandler ← created (fun o => .ok (errorHandler o)) (options.errorHandler.unlessOff {})
  let timeout ← created createTimeoutInterceptor (options.timeout.ifOn {})
  let bulkhead ← created createBulkheadInterceptor (options.bulkhead.ifOn {})
  let circuitBreaker ← created createCircuitBreakerInterceptor (options.circuitBreaker.ifOn {})
  let retry ← created createRetryInterceptor (options.retry.ifOn {})
  let fallback ← created createFallbackInterceptor options.fallback.object?
  let validation := if options.validation ≠ some false then [createValidateInterceptor] else []
  let serializer ← created (fun o => .ok (createSerializerInterceptor o))
    (options.serializer.ifOn {})
  return errorHandler ++ timeout ++ bulkhead ++ circuitBreaker ++ retry ++ fallback ++ validation ++
    serializer

end Connectum.Interceptors.Chain
