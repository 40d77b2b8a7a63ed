import Connectum.Async
import Connectum.JsNumber
import Connectum.Events.Dlq

/-! The middleware chain that `createEventBus` puts around a handler. -/
namespace Connectum.Events.Middleware

/-- A thrown value, with the brands of `NonRetryableError` and `RetryableError`. -/
structure Failure where
  thrown : Thrown
  nonRetryable : Bool := false
  retryable : Bool := false
  deriving DecidableEq, Repr

/-- What a middleware awaits besides `next()`. `aborted` reads `ctx.signal`, `external` is any
call of a custom middleware, and `never` does not settle. -/
inductive Effect where
  | aborted
  | sleep (delay : ℚ)
  | publish (topic : String) (payload : List UInt8) (metadata : List (String × String))
  | ack
  | nack (requeue : Bool)
  | external (request : String)
  | never

/-- The reason if the signal is aborted. A sleep rejects when the signal is aborted. -/
def Effect.Answer : Effect → Type
  | .aborted => Option Failure
  | .sleep _ | .publish _ _ _ | .ack | .nack _ => Except Failure Unit
  | .external _ => Except Failure String
  | .never => Empty

/-- How a promise settles. -/
abbrev Outcome := Except Failure Unit

inductive Call where
  | next (updated : Option RawEvent)
  | effect (e : Effect)

def Call.Answer : Call → Type
  | .next _ => Outcome
  | .effect e => e.Answer

/-- A call of a middleware function, which awaits each `next()` that it makes. -/
abbrev Invocation := Async Call Call.Answer Unit Outcome

abbrev EventMiddleware := RawEvent → EventContext → Invocation

/-- What a delivery awaits, once the `next()` calls are resolved. -/
inductive Query (Message : Type) where
  | handler (message : Message) (ctx : EventContext)
  | effect (e : Effect)

def Query.Answer {Message : Type} : Query Message → Type
  | .handler _ _ => Outcome
  | .effect e => e.Answer

/-- The variables of a composed handler. -/
structure Dispatch where
  index : ℤ := -1
  currentEvent : RawEvent

section
variable {Message : Type}

abbrev Program (Message R : Type) := Async (Query Message) Query.Answer Dispatch R

def calledMultipleTimes : Failure := ⟨.error "Error" "next() called multiple times", false, false⟩

/-- A middleware's invocation with its `nextFn`. -/
def runWith (nextFn : Option RawEvent → Program Message Outcome) :
    Invocation → Program Message Outcome
  | .done outcome => .done outcome
  | .await (.next updated) resume =>
    nextFn updated >>= fun outcome => runWith nextFn (resume outcome)
  | .await (.effect e) resume => .await (.effect e) fun a => runWith nextFn (resume a)
  | .sync update resume => runWith nextFn (resume (update ()))

/-- The `catch` of `dispatch(i)`, which allows a retry from this position. -/
def settleDispatch (i : ℕ) : Outcome → Program Message Outcome
  | .ok () => .done (.ok ())
  | .error error => .sync (fun s => { s with index := (i : ℤ) - 1 }) fun _ => .done (.error error)

/-- The guard of `dispatch(i)`. -/
def guardDispatch (i : ℕ) (body : RawEvent → Program Message Outcome) : Program Message Outcome :=
  .sync (fun s => if (i : ℤ) ≤ s.index then s else { s with index := i }) fun s =>
    if (i : ℤ) ≤ s.index then .done (.error calledMultipleTimes)
    else body s.currentEvent >>= settleDispatch i

/-- `dispatch(i)`, where `i` of the middlewares are left out. -/
def dispatch (handler : RawEvent → EventContext → Program Message Outcome) (ctx : EventContext) :
    List EventMiddleware → ℕ → Program Message Outcome
  | [], i => guardDispatch i fun event => handler event ctx
  | middleware :: rest, i => guardDispatch i fun event =>
      runWith (fun updated =>
        .sync (fun s => { s with currentEvent := updated.getD s.currentEvent }) fun _ =>
          dispatch handler ctx rest (i + 1)) (middleware event ctx)

def composeMiddleware (middlewares : List EventMiddleware)
    (handler : RawEvent → EventContext → Program Message Outcome) (event : RawEvent)
    (ctx : EventContext) : Program Message Outcome :=
  match middlewares with
  | [] => handler event ctx
  | _ => .sync (fun _ => { currentEvent := event }) fun _ => dispatch handler ctx middlewares 0

end

inductive Backoff where
  | exponential
  | linear
  | fixed
  deriving DecidableEq, Repr

/-- The predicate may throw. -/
structure RetryOptions where
  maxRetries : Option JsNumber := none
  backoff : Option Backoff := none
  initialDelay : Option ℚ := none
  maxDelay : Option ℚ := none
  multiplier : Option ℚ := none
  retryableErrors : Option (Failure → Except Failure Bool) := none

def defaultMaxRetries : JsNumber := .finite 3
def defaultInitialDelay : ℚ := 1000
def defaultMaxDelay : ℚ := 30000
def defaultMultiplier : ℚ := 2

/-- Delays are exact: how a delay is rounded only moves the time of a retry. -/
def calculateDelay (backoff : Backoff) (initialDelay maxDelay multiplier : ℚ) (attempt : ℕ) : ℚ :=
  let delay := match backoff with
    | .exponential => initialDelay * multiplier ^ (attempt - 1)
    | .linear => initialDelay * attempt
    | .fixed => initialDelay
  min delay maxDelay

namespace RetryOptions

def limit (options : RetryOptions) : JsNumber := options.maxRetries.getD defaultMaxRetries

def delay (options : RetryOptions) (attempt : ℕ) : ℚ :=
  calculateDelay (options.backoff.getD .exponential)
    (options.initialDelay.getD defaultInitialDelay) (options.maxDelay.getD defaultMaxDelay)
    (options.multiplier.getD defaultMultiplier) attempt

/-- `attempt <= maxRetries + 1`. -/
def admits (options : RetryOptions) (attempt : ℕ) : Bool :=
  match options.limit with
  | .nan => false
  | .infinite negative => !negative
  | .finite maxRetries => (JsNumber.ofRat (maxRetries + 1)).atLeast attempt

/-- `attempt > maxRetries`. -/
def exhausted (options : RetryOptions) (attempt : ℕ) : Bool :=
  match options.limit with
  | .nan => false
  | .infinite negative => negative
  | .finite maxRetries => decide (maxRetries < attempt)

/-- What the `catch` throws before it looks at the attempt, by the brands and the predicate. -/
def rethrows (options : RetryOptions) (error : Failure) : Option Failure :=
  if error.nonRetryable then some error
  else if error.retryable then none
  else match options.retryableErrors with
    | none => none
    | some retryableErrors => match retryableErrors error with
      | .error thrown => some thrown
      | .ok true => none
      | .ok false => some error

end RetryOptions

/-- `lastError` before any attempt. -/
def undefinedError : Failure := ⟨.other, false, false⟩

/-- The body of the `try` and the `catch` of an attempt; `again` is the next round. -/
def tryAttempt (options : RetryOptions) (attempt : ℕ) (again : Failure → Invocation)
    (updated : Option RawEvent) : Invocation :=
  .await (.next updated) fun
    | .ok () => .done (.ok ())
    | .error error => match options.rethrows error with
      | some thrown => .done (.error thrown)
      | none =>
        if options.exhausted attempt then .done (.error error)
        else .await (.effect .aborted) fun
          | some _ => .done (.error error)
          | none => .await (.effect (.sleep (options.delay attempt))) fun
            | .error reason => .done (.error reason)
            | .ok () => again error

/-- The loop of the retry middleware from an attempt on, for `rounds` rounds at most. -/
def retryLoop (options : RetryOptions) (event : RawEvent) : ℕ → ℕ → Failure → Invocation
  | 0, _, _ => .await (.effect .never) fun a => nomatch (a : Empty)
  | rounds + 1, attempt, lastError =>
    let again := retryLoop options event rounds (attempt + 1)
    if options.admits attempt then
      if 1 < attempt then .await (.effect .aborted) fun
        | some reason => .done (.error reason)
        | none =>
          tryAttempt options attempt again
            (some { event with attempt := event.attempt + attempt - 1 })
      else tryAttempt options attempt again none
    else .done (.error lastError)

def retryMiddleware (rounds : ℕ) (options : RetryOptions) : EventMiddleware :=
  fun event _ => retryLoop options event rounds 1 undefinedError

/-- The serializer may throw. -/
structure DlqOptions where
  topic : String
  errorSerializer : Option (Failure → Except Failure String) := none

def DlqOptions.serializeError (options : DlqOptions) (error : Failure) : Except Failure String :=
  match options.errorSerializer with
  | some serialize => serialize error
  | none => .ok (defaultErrorSerializer error.thrown)

def dlqMiddleware (options : DlqOptions) : EventMiddleware := fun event _ =>
  .await (.next none) fun
    | .ok () => .done (.ok ())
    | .error error =>
      if event.eventType = options.topic then .done (.error error)
      else match options.serializeError error with
        | .error thrown => .done (.error thrown)
        | .ok text =>
          let nack : Invocation := .await (.effect (.nack false)) fun outcome => .done outcome
          .await (.effect (.publish options.topic event.payload (dlqMetadata event text))) fun
            | .error _ => nack
            | .ok () => .await (.effect .ack) fun
              | .error _ => nack
              | .ok () => .done (.ok ())

structure MiddlewareConfig where
  custom : List EventMiddleware := []
  dlq : Option DlqOptions := none
  retry : Option RetryOptions := none

/-- The chain, from the outermost to the innermost. -/
def MiddlewareConfig.middlewares (config : MiddlewareConfig) (rounds : ℕ) :
    List EventMiddleware :=
  config.custom ++ config.dlq.toList.map dlqMiddleware ++
    config.retry.toList.map (retryMiddleware rounds)

/-- A route: how its payloads are decoded, and the middleware of its own if it has any. -/
structure Route (Message : Type) where
  fromBinary : List UInt8 → Except Failure Message
  middleware : Option (List EventMiddleware) := none

section
variable {Message : Type}

/-- The innermost function: the handler gets the message and the context, not the event. -/
def Route.handle (route : Route Message) (event : RawEvent) (ctx : EventContext) :
    Program Message Outcome :=
  match route.fromBinary event.payload with
  | .error error => .done (.error error)
  | .ok message => .await (.handler message ctx) .done

/-- The composed handler on one delivery of an event. -/
def deliver (config : MiddlewareConfig) (rounds : ℕ) (route : Route Message) (event : RawEvent)
    (signal : List AbortSource) : Program Message Outcome :=
  composeMiddleware (route.middleware.getD (config.middlewares rounds)) route.handle event
    (createEventContext event signal)

end
end Connectum.Events.Middleware
