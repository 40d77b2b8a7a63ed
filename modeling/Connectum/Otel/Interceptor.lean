import Connectum.Otel.Span

/-! The server and client interceptors with tracing, and the wrapper of streamed messages. -/
namespace Connectum.Otel

/-- The outcome of one pull from an iterable: a message (with its estimated size, which runs
the message's own code), the end, or an error. -/
inductive Pull where
  | message (size : Except Thrown ℕ)
  | done
  | fails (error : Thrown)

/-- An async iterable: how it is opened, its pulls, and how an early exit closes it. -/
structure Iterable where
  opened : Except Thrown Unit := .ok ()
  pull : ℕ → Pull
  closed : Except Thrown Unit := .ok ()

/-- What a consumer asks of the generator. -/
inductive Request where
  | next
  | return
  | throw (error : Thrown)

inductive Reply where
  | message
  | done
  | rejected (error : Thrown)

/-- The arguments of `wrapAsyncIterable`. -/
structure Wrapped where
  iterable : Iterable
  direction : String
  recordMessages : Bool
  endSpanOnComplete : Bool := false

inductive GeneratorPhase where
  | start
  | yielded
  | completed
  deriving DecidableEq, Repr

/-- `failed` says that the generator has completed by throwing. -/
structure Generator where
  phase : GeneratorPhase := .start
  sequence : ℕ := 1
  failed : Bool := false

namespace Wrapped

/-- The `finally` block, and what it throws in place of the stream's error. -/
def finish (w : Wrapped) (streamError : Option Thrown) : List SpanCall × Option Thrown :=
  if w.endSpanOnComplete then
    match streamError with
    | none => ([.setStatus .ok none, .ended], none)
    | some error =>
      if error.truthy then
        match error.describe with
        | .error thrown => ([.recordException error], some thrown)
        | .ok message => ([.recordException error, .setStatus .error message, .ended], none)
      else ([.setStatus .ok none, .ended], none)
  else ([], none)

def completes (w : Wrapped) (g : Generator) : Generator × Reply × List SpanCall :=
  ({ g with phase := .completed }, .done, (w.finish none).1)

def throws (w : Wrapped) (g : Generator) (error : Thrown) : Generator × Reply × List SpanCall :=
  ({ g with phase := .completed, failed := true },
    .rejected ((w.finish (some error)).2.getD error), (w.finish (some error)).1)

/-- A round of the `for await` loop, up to its `yield`. -/
def pull (w : Wrapped) (g : Generator) : Generator × Reply × List SpanCall :=
  match w.iterable.pull (g.sequence - 1) with
  | .done => w.completes g
  | .fails error => w.throws g error
  | .message size =>
    let yielded := { g with phase := .yielded, sequence := g.sequence + 1 }
    if w.recordMessages then
      match size with
      | .error error => w.throws g error
      | .ok size => (yielded, .message, [messageEvent w.direction g.sequence size])
    else (yielded, .message, [])

/-- A request to the generator. Before its first `next` the body has not begun. -/
def step (w : Wrapped) (g : Generator) : Request → Generator × Reply × List SpanCall
  | .next =>
    match g.phase with
    | .start => match w.iterable.opened with
      | .error error => w.throws g error
      | .ok () => w.pull g
    | .yielded => w.pull g
    | .completed => (g, .done, [])
  | .return =>
    match g.phase with
    | .yielded => match w.iterable.closed with
      | .error error => w.throws g error
      | .ok () => w.completes g
    | .start | .completed => ({ g with phase := .completed }, .done, [])
  | .throw error =>
    match g.phase with
    | .start => ({ g with phase := .completed, failed := true }, .rejected error, [])
    | .yielded => w.throws g error
    | .completed => (g, .rejected error, [])

end Wrapped

structure InterceptorOptions where
  withoutMetrics : Bool := false
  recordMessages : Bool := false

inductive RequestMessage where
  | unary (size : ℕ)
  | stream (iterable : Iterable)

inductive ResponseMessage where
  | unary (size : Except Thrown ℕ)
  | stream (iterable : Iterable)

inductive Side where
  | request
  | response
  deriving DecidableEq, Repr

/-- A call as the interceptor meets it: the request, what the handler reads of it before the
response, the response, what is asked of both streams later, and how the recording of metrics
ends after the response and in the `catch`. -/
structure Call where
  request : RequestMessage
  inject : Except Thrown Unit := .ok ()
  reading : List Request := []
  response : Except Thrown ResponseMessage
  consuming : List (Side × Request) := []
  metrics : Except Thrown Unit := .ok ()
  errorMetrics : Except Thrown Unit := .ok ()

/-- The calls on the span, how the call ends, and whether its response stream has failed. -/
structure Instrumented where
  calls : List SpanCall
  outcome : Except Thrown Unit
  streamFailed : Bool

def InterceptorOptions.recordMetrics (options : InterceptorOptions)
    (recorded : Except Thrown Unit) :
    Except Thrown Unit :=
  if options.withoutMetrics then .ok () else recorded

/-- The requests to the two wrapped streams. -/
def consume (request response : Option Wrapped) :
    Generator → Generator → List (Side × Request) → Generator × Generator × List SpanCall
  | g, h, [] => (g, h, [])
  | g, h, (.request, r) :: rest =>
    match request with
    | none => consume request response g h rest
    | some w =>
      let (g, _, calls) := w.step g r
      let (g, h, more) := consume request response g h rest
      (g, h, calls ++ more)
  | g, h, (.response, r) :: rest =>
    match response with
    | none => consume request response g h rest
    | some w =>
      let (h, _, calls) := w.step h r
      let (g, h, more) := consume request response g h rest
      (g, h, calls ++ more)

/-- The `catch` block. -/
def catchError (options : InterceptorOptions) (errorMetrics : Except Thrown Unit)
    (error : Thrown) : List SpanCall × Thrown :=
  match buildErrorAttributes error with
  | .error thrown => ([], thrown)
  | .ok errorAttrs =>
    match error.message with
    | .error thrown => ([.recordException error], thrown)
    | .ok message =>
      (.recordException error :: .setStatus .error message ::
          (errorAttrs.map (fun (key, value) => .setAttribute key value) ++ [.ended]),
        match options.recordMetrics errorMetrics with
        | .error thrown => thrown
        | .ok () => error)

def requestStream (options : InterceptorOptions) (direction : String) :
    RequestMessage → Option Wrapped
  | .unary _ => none
  | .stream iterable => some
    { iterable := iterable, direction := direction, recordMessages := options.recordMessages }

/-- The event of a unary request. -/
def requestEvents (options : InterceptorOptions) (direction : String) :
    RequestMessage → List SpanCall
  | .unary size => if options.recordMessages then [messageEvent direction 1 size] else []
  | .stream _ => []

/-- The calls after the `try` block has thrown. -/
def failCall (options : InterceptorOptions) (call : Call) (request : Option Wrapped)
    (g : Generator) (calls : List SpanCall) (error : Thrown) : Instrumented :=
  let (caught, thrown) := catchError options call.errorMetrics error
  let (_, _, more) := consume request none g {} call.consuming
  ⟨calls ++ (caught ++ more), .error thrown, false⟩

/-- The callback of `startActiveSpan`, with the directions of the interceptor. -/
def instrument (requestDirection responseDirection : String) (inject : Except Thrown Unit)
    (options : InterceptorOptions) (call : Call) : Instrumented :=
  let request := requestStream options requestDirection call.request
  match inject with
  | .error error => failCall options call request {} [] error
  | .ok () =>
    let (g, _, read) := consume request none {} {} (call.reading.map fun r => (.request, r))
    let calls := requestEvents options requestDirection call.request ++ read
    match call.response with
    | .error error => failCall options call request g calls error
    | .ok (.stream iterable) =>
      match options.recordMetrics call.metrics with
      | .error error => failCall options call request g calls error
      | .ok () =>
        let response : Wrapped :=
          { iterable := iterable, direction := responseDirection,
            recordMessages := options.recordMessages, endSpanOnComplete := true }
        let (_, h, consumed) := consume request (some response) g {} call.consuming
        ⟨calls ++ consumed, .ok (), h.failed⟩
    | .ok (.unary (.error error)) => failCall options call request g calls error
    | .ok (.unary (.ok size)) =>
      let calls := calls ++
        (if options.recordMessages then [messageEvent responseDirection 1 size] else []) ++
        [.setStatus .ok none, .ended]
      match options.recordMetrics call.metrics with
      | .error error => failCall options call request g calls error
      | .ok () =>
        let (_, _, consumed) := consume request none g {} call.consuming
        ⟨calls ++ consumed, .ok (), false⟩

def createOtelInterceptor (options : InterceptorOptions) (call : Call) : Instrumented :=
  instrument "RECEIVED" "SENT" (.ok ()) options call

def createOtelClientInterceptor (options : InterceptorOptions) (call : Call) : Instrumented :=
  instrument "SENT" "RECEIVED" call.inject options call

end Connectum.Otel
