import Connectum.Auth.Interceptor
import Connectum.Core.StreamBridge
import Connectum.HeaderList

/-! The handles of `ctx.stream`: a call whose inputs are pushed and whose responses are pulled. -/
namespace Connectum.Core.Streams
open JsString
open Connectum.Auth (Code)

/-- What is thrown: a `ConnectError` with its metadata, or another value. -/
inductive Thrown (E : Type) where
  | connectError (code : Code) (message : JsString) (metadata : HeaderList)
  | other (error : E)
  deriving DecidableEq

variable {C I O E : Type}

/-- `NON_TRAILER_HEADERS`. -/
def nonTrailerHeaders : List JsString :=
  [js "content-length", js "content-type", js "content-encoding"]

/-- `metadata.delete(name)` for a name in lower case. -/
def deleteName (metadata : HeaderList) (name : JsString) : HeaderList :=
  metadata.filter fun e => e.1.val ≠ name

def sanitizeCallError : Thrown E → Thrown E
  | .connectError code message metadata =>
    .connectError code message (nonTrailerHeaders.foldl deleteName metadata)
  | .other error => .other error

/-- The error has no header that is illegal in a trailer. -/
def Thrown.Clean : Thrown E → Prop
  | .connectError _ _ metadata => ∀ e ∈ metadata, e.1.val ∉ nonTrailerHeaders
  | .other _ => True

def noResponse (methodName : JsString) : Thrown E :=
  .connectError .internal (js "ctx.stream: client-streaming \"" ++ methodName ++
    js "\" produced no response.") []

/-- What the transport takes its inputs from: `singleInput(request)`, before its value, at its
`yield` or finished, or the iterable of a queue. -/
inductive Input (I E : Type) where
  | fresh (request : I)
  | yielded
  | finished
  | queue (queue : InputQueue I (Thrown E))

def Input.step : Input I E → InputQueue.Action I (Thrown E) →
    Option (Input I E × List (InputQueue.Event I (Thrown E)))
  | .fresh request, .next => some (.yielded, [.received request])
  | .yielded, .next => some (.finished, [.ended])
  | .fresh _, _ | .yielded, _ | .finished, _ => none
  | .queue q, action => (InputQueue.step q action).map fun p => (.queue p.1, p.2)

inductive Kind where
  | server
  | client
  | bidi
  deriving DecidableEq, Repr

/-- What the caller asks a generator for, and `for await` the iterator of the response. -/
inductive Request where
  | next
  | stop
  deriving DecidableEq, Repr

inductive Answer (O E : Type) where
  | message (message : O)
  | done
  | throws (error : Thrown E)
  deriving DecidableEq

/-- Where the generator or the function behind the promise is: before its first line, at the
`await` of the call, of the response's iterator or of its `return()`, at a `yield`, or at its
end. An iterator is `closable` if it has a `return()`. -/
inductive Point (O : Type) where
  | unopened
  | opening
  | reading (closable : Bool) (request : Request)
  | yielded (closable : Bool)
  | returning (message : O)
  | finished
  deriving DecidableEq

/-- A request of a generator, or the promise of a client stream, is settled. -/
inductive Settlement (O E : Type) where
  | value (message : O)
  | done
  | throws (error : Thrown E)
  deriving DecidableEq

/-- `C` is what `resolve()` gives: a transport with the frame of the call. -/
structure Handle (C I O E : Type) where
  kind : Kind
  methodName : JsString
  input : Input I E
  call : Option C := none
  point : Point O := .unopened
  queue : List Request := []

/-- The caller sends, closes and asks; the rest is the transport. The `resolution` is the outcome
of `resolve()`, if the request makes the generator call it. -/
inductive Action (C I O E : Type) where
  | send (value : I)
  | close
  | request (request : Request) (resolution : Except (Thrown E) C)
  | accept (closable : Bool)
  | reject (error : Thrown E)
  | answer (answer : Answer O E)
  | next
  | resume

inductive Event (C I O E : Type) where
  | input (event : InputQueue.Event I (Thrown E))
  | requested (request : Request)
  | resolved (resolution : Except (Thrown E) C)
  | called (call : C)
  | accepted
  | rejected (error : Thrown E)
  | asked (request : Request)
  | answered (answer : Answer O E)
  | settled (settlement : Settlement O E)

namespace Handle
variable (h : Handle C I O E)

/-- The body ends, and the requests that wait are done. -/
def finish (settlement : Settlement O E) : Handle C I O E × List (Event C I O E) :=
  ({ h with point := .finished, queue := [] },
    .settled settlement :: h.queue.map fun _ => .settled .done)

/-- The `catch` block. -/
def fail (error : Thrown E) : Handle C I O E × List (Event C I O E) :=
  h.finish (.throws (sanitizeCallError error))

/-- The body up to its first `await`. -/
def start (resolution : Except (Thrown E) C) : Handle C I O E × List (Event C I O E) :=
  match resolution with
  | .ok call =>
    ({ h with point := .opening, call := some call }, [.resolved (.ok call), .called call])
  | .error error => ((h.fail error).1, .resolved (.error error) :: (h.fail error).2)

/-- A generator at a `yield` goes on with the first request that waits. -/
def proceed (closable : Bool) : Handle C I O E × List (Event C I O E) :=
  match h.queue with
  | [] => ({ h with point := .yielded closable }, [])
  | .next :: queue => ({ h with point := .reading closable .next, queue }, [.asked .next])
  | .stop :: queue =>
    if closable then ({ h with point := .reading true .stop, queue }, [.asked .stop])
    else { h with queue }.finish .done

/-- `next()` and `return()` of a generator. -/
def request (request : Request) (resolution : Except (Thrown E) C) :
    Handle C I O E × List (Event C I O E) :=
  match h.point with
  | .unopened =>
    match request with
    | .next => h.start resolution
    | .stop => h.finish .done
  | .yielded closable => { h with queue := h.queue ++ [request] }.proceed closable
  | .finished => (h, [.settled .done])
  | .opening | .reading _ _ | .returning _ => ({ h with queue := h.queue ++ [request] }, [])

/-- `transport.stream` returns a response, whose iterator is asked for a message. -/
def accept (closable : Bool) : Option (Handle C I O E × List (Event C I O E)) :=
  match h.point with
  | .opening => some ({ h with point := .reading closable .next }, [.accepted, .asked .next])
  | _ => none

def reject (error : Thrown E) : Option (Handle C I O E × List (Event C I O E)) :=
  match h.point with
  | .opening => some ((h.fail error).1, .rejected error :: (h.fail error).2)
  | _ => none

/-- The iterator of the response answers a generator. -/
def yieldAnswer (closable : Bool) : Answer O E → Handle C I O E × List (Event C I O E)
  | .message message =>
    ((h.proceed closable).1, .settled (.value message) :: (h.proceed closable).2)
  | .done => h.finish .done
  | .throws error => h.fail error

/-- It answers the loop of `openClientStream`. -/
def loopAnswer (closable : Bool) : Answer O E → Handle C I O E × List (Event C I O E)
  | .message message =>
    if closable then ({ h with point := .returning message }, [.asked .stop])
    else h.finish (.value message)
  | .done => h.fail (noResponse h.methodName)
  | .throws error => h.fail error

def answer (answer : Answer O E) : Option (Handle C I O E × List (Event C I O E)) :=
  match h.point with
  | .reading closable _ =>
    if h.kind = .client then some (h.loopAnswer closable answer)
    else some (h.yieldAnswer closable answer)
  | .returning message =>
    match answer with
    | .throws error => some (h.fail error)
    | .message _ | .done => some (h.finish (.value message))
  | .unopened | .opening | .yielded _ | .finished => none

/-- A call of the handle, or a turn of the transport's consumer, as one of the queue. -/
def feed (action : InputQueue.Action I (Thrown E)) :
    Option (Handle C I O E × List (Event C I O E)) :=
  (h.input.step action).map fun p => ({ h with input := p.1 }, p.2.map .input)

end Handle

def step : Machine.Step (Handle C I O E) (Action C I O E) (Event C I O E)
  | h, .send value => if h.kind = .server then none else h.feed (.push value)
  | h, .close => if h.kind = .server then none else h.feed .close
  | h, .request request resolution =>
    if h.kind = .client then none
    else
      let p := h.request request resolution
      some (p.1, .requested request :: p.2)
  | h, .accept closable => h.accept closable
  | h, .reject error => h.reject error
  | h, .answer answer => (h.answer answer).map fun p => (p.1, .answered answer :: p.2)
  | h, .next => if h.call.isSome then h.feed .next else none
  | h, .resume => if h.call.isSome then h.feed .resume else none

/-- A generator of `openServerStream`; each iterator of its iterable is one. -/
def openServerStream (methodName : JsString) (request : I) :
    Handle C I O E × List (Event C I O E) :=
  ({ kind := .server, methodName, input := .fresh request }, [])

def openBidiStream (methodName : JsString) : Handle C I O E × List (Event C I O E) :=
  ({ kind := .bidi, methodName, input := .queue {} }, [])

/-- The function behind the promise runs at once. -/
def openClientStream (methodName : JsString) (resolution : Except (Thrown E) C) :
    Handle C I O E × List (Event C I O E) :=
  { kind := .client, methodName, input := .queue {} : Handle C I O E }.start resolution

/-- A handle when it is made, with what happened before. -/
inductive Opened : Handle C I O E → List (Event C I O E) → Prop where
  | server (methodName : JsString) (request : I) :
    Opened (openServerStream methodName request).1 (openServerStream methodName request).2
  | bidi (methodName : JsString) :
    Opened (openBidiStream methodName).1 (openBidiStream methodName).2
  | client (methodName : JsString) (resolution : Except (Thrown E) C) :
    Opened (openClientStream methodName resolution).1 (openClientStream methodName resolution).2

variable {h h' : Handle C I O E} {out : List (Event C I O E)} {a : Action C I O E}

/-- A request is being served. -/
def Handle.busy (h : Handle C I O E) : Bool :=
  match h.point with
  | .opening | .reading _ _ | .returning _ => true
  | .unopened | .yielded _ | .finished => false

def dones (queue : List Request) : List (Event C I O E) := queue.map fun _ => .settled .done

/-- What ends the body, with the settlement that it ends with. -/
inductive Ending (h : Handle C I O E) : List (Event C I O E) → Settlement O E → Prop where
  | unresolved (error : Thrown E) (hkind : h.kind ≠ .client) (hpoint : h.point = .unopened) :
    Ending h [.requested .next, .resolved (.error error)] (.throws (sanitizeCallError error))
  | unopened (hkind : h.kind ≠ .client) (hpoint : h.point = .unopened) :
    Ending h [.requested .stop] .done
  | stopped (hkind : h.kind ≠ .client) (hpoint : h.point = .yielded false) :
    Ending h [.requested .stop] .done
  | rejected (error : Thrown E) (hpoint : h.point = .opening) :
    Ending h [.rejected error] (.throws (sanitizeCallError error))
  | threw {closable : Bool} {request : Request} (error : Thrown E)
    (hpoint : h.point = .reading closable request) :
    Ending h [.answered (.throws error)] (.throws (sanitizeCallError error))
  | done {closable : Bool} {request : Request} (hkind : h.kind ≠ .client)
    (hpoint : h.point = .reading closable request) : Ending h [.answered .done] .done
  | silent {closable : Bool} {request : Request} (hkind : h.kind = .client)
    (hpoint : h.point = .reading closable request) :
    Ending h [.answered .done] (.throws (sanitizeCallError (noResponse h.methodName)))
  | first {request : Request} (message : O) (hkind : h.kind = .client)
    (hpoint : h.point = .reading false request) :
    Ending h [.answered (.message message)] (.value message)
  | unreturned {message : O} (error : Thrown E) (hpoint : h.point = .returning message) :
    Ending h [.answered (.throws error)] (.throws (sanitizeCallError error))
  | returned {message : O} (answer : Answer O E) (hanswer : ∀ error, answer ≠ .throws error)
    (hpoint : h.point = .returning message) : Ending h [.answered answer] (.value message)

/-- Everything that a step can do between the turns of the queue of requests. -/
inductive Stepped (h : Handle C I O E) : Handle C I O E → List (Event C I O E) → Prop where
  | fed {action : InputQueue.Action I (Thrown E)} {input : Input I E}
    {events : List (InputQueue.Event I (Thrown E))}
    (hstep : h.input.step action = some (input, events)) (hfail : ∀ error, action ≠ .fail error)
    (hcall : action = .next ∨ action = .resume → h.call.isSome = true) :
    Stepped h { h with input } (events.map .input)
  | enqueued (request : Request) (hkind : h.kind ≠ .client) (hbusy : h.busy = true) :
    Stepped h { h with queue := h.queue ++ [request] } [.requested request]
  | late (request : Request) (hkind : h.kind ≠ .client) (hpoint : h.point = .finished) :
    Stepped h h [.requested request, .settled .done]
  | started (call : C) (hkind : h.kind ≠ .client) (hpoint : h.point = .unopened) :
    Stepped h { h with point := .opening, call := some call }
      [.requested .next, .resolved (.ok call), .called call]
  | accepted (closable : Bool) (hpoint : h.point = .opening) :
    Stepped h { h with point := .reading closable .next } [.accepted, .asked .next]
  | asked {closable : Bool} (request : Request) (hkind : h.kind ≠ .client)
    (hpoint : h.point = .yielded closable) :
    Stepped h { h with point := .reading closable request } [.requested request, .asked request]
  | yielded {closable : Bool} {request : Request} (message : O) (hkind : h.kind ≠ .client)
    (hpoint : h.point = .reading closable request) (hqueue : h.queue = []) :
    Stepped h { h with point := .yielded closable }
      [.answered (.message message), .settled (.value message)]
  | resumed {closable : Bool} {request request' : Request} {queue : List Request}
    (message : O)
    (hkind : h.kind ≠ .client) (hpoint : h.point = .reading closable request)
    (hqueue : h.queue = request' :: queue) :
    Stepped h { h with point := .reading closable request', queue }
      [.answered (.message message), .settled (.value message), .asked request']
  | closing {request : Request} (message : O) (hkind : h.kind = .client)
    (hpoint : h.point = .reading true request) :
    Stepped h { h with point := .returning message } [.answered (.message message), .asked .stop]
  | ended {before : List (Event C I O E)} {settlement : Settlement O E}
    (hending : Ending h before settlement) :
    Stepped h { h with point := .finished, queue := [] }
      (before ++ .settled settlement :: dones h.queue)
  | stopped {request : Request} {queue : List Request} (message : O) (hkind : h.kind ≠ .client)
    (hpoint : h.point = .reading false request) (hqueue : h.queue = .stop :: queue) :
    Stepped h { h with point := .finished, queue := [] }
      (.answered (.message message) :: .settled (.value message) :: .settled .done :: dones queue)

theorem stepped_feed {action : InputQueue.Action I (Thrown E)}
    (hfail : ∀ error, action ≠ .fail error)
    (hcall : action = .next ∨ action = .resume → h.call.isSome = true)
    (hs : h.feed action = some (h', out)) : Stepped h h' out := by
  obtain ⟨⟨input, events⟩, hstep, heq⟩ := Option.map_eq_some_iff.mp hs
  obtain ⟨rfl, rfl⟩ := Prod.mk.inj heq
  exact .fed hstep hfail hcall

/-- A generator at a `yield` serves a request that nothing waits before. -/
theorem proceed_singleton (closable : Bool) (request : Request) (hqueue : h.queue = [request]) :
    h.proceed closable =
      if request = .stop ∧ closable = false then
        ({ h with point := .finished, queue := [] }, [.settled .done])
      else ({ h with point := .reading closable request, queue := [] }, [.asked request]) := by
  unfold Handle.proceed
  rw [hqueue]
  cases request with
  | next => rfl
  | stop => cases closable <;> rfl

/-- The requests of a generator at rest are served one by one. -/
theorem stepped_request (hrest : h.busy = false → h.queue = []) (hkind : h.kind ≠ .client)
    (request : Request) (resolution : Except (Thrown E) C) :
    Stepped h (h.request request resolution).1
      (.requested request :: (h.request request resolution).2) := by
  unfold Handle.request
  split
  next hpoint =>
    cases request with
    | next =>
      cases resolution with
      | ok call => exact .started call hkind hpoint
      | error error => exact .ended (.unresolved error hkind hpoint)
    | stop => exact .ended (.unopened hkind hpoint)
  next closable hpoint =>
    have hqueue : h.queue = [] := hrest (by simp [Handle.busy, hpoint])
    rw [proceed_singleton closable request (by rw [hqueue]; rfl)]
    split
    next hstop =>
      obtain ⟨rfl, rfl⟩ := hstop
      have hended := Stepped.ended (.stopped hkind hpoint)
      rwa [hqueue] at hended
    next =>
      have hasked := Stepped.asked request hkind hpoint
      obtain ⟨kind, methodName, input, call, point, queue⟩ := h
      obtain rfl : queue = [] := hqueue
      exact hasked
  next hpoint => exact .late request hkind hpoint
  all_goals
    next hpoint => exact .enqueued request hkind (by simp [Handle.busy, hpoint])

theorem stepped_yieldAnswer {closable : Bool} {request : Request} (hkind : h.kind ≠ .client)
    (hpoint : h.point = .reading closable request) (answer : Answer O E) :
    Stepped h (h.yieldAnswer closable answer).1
      (.answered answer :: (h.yieldAnswer closable answer).2) := by
  cases answer with
  | message message =>
    unfold Handle.yieldAnswer Handle.proceed
    dsimp only
    split
    next hqueue => exact .yielded message hkind hpoint hqueue
    next queue hqueue => exact .resumed message hkind hpoint hqueue
    next queue hqueue =>
      cases closable with
      | true => exact .resumed message hkind hpoint hqueue
      | false => exact .stopped message hkind hpoint hqueue
  | done => exact .ended (.done hkind hpoint)
  | throws error => exact .ended (.threw error hpoint)

theorem stepped_loopAnswer {closable : Bool} {request : Request} (hkind : h.kind = .client)
    (hpoint : h.point = .reading closable request) (answer : Answer O E) :
    Stepped h (h.loopAnswer closable answer).1
      (.answered answer :: (h.loopAnswer closable answer).2) := by
  cases answer with
  | message message =>
    cases closable with
    | true => exact .closing message hkind hpoint
    | false => exact .ended (.first message hkind hpoint)
  | done => exact .ended (.silent hkind hpoint)
  | throws error => exact .ended (.threw error hpoint)

theorem stepped_answer {answer : Answer O E} {p : Handle C I O E × List (Event C I O E)}
    (hs : h.answer answer = some p) : Stepped h p.1 (.answered answer :: p.2) := by
  unfold Handle.answer at hs
  split at hs
  next closable request hpoint =>
    split at hs
    next hkind =>
      obtain rfl := Option.some.inj hs
      exact stepped_loopAnswer hkind hpoint answer
    next hkind =>
      obtain rfl := Option.some.inj hs
      exact stepped_yieldAnswer hkind hpoint answer
  next message hpoint =>
    cases answer with
    | throws error =>
      obtain rfl := Option.some.inj hs
      exact .ended (.unreturned error hpoint)
    | message | done =>
      obtain rfl := Option.some.inj hs
      exact .ended (.returned _ (by simp) hpoint)
  all_goals cases hs

theorem step_cases (hrest : h.busy = false → h.queue = []) (hs : step h a = some (h', out)) :
    Stepped h h' out := by
  cases a with
  | send value =>
    obtain ⟨-, hs⟩ := Option.ite_none_left_eq_some.mp hs
    exact stepped_feed (by simp) (by simp) hs
  | close =>
    obtain ⟨-, hs⟩ := Option.ite_none_left_eq_some.mp hs
    exact stepped_feed (by simp) (by simp) hs
  | request request resolution =>
    obtain ⟨hkind, hs⟩ := Option.ite_none_left_eq_some.mp hs
    obtain ⟨rfl, rfl⟩ := Prod.mk.inj (Option.some.inj hs)
    exact stepped_request hrest hkind request resolution
  | accept closable =>
    simp only [step, Handle.accept] at hs
    split at hs
    next hpoint =>
      cases hs
      exact .accepted closable hpoint
    next => cases hs
  | reject error =>
    simp only [step, Handle.reject] at hs
    split at hs
    next hpoint =>
      cases hs
      exact .ended (.rejected error hpoint)
    next => cases hs
  | answer answer =>
    obtain ⟨p, hp, heq⟩ := Option.map_eq_some_iff.mp hs
    cases heq
    exact stepped_answer hp
  | next =>
    obtain ⟨hcall, hs⟩ := Option.ite_none_right_eq_some.mp hs
    exact stepped_feed (by simp) (fun _ => hcall) hs
  | resume =>
    obtain ⟨hcall, hs⟩ := Option.ite_none_right_eq_some.mp hs
    exact stepped_feed (by simp) (fun _ => hcall) hs

end Connectum.Core.Streams
