import Connectum.AsyncTrace
import Connectum.Interceptors.HeaderReflection

/-! What a call through the default chain costs: how often the service is called, and what the
circuit breaker is told of it. -/
namespace Connectum.Interceptors.Chain
open JsString Async

/-- What a call does, apart from authentication and validation. -/
inductive CallEvent where
  | call
  | handlerThrow
  | retry
  | admission
  | refusal
  | record (failure : Bool)
  | expiry
  deriving DecidableEq, Repr

variable {rt : Runtime}

def eventOf : Answered (Call rt) Call.Answer CallState → Option CallEvent
  | ⟨.service _, _, _⟩ => some .call
  | ⟨.handler _, .error _, _⟩ => some .handlerThrow
  | ⟨.backoff _ _, true, _⟩ => some .retry
  | ⟨.circuitBreaker _ _, none, _⟩ => some .admission
  | ⟨.circuitBreaker _ _, some _, _⟩ | ⟨.bulkhead _ _, some _, _⟩ => some .refusal
  | ⟨.recorded failure, _, _⟩ => some (.record failure)
  | ⟨.timeout _, some _, _⟩ => some .expiry
  | _ => none

def events (trace : CallTrace rt) : List CallEvent := trace.filterMap eventOf

/-- An interceptor is on, and does not skip the request. -/
def intercepts {α : Type} (skipStreaming : α → Bool) (stream : Bool) (options : Option α) : Bool :=
  options.any fun value => !(skipStreaming value && stream)

theorem intercepts_some {α : Type} {skipStreaming : α → Bool} {stream : Bool} (value : α) :
    intercepts skipStreaming stream (some value) = !(skipStreaming value && stream) := rfl

namespace DefaultInterceptorOptions
variable (options : DefaultInterceptorOptions) (stream : Bool)

def expires : Bool := intercepts TimeoutOptions.skipStreaming stream (options.timeout.ifOn {})

def bounds : Bool := intercepts BulkheadOptions.skipStreaming stream (options.bulkhead.ifOn {})

def breaks : Bool :=
  intercepts CircuitBreakerOptions.skipStreaming stream (options.circuitBreaker.ifOn {})

/-- The fallback makes up for errors. -/
def shields : Bool := intercepts FallbackOptions.skipStreaming stream options.fallback.object?

def retryLimit : ℕ :=
  ((options.retry.ifOn {}).filter fun retry => !(retry.skipStreaming && stream)).elim 0
    RetryOptions.retries

end DefaultInterceptorOptions

/-- An attempt calls the service at most once. Under a fallback whose handler does not throw it
succeeds. -/
structure IsAttempt (shielded : Bool) (events : List CallEvent) (ok : Bool) : Prop where
  sublist : events.Sublist [.call, .handlerThrow]
  caught : shielded = true → CallEvent.handlerThrow ∉ events → ok = true

/-- Attempts with the retries between them; only the last one may succeed. -/
inductive Attempts (shielded : Bool) : ℕ → List CallEvent → Bool → Prop where
  | last {limit : ℕ} {events : List CallEvent} {ok : Bool} (h : IsAttempt shielded events ok) :
      Attempts shielded limit events ok
  | again {limit : ℕ} {events rest : List CallEvent} {ok : Bool}
      (h : IsAttempt shielded events false) (hrest : Attempts shielded limit rest ok) :
      Attempts shielded (limit + 1) (events ++ .retry :: rest) ok

/-- The course of a call. A success is that of the last attempt, and is recorded as such. -/
inductive Course (options : DefaultInterceptorOptions) (stream : Bool) :
    List CallEvent → Bool → Prop where
  | turnedAway : Course options stream [] false
  | refused (h : options.bounds stream = true ∨ options.breaks stream = true) :
      Course options stream [.refusal] false
  | unguarded {events : List CallEvent} {ok : Bool} (h : options.breaks stream = false)
      (hattempts : Attempts (options.shields stream) (options.retryLimit stream) events ok) :
      Course options stream events ok
  | guarded {events : List CallEvent} {ok failure : Bool} (h : options.breaks stream = true)
      (hattempts : Attempts (options.shields stream) (options.retryLimit stream) events ok)
      (hfailure : failure = true → ok = false) :
      Course options stream (.admission :: events ++ [.record failure]) ok
  | expired {events : List CallEvent} {ok : Bool} (h : options.expires stream = true)
      (hcourse : Course options stream events ok) :
      Course options stream (events ++ [.expiry]) false

section
variable {env : (q : Call rt) → q.Answer → CallState → CallState → Prop}
  {P P' : List CallEvent → Bool → Prop} {program : Program rt (Outcome rt)}

/-- In every run the events and the success of a call satisfy `P`. -/
abbrev Does (env : (q : Call rt) → q.Answer → CallState → CallState → Prop)
    (P : List CallEvent → Bool → Prop) (program : Program rt (Outcome rt)) : Prop :=
  Yields env (fun trace outcome => P (events trace) outcome.isOk) program

theorem events_append (first rest : CallTrace rt) :
    events (first ++ rest) = events first ++ events rest := List.filterMap_append

theorem events_cons_none {x : Answered (Call rt) Call.Answer CallState} {rest : CallTrace rt}
    (h : eventOf x = none) : events (x :: rest) = events rest := List.filterMap_cons_none h

theorem events_cons_some {x : Answered (Call rt) Call.Answer CallState} {rest : CallTrace rt}
    {event : CallEvent} (h : eventOf x = some event) : events (x :: rest) = event :: events rest :=
  List.filterMap_cons_some h

theorem Does.mono (h : Does env P program) (himp : ∀ events ok, P events ok → P' events ok) :
    Does env P' program := Yields.mono h fun _ _ => himp _ _

theorem does_done {outcome : Outcome rt} (h : P [] outcome.isOk) : Does env P (.done outcome) :=
  yields_done h

theorem does_throwing (h : P [] false) (err : Value) : Does env P (throwing err) := does_done h

theorem yields_cons_none {x : Answered (Call rt) Call.Answer CallState} (hx : eventOf x = none)
    (h : Does env P program) :
    Yields env (fun trace outcome => P (events (x :: trace)) outcome.isOk) program := by
  refine Yields.mono h fun trace outcome hp => ?_
  rwa [events_cons_none hx]

theorem yields_cons_some {x : Answered (Call rt) Call.Answer CallState} {event : CallEvent}
    (hx : eventOf x = some event) (h : Does env (fun events ok => P (event :: events) ok) program) :
    Yields env (fun trace outcome => P (events (x :: trace)) outcome.isOk) program := by
  refine Yields.mono h fun trace outcome hp => ?_
  rwa [events_cons_some hx]

/-- An answer that is no event. -/
theorem does_await_none {q : Call rt} {resume : q.Answer → Program rt (Outcome rt)}
    (hq : ∀ a u, eventOf ⟨q, a, u⟩ = none) (h : ∀ a, Does env P (resume a)) :
    Does env P (.await q resume) :=
  yields_await fun a u => yields_cons_none (hq a u) (h a)

theorem does_bind {after : Outcome rt → Program rt (Outcome rt)} (h : Does env P program)
    (hafter : ∀ before result, P before result.isOk →
      Does env (fun events ok => P' (before ++ events) ok) (after result)) :
    Does env P' (program >>= after) := by
  refine Yields.bind h fun first result hp => ?_
  refine Yields.mono (hafter _ result hp) fun rest outcome hp' => ?_
  rwa [events_append]

theorem does_catching {handle : Value → Program rt (Outcome rt)} (h : Does env P program)
    (hok : ∀ events, P events true → P' events true)
    (herror : ∀ before, P before false → ∀ err,
      Does env (fun events ok => P' (before ++ events) ok) (handle err)) :
    Does env P' (catching program handle) := by
  refine does_bind h fun before result hp => ?_
  cases result with
  | ok res =>
    apply does_done
    rw [List.append_nil]
    exact hok before hp
  | error err => exact herror before hp err

/-! ### Inside an attempt -/

/-- The service is called once, or the call has failed before. -/
inductive Reached : List CallEvent → Bool → Prop where
  | before : Reached [] false
  | service (ok : Bool) : Reached [.call] ok

/-- What the interceptor makes of the next one. -/
def Passes (env : (q : Call rt) → q.Answer → CallState → CallState → Prop) (stream : Bool)
    (P P' : List CallEvent → Bool → Prop) (interceptor : Interceptor rt) : Prop :=
  ∀ next : Next rt,
    (∀ req context, req.stream = stream → Does env P (next req context)) →
    ∀ req context, req.stream = stream → Does env P' (interceptor next req context)

variable {stream : Bool}

theorem does_service (req : Request rt) (context : Option Auth.AuthContext) :
    Does env Reached (service req context) := by
  apply yields_await
  intro answer u
  apply yields_done
  rw [events_cons_some rfl]
  exact .service _

/-- The questions of an auth interceptor are no events. -/
theorem does_embed {R : Type} {p : Auth.AuthProgram rt.Session R}
    {resume : R → Program rt (Outcome rt)} (h : ∀ r, Does env P (resume r)) :
    Does env P (p.embed .auth (fun _ a => a) CallState.auth
      (fun auth s => { s with auth := auth }) >>= resume) := by
  induction p with
  | done r => exact h r
  | await q next ih => exact does_await_none (fun _ _ => rfl) ih
  | sync update next ih => exact yields_sync fun s => ih (CallState.auth s)

theorem passes_authInterceptor (hfail : P [] false)
    (interception : Auth.Interception rt.Session) :
    Passes env stream P P (authInterceptor interception) := by
  intro next hnext req context hreq
  apply yields_sync
  intro start
  refine does_embed fun result => ?_
  cases result with
  | ok fwd => exact yields_sync fun _ => hnext req _ hreq
  | error failure => exact does_await_none (fun _ _ => rfl) fun _ => does_throwing hfail _

theorem passes_validate (hfail : P [] false) :
    Passes env stream P P (createValidateInterceptor : Interceptor rt) := by
  intro next hnext req context hreq
  refine does_await_none (fun _ _ => rfl) fun answer => ?_
  cases answer with
  | error err => exact does_throwing hfail err
  | ok => exact hnext req context hreq

theorem passes_compose {interceptors : List (Interceptor rt)}
    (h : ∀ interceptor ∈ interceptors, Passes env stream P P interceptor) :
    Passes env stream P P (compose interceptors) := by
  induction interceptors with
  | nil => exact fun next hnext => hnext
  | cons interceptor interceptors ih =>
    rw [List.forall_mem_cons] at h
    exact fun next hnext => h.1 _ (ih h.2 next hnext)

theorem passes_auth (hfail : P [] false) (interceptions : List (Auth.Interception rt.Session)) :
    Passes env stream P P (compose (interceptions.map authInterceptor)) := by
  apply passes_compose
  intro interceptor hmem
  obtain ⟨interception, -, rfl⟩ := List.mem_map.mp hmem
  exact passes_authInterceptor hfail interception

theorem stream_of_serializeRequest {options : SerializerOptions} {req modifiedReq : Request rt}
    (h : serializeRequest options req = .ok modifiedReq) : modifiedReq.stream = req.stream := by
  unfold serializeRequest at h
  split at h
  next =>
    obtain rfl := Except.ok.inj h
    rfl
  next =>
    cases hmessage : rt.toJson req.method.input options.alwaysEmitImplicit req.message with
    | error err =>
      rw [hmessage] at h
      cases h
    | ok message =>
      rw [hmessage] at h
      obtain rfl := Except.ok.inj h
      rfl

theorem passes_serializer (options : SerializerOptions) :
    Passes env stream Reached Reached (createSerializerInterceptor options : Interceptor rt) := by
  intro next hnext req context hreq
  unfold createSerializerInterceptor
  split
  next => exact hnext req context hreq
  next =>
    split
    next err _ => exact does_throwing .before err
    next modifiedReq hmodified =>
      have hstream := (stream_of_serializeRequest hmodified).trans hreq
      refine does_bind (hnext modifiedReq context hstream) fun before result hreached => ?_
      cases result with
      | error err =>
        apply does_done
        rwa [List.append_nil]
      | ok res =>
        apply does_done
        rw [List.append_nil]
        cases hreached
        exact .service _

/-- An interceptor of the chain, or none where this is admitted. -/
theorem passes_created {α : Type} {create : α → Created rt} {options : Option α}
    {part : List (Interceptor rt)} (hpart : created create options = .ok part)
    (hnone : options = none → ∀ events ok, P events ok → P' events ok)
    (h : ∀ value interceptor, options = some value → create value = .ok interceptor →
      Passes env stream P P' interceptor) : Passes env stream P P' (compose part) := by
  cases options with
  | none =>
    obtain rfl := Except.ok.inj hpart
    exact fun next hnext req context hreq => (hnext req context hreq).mono (hnone rfl)
  | some value =>
    cases hcreate : create value with
    | error err =>
      rw [created, hcreate] at hpart
      cases hpart
    | ok interceptor =>
      rw [created, hcreate] at hpart
      obtain rfl := Except.ok.inj hpart
      exact h value interceptor rfl hcreate

theorem passes_skipping {interceptor : Interceptor rt} {skipStreaming : Bool}
    (hskip : (skipStreaming && stream) = true → ∀ events ok, P events ok → P' events ok)
    (h : (skipStreaming && stream) = false → Passes env stream P P' interceptor) :
    Passes env stream P P' (skipping skipStreaming interceptor) := by
  intro next hnext req context hreq
  unfold skipping
  rw [hreq]
  split
  next hskips => exact (hnext req context hreq).mono (hskip hskips)
  next hintercepted =>
    exact h (Bool.eq_false_iff.mpr hintercepted) next hnext req context hreq

/-! ### Attempts -/

theorem Reached.isAttempt {events : List CallEvent} {ok : Bool} (h : Reached events ok) :
    IsAttempt false events ok where
  sublist := by
    cases h with
    | before => simp
    | service => simp
  caught h := by simp at h

theorem passes_fallback {options : FallbackOptions} {interceptor : Interceptor rt}
    (h : createFallbackInterceptor options = .ok interceptor) :
    Passes env stream Reached
      (IsAttempt (intercepts FallbackOptions.skipStreaming stream (some options))) interceptor := by
  simp only [createFallbackInterceptor, checked_eq_ok] at h
  obtain rfl := Except.ok.inj h.2
  apply passes_skipping
  · intro hskips events ok hreached
    rw [intercepts_some, hskips]
    exact hreached.isAttempt
  · intro _ next hnext req context hreq
    refine does_catching (hnext req context hreq) (fun events hreached => ?_) ?_
    · exact ⟨hreached.isAttempt.sublist, fun _ _ => rfl⟩
    · intro before hreached err
      have hbefore : before.Sublist [.call] := by
        cases hreached with
        | before => simp
        | service => simp
      apply yields_await
      intro answer u
      cases answer with
      | ok message =>
        refine yields_sync fun s => yields_done ?_
        rw [events_cons_none rfl]
        have hcall : [CallEvent.call].Sublist [.call, .handlerThrow] := by simp
        refine ⟨?_, fun _ _ => rfl⟩
        rw [events, List.filterMap_nil, List.append_nil]
        exact hbefore.trans hcall
      | error err' =>
        apply yields_done
        rw [events_cons_some rfl]
        refine ⟨hbefore.append (List.Sublist.refl [CallEvent.handlerThrow]), fun _ hnothrow => ?_⟩
        simp [events] at hnothrow

theorem does_retryPolicy {options : RetryOptions} {shielded : Bool}
    (h : Does env (IsAttempt shielded) program) (retries : ℕ) :
    Does env (Attempts shielded retries) (retryPolicy options program retries) := by
  induction retries with
  | zero => exact h.mono fun _ _ => .last
  | succ retries ih =>
    refine does_catching h (fun _ => .last) fun before hbefore err => ?_
    have hthrow : Does env (fun events ok => Attempts shielded (retries + 1) (before ++ events) ok)
        (throwing err : Program rt (Outcome rt)) := by
      apply does_throwing
      rw [List.append_nil]
      exact .last hbefore
    split
    next =>
      apply yields_await
      intro goesOn u
      cases goesOn with
      | true =>
        refine Yields.mono ih fun trace outcome hrest => ?_
        rw [events_cons_some rfl]
        exact .again hbefore hrest
      | false =>
        exact yields_cons_none (P := fun events ok =>
          Attempts shielded (retries + 1) (before ++ events) ok) rfl hthrow
    next => exact hthrow

theorem passes_retry {options : RetryOptions} {interceptor : Interceptor rt} {shielded : Bool}
    (h : createRetryInterceptor options = .ok interceptor) :
    Passes env stream (IsAttempt shielded)
      (Attempts shielded (((some options).filter fun retry =>
        !(retry.skipStreaming && stream)).elim 0 RetryOptions.retries)) interceptor := by
  simp only [createRetryInterceptor, checked_eq_ok] at h
  obtain ⟨-, -, -, h⟩ := h
  obtain rfl := Except.ok.inj h
  apply passes_skipping
  · exact fun _ _ _ => .last
  · intro hintercepted next hnext req context hreq
    have hlimit : ((some options).filter fun retry =>
        !(retry.skipStreaming && stream)).elim 0 RetryOptions.retries = options.retries := by
      simp [Option.filter, hintercepted]
    rw [hlimit]
    exact does_retryPolicy (hnext req context hreq) _

/-! ### The outer part of the chain -/

/-- The conversion of an error, which may ask for what is no event. -/
theorem does_converting {c : ErrorClass} {convert : Program rt (Outcome rt)}
    (hconvert : ∀ {P : List CallEvent → Bool → Prop}, P [] false → Does env P convert)
    (h : Does env P program) : Does env P (converting c convert program) := by
  refine does_catching h (fun _ hp => hp) fun before hp err => ?_
  have hnil : P (before ++ []) false := by rwa [List.append_nil]
  split
  next => exact hconvert (P := fun events ok => P (before ++ events) ok) hnil
  next => exact does_throwing hnil err

section
variable {options : DefaultInterceptorOptions}

theorem passes_circuitBreaker {breaker : CircuitBreakerOptions} {interceptor : Interceptor rt}
    (hon : options.circuitBreaker.ifOn {} = some breaker)
    (h : createCircuitBreakerInterceptor breaker = .ok interceptor) :
    Passes env stream (Attempts (options.shields stream) (options.retryLimit stream))
      (Course options stream) interceptor := by
  simp only [createCircuitBreakerInterceptor, checked_eq_ok] at h
  obtain ⟨-, -, h⟩ := h
  obtain rfl := Except.ok.inj h
  have hbreaks : options.breaks stream = !(breaker.skipStreaming && stream) := by
    rw [DefaultInterceptorOptions.breaks, hon, intercepts_some]
  apply passes_skipping
  · intro hskips events ok hattempts
    exact .unguarded (by rw [hbreaks, hskips]; rfl) hattempts
  · intro hintercepted next hnext req context hreq
    have hon : options.breaks stream = true := by rw [hbreaks, hintercepted]; rfl
    refine does_converting (fun hp => does_throwing hp _) ?_
    apply yields_await
    intro answer u
    cases answer with
    | some err =>
      apply yields_done
      rw [events_cons_some rfl]
      exact .refused (.inr hon)
    | none =>
      apply yields_cons_some (P := Course options stream) rfl
      refine does_bind (hnext req context hreq) fun before result hattempts => ?_
      cases result with
      | ok res =>
        refine yields_await fun _ u => yields_done ?_
        rw [events_cons_some rfl]
        exact .guarded hon hattempts (by simp)
      | error err =>
        refine yields_await fun _ u => yields_done ?_
        rw [events_cons_some rfl]
        exact .guarded hon hattempts fun _ => rfl

theorem passes_bulkhead {bulkhead : BulkheadOptions} {interceptor : Interceptor rt}
    (hon : options.bulkhead.ifOn {} = some bulkhead)
    (h : createBulkheadInterceptor bulkhead = .ok interceptor) :
    Passes env stream (Course options stream) (Course options stream) interceptor := by
  simp only [createBulkheadInterceptor, checked_eq_ok] at h
  obtain ⟨-, -, h⟩ := h
  obtain rfl := Except.ok.inj h
  apply passes_skipping
  · exact fun _ _ _ hcourse => hcourse
  · intro hintercepted next hnext req context hreq
    have hbounds : options.bounds stream = true := by
      rw [DefaultInterceptorOptions.bounds, hon, intercepts_some, hintercepted]
      rfl
    refine does_converting ?_ ?_
    · exact fun hp => does_await_none (fun _ _ => rfl) fun slots => does_throwing hp _
    · apply yields_await
      intro answer u
      cases answer with
      | some err =>
        apply yields_done
        rw [events_cons_some rfl]
        exact .refused (.inl hbounds)
      | none =>
        exact yields_cons_none rfl (hnext req context hreq)

theorem passes_timeout {timeout : TimeoutOptions} {interceptor : Interceptor rt}
    (hon : options.timeout.ifOn {} = some timeout)
    (h : createTimeoutInterceptor timeout = .ok interceptor) :
    Passes env stream (Course options stream) (Course options stream) interceptor := by
  simp only [createTimeoutInterceptor, checked_eq_ok] at h
  obtain rfl := Except.ok.inj h.2
  apply passes_skipping
  · exact fun _ _ _ hcourse => hcourse
  · intro hintercepted next hnext req context hreq
    have hexpires : options.expires stream = true := by
      rw [DefaultInterceptorOptions.expires, hon, intercepts_some, hintercepted]
      rfl
    refine does_converting (fun hp => does_throwing hp _) ?_
    refine does_bind (hnext req context hreq) fun before result hcourse => ?_
    apply yields_await
    intro answer u
    cases answer with
    | some err =>
      apply yields_done
      rw [events_cons_some rfl]
      exact .expired hexpires hcourse
    | none =>
      apply yields_done
      rw [events_cons_none rfl]
      show Course options stream (before ++ []) result.isOk
      rwa [List.append_nil]

theorem passes_errorHandler (handler : ErrorHandlerOptions) :
    Passes env stream P P (errorHandler handler : Interceptor rt) := by
  intro next hnext req context hreq
  refine does_bind (hnext req context hreq) fun before result hp => ?_
  apply does_done
  rw [List.append_nil]
  cases result with
  | ok res => exact hp
  | error err => exact hp

/-- The part of the chain inside the fallback. -/
theorem does_reached {serializer : Option SerializerOptions} {part : List (Interceptor rt)}
    (hpart : created (fun options => .ok (createSerializerInterceptor options)) serializer =
      .ok part) (inner : List (Auth.Interception rt.Session)) (validation : Option Bool)
    (req : Request rt) (context : Option Auth.AuthContext) (hreq : req.stream = stream) :
    Does env Reached
      (compose (if validation ≠ some false then [createValidateInterceptor] else [])
        (compose part (compose (inner.map authInterceptor) service)) req context) := by
  have hserialized : ∀ req context, req.stream = stream →
      Does env Reached (compose part (compose (inner.map authInterceptor) service) req context) :=
    passes_created hpart (fun _ _ _ h => h) (fun value _ _ hcreate =>
      Except.ok.inj hcreate ▸ passes_serializer value) _
      (passes_auth .before inner _ fun req context _ => does_service req context)
  split
  next => exact passes_validate .before _ hserialized req context hreq
  next => exact hserialized req context hreq

/-- Every run of a call through the default chain takes one of the courses. -/
theorem does_call {defaults : List (Interceptor rt)}
    (hdefaults : createDefaultInterceptors options = .ok defaults)
    (outer inner : List (Auth.Interception rt.Session)) (req : Request rt)
    (context : Option Auth.AuthContext) :
    Does env (Course options req.stream) (call outer inner defaults req context) := by
  simp only [createDefaultInterceptors, Auth.bind_ok_iff] at hdefaults
  obtain ⟨_, herrorHandler, _, htimeout, _, hbulkhead, _, hcircuitBreaker, _, hretry, _, hfallback,
    _, hserializer, hdefaults⟩ := hdefaults
  obtain rfl := Except.ok.inj hdefaults
  simp only [call, compose_append, List.append_assoc]
  refine passes_auth .turnedAway outer _ ?_ req context rfl
  refine passes_created herrorHandler (fun _ _ _ h => h) (fun value _ _ hcreate =>
    Except.ok.inj hcreate ▸ passes_errorHandler value) _ ?_
  refine passes_created htimeout (fun _ _ _ h => h) (fun _ _ => passes_timeout) _ ?_
  refine passes_created hbulkhead (fun _ _ _ h => h) (fun _ _ => passes_bulkhead) _ ?_
  refine passes_created hcircuitBreaker ?_ (fun _ _ => passes_circuitBreaker) _ ?_
  · intro hoff events ok hattempts
    exact .unguarded (by rw [DefaultInterceptorOptions.breaks, hoff]; rfl) hattempts
  refine passes_created hretry (fun _ _ _ => .last) ?_ _ ?_
  · intro retry interceptor hon hcreate
    rw [DefaultInterceptorOptions.retryLimit, hon]
    exact passes_retry hcreate
  refine passes_created (P := Reached) hfallback ?_ ?_ _ (does_reached hserializer inner _)
  · intro hoff events ok hreached
    rw [DefaultInterceptorOptions.shields, hoff]
    exact hreached.isAttempt
  · intro fallback interceptor hon hcreate
    rw [DefaultInterceptorOptions.shields, hon]
    exact passes_fallback hcreate

end

end

/-! ### What it costs -/

section
variable {limit : ℕ} {shielded ok stream : Bool} {events : List CallEvent}
  {options : DefaultInterceptorOptions}

theorem IsAttempt.count_le (h : IsAttempt shielded events ok) (event : CallEvent) :
    events.count event ≤ if event = .call ∨ event = .handlerThrow then 1 else 0 := by
  refine (h.sublist.count_le event).trans ?_
  cases event <;> simp

theorem Attempts.count_call_le (h : Attempts shielded limit events ok) :
    events.count .call ≤ limit + 1 := by
  induction h with
  | last h =>
    have hcount := h.count_le .call
    simp only [true_or, if_true] at hcount
    omega
  | again h _ ih =>
    have hcount := h.count_le .call
    simp only [true_or, if_true] at hcount
    rw [List.count_append, List.count_cons_of_ne (by decide)]
    omega

/-- Nothing but calls, throws of the handler and retries. -/
theorem Attempts.count_eq_zero (h : Attempts shielded limit events ok) {event : CallEvent}
    (hevent : event ≠ .call ∧ event ≠ .handlerThrow ∧ event ≠ .retry) :
    events.count event = 0 := by
  induction h with
  | last h =>
    have hcount := h.count_le event
    simp only [hevent.1, hevent.2.1, or_self, if_false] at hcount
    omega
  | again h _ ih =>
    have hcount := h.count_le event
    simp only [hevent.1, hevent.2.1, or_self, if_false] at hcount
    rw [List.count_append, List.count_cons_of_ne (Ne.symm hevent.2.2), ih]
    omega

theorem Attempts.caught (h : Attempts true limit events ok) (hcaught : .handlerThrow ∉ events) :
    events.count .call ≤ 1 ∧ ok = true := by
  cases h with
  | last h =>
    have hcount := h.count_le .call
    simp only [true_or, if_true] at hcount
    exact ⟨hcount, h.caught rfl hcaught⟩
  | again h _ =>
    have hfailed := h.caught rfl fun hmem => hcaught (List.mem_append_left _ hmem)
    simp at hfailed

/-- The numbers of a course. -/
structure Effort (options : DefaultInterceptorOptions) (stream : Bool) (events : List CallEvent)
    (ok : Bool) : Prop where
  calls : events.count .call ≤ options.retryLimit stream + 1
  records : events.count (.record true) + events.count (.record false) = events.count .admission
  admissions : events.count .admission ≤ if options.breaks stream then 1 else 0
  failure : .record true ∈ events → ok = false
  refusal : .refusal ∈ events → events.count .call = 0 ∧ events.count .admission = 0 ∧ ok = false
  caught : options.shields stream = true → .handlerThrow ∉ events →
    events.count .call ≤ 1 ∧ .record true ∉ events

theorem Attempts.not_mem (h : Attempts shielded limit events ok) {event : CallEvent}
    (hevent : event ≠ .call ∧ event ≠ .handlerThrow ∧ event ≠ .retry) : event ∉ events :=
  List.count_eq_zero.mp (h.count_eq_zero hevent)

theorem Course.effort (h : Course options stream events ok) : Effort options stream events ok := by
  induction h with
  | turnedAway => constructor <;> simp
  | refused => constructor <;> simp
  | @unguarded events ok hoff h =>
    have hsuccess : CallEvent.record true ∉ events := h.not_mem (by simp)
    refine ⟨h.count_call_le, ?_, ?_, fun hmem => absurd hmem hsuccess, fun hmem => ?_, ?_⟩
    · rw [h.count_eq_zero (by simp), h.count_eq_zero (by simp), h.count_eq_zero (by simp)]
    · rw [h.count_eq_zero (by simp)]
      omega
    · exact absurd hmem (h.not_mem (by simp))
    · intro hshields hcaught
      rw [hshields] at h
      exact ⟨(h.caught hcaught).1, hsuccess⟩
  | @guarded events ok failure hon h hfailure =>
    have hrecord (flag : Bool) : CallEvent.record flag ∉ events := h.not_mem (by simp)
    have hcount (flag : Bool) : events.count (.record flag) = 0 := h.count_eq_zero (by simp)
    have hadmission : events.count .admission = 0 := h.count_eq_zero (by simp)
    have hcalls := h.count_call_le
    constructor
    · simpa using hcalls
    · cases failure <;> simp [hcount, hadmission]
    · simp [hadmission, hon]
    · intro hmem
      have hflag : failure = true := by simpa [hrecord, eq_comm] using hmem
      exact hfailure hflag
    · intro hmem
      have hrefusal : CallEvent.refusal ∉ events := h.not_mem (by simp)
      simp [hrefusal] at hmem
    · intro hshields hcaught
      rw [hshields] at h
      obtain ⟨hcall, rfl⟩ := h.caught fun hmem => hcaught (by simp [hmem])
      cases failure with
      | false => exact ⟨by simpa using hcall, by simp [hrecord]⟩
      | true => exact absurd (hfailure rfl) (by simp)
  | @expired events ok hon _ ih =>
    constructor
    · simpa using ih.calls
    · simpa using ih.records
    · simpa using ih.admissions
    · exact fun _ => rfl
    · intro hmem
      obtain ⟨hcall, hadmission, -⟩ := ih.refusal (by simpa using hmem)
      exact ⟨by simpa using hcall, by simpa using hadmission, rfl⟩
    · intro hshields hcaught
      obtain ⟨hcall, hrecord⟩ := ih.caught hshields (by simpa using hcaught)
      exact ⟨by simpa using hcall, by simpa using hrecord⟩

end

/-- The default chain, with retries inside the circuit breaker. -/
def resilient : DefaultInterceptorOptions where
  circuitBreaker := .flag true
  retry := .object { maxRetries := .finite 2 }

def authAnswer : (call : Auth.AuthCall plainRuntime.Session) → call.Answer
  | .extract _ => .ok none
  | .verifyCredentials _ => .error .typeError
  | .verifySession _ _ => .error .typeError
  | .mapSession _ => .error .typeError
  | .trustSource headers => (headers, .ok none)
  | .authorize _ _ _ => .ok false

/-- The service is down, and nothing stops a retry. -/
def respondDown : (q : Call plainRuntime) → CallState → q.Answer × CallState
  | .service _, s => (.error unavailable, { s with calls := s.calls + 1 })
  | .auth call, s => (authAnswer call, s)
  | .authFailed, s | .recorded _, s => ((), s)
  | .validate _, s => (.ok (), s)
  | .timeout _, s | .bulkhead _ _, s | .circuitBreaker _ _, s => (none, s)
  | .bulkheadSlots, s => ((.finite 0, .finite 0), s)
  | .backoff _ _, s => (true, s)
  | .handler err, s => (.error err, s)

def downRun (defaults : List (Interceptor plainRuntime)) :
    CallTrace plainRuntime × CallState × Outcome plainRuntime :=
  runIn respondDown (call [] [] defaults getUser none) ⟨fun _ => none, ⟨0, none⟩, 0⟩

end Connectum.Interceptors.Chain
