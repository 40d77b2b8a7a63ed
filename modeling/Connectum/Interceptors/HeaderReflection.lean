import Connectum.Interceptors.Endings

/-! What of a request's headers the caller can see in the response. -/
namespace Connectum.Interceptors.Chain
open JsString Async

section
variable {rt : Runtime} {script : ℕ → Outcome rt} {handler : Value → Except Value rt.Message}
  {restore : Response rt → Outcome rt} {req : Request rt} {ending : Ending rt}

/-- A call through the default chain, with auth interceptors around it and inside. -/
def call (outer inner : List (Auth.Interception rt.Session)) (defaults : List (Interceptor rt)) :
    Next rt :=
  compose (outer.map authInterceptor ++ defaults ++ inner.map authInterceptor) service

theorem lifts_auth (hstable : Stable script restore ending)
    (interceptions : List (Auth.Interception rt.Session)) :
    Lifts script handler restore req ending ending
      (compose (interceptions.map authInterceptor)) := by
  apply lifts_compose
  intro interceptor hmem
  obtain ⟨interception, -, rfl⟩ := List.mem_map.mp hmem
  exact lifts_authInterceptor hstable interception

/-- What the serializer makes of the service's answers. -/
theorem ends_serialized {serializer : Option SerializerOptions} {part : List (Interceptor rt)}
    (hpart : created (fun options => .ok (createSerializerInterceptor options)) serializer =
      .ok part) (inner : List (Auth.Interception rt.Session)) (context : Option Auth.AuthContext) :
    Ends script handler (restoring serializer req)
      (Direct script (restoring serializer req) (restoring serializer req))
      (compose part (compose (inner.map authInterceptor) service) req context) := by
  have hauth : ∀ req' context, Ends script handler (restoring serializer req)
      (Direct script (restoring serializer req) .ok)
      (compose (inner.map authInterceptor) service req' context) := fun req' =>
    lifts_auth (stable_direct _ _ _) inner service ends_service
  cases serializer with
  | none =>
    obtain rfl := Except.ok.inj hpart
    exact hauth req context
  | some options =>
    obtain rfl := Except.ok.inj hpart
    exact ends_serializer hauth context

theorem ends_validated {serializer : Option SerializerOptions} {part : List (Interceptor rt)}
    (hpart : created (fun options => .ok (createSerializerInterceptor options)) serializer =
      .ok part) (inner : List (Auth.Interception rt.Session)) (validation : Option Bool)
    (context : Option Auth.AuthContext) :
    Ends script handler (restoring serializer req)
      (Direct script (restoring serializer req) (restoring serializer req))
      (compose (if validation ≠ some false then [createValidateInterceptor] else [])
        (compose part (compose (inner.map authInterceptor) service)) req context) := by
  split
  next => exact lifts_validate (stable_direct _ _ _) _ (ends_serialized hpart inner) context
  next => exact ends_serialized hpart inner context

theorem ends_call {options : DefaultInterceptorOptions} {defaults : List (Interceptor rt)}
    (h : createDefaultInterceptors options = .ok defaults)
    (outer inner : List (Auth.Interception rt.Session)) (context : Option Auth.AuthContext) :
    Ends script handler (restoring (options.serializer.ifOn {}) req)
      (Sound script (restoring (options.serializer.ifOn {}) req) options.fallback.object? req)
      (call outer inner defaults req context) := by
  simp only [createDefaultInterceptors, Auth.bind_ok_iff] at h
  obtain ⟨_, herrorHandler, _, htimeout, _, hbulkhead, _, hcircuitBreaker, _, hretry, _, hfallback,
    _, hserializer, hdefaults⟩ := h
  obtain rfl := Except.ok.inj hdefaults
  simp only [call, compose_append, List.append_assoc]
  refine lifts_auth (stable_sound _ _ _ _) outer _ ?_ context
  refine lifts_created herrorHandler (fun _ _ _ => id) (fun value _ _ hcreate =>
    Except.ok.inj hcreate ▸ lifts_errorHandler value) _ ?_
  refine lifts_created htimeout (fun _ _ _ => id) (fun _ _ _ => lifts_timeout) _ ?_
  refine lifts_created hbulkhead (fun _ _ _ => id) (fun _ _ _ => lifts_bulkhead) _ ?_
  refine lifts_created hcircuitBreaker (fun _ _ _ => id) (fun _ _ _ => lifts_circuitBreaker) _ ?_
  -- up to the retries an error tells that the service has given no response yet
  intro context
  refine Ends.mono ?_ fun _ _ _ => Exact.sound
  refine lifts_created hretry (fun _ _ _ => id) (fun _ _ _ => lifts_retry) _ ?_ context
  refine lifts_created hfallback (fun _ _ _ => Direct.exact) (fun _ _ h => h ▸ lifts_fallback) _ ?_
  exact ends_validated hserializer inner options.validation

theorem header_deserializeResponse {options : SerializerOptions} {answer res : Response rt}
    (h : deserializeResponse options answer = .ok res) :
    res.header = answer.header ∧ res.trailer = answer.trailer := by
  unfold deserializeResponse at h
  split at h
  next =>
    obtain rfl := Except.ok.inj h
    exact ⟨rfl, rfl⟩
  next =>
    split at h
    next =>
      obtain rfl := Except.ok.inj h
      exact ⟨rfl, rfl⟩
    next =>
      cases hmessage : rt.fromJson answer.method.output options.ignoreUnknownFields
        answer.message with
      | error err =>
        rw [hmessage] at h
        cases h
      | ok message =>
        rw [hmessage] at h
        obtain rfl := Except.ok.inj h
        exact ⟨rfl, rfl⟩

theorem header_restoring {serializer : Option SerializerOptions} {answer res : Response rt}
    (h : restoring serializer req answer = .ok res) :
    res.header = answer.header ∧ res.trailer = answer.trailer := by
  cases serializer with
  | none =>
    obtain rfl := Except.ok.inj h
    exact ⟨rfl, rfl⟩
  | some options =>
    simp only [restoring] at h
    split at h
    next =>
      obtain rfl := Except.ok.inj h
      exact ⟨rfl, rfl⟩
    next => exact header_deserializeResponse h

/-- The response is what the service has answered, unless the fallback made it. -/
theorem served_or_made {options : DefaultInterceptorOptions} {defaults : List (Interceptor rt)}
    (hdefaults : createDefaultInterceptors options = .ok defaults)
    (outer inner : List (Auth.Interception rt.Session)) {context : Option Auth.AuthContext}
    {header : Headers} {auth : Auth.AuthState} {t : CallState} {trace : CallTrace rt}
    {res : Response rt} (hrun : ExecIn (Behaves script handler)
      (call outer inner defaults req context) ⟨header, auth, 0⟩ trace t (.ok res)) :
    (Quiet trace ∧ ∃ k, Fruitless script (restoring (options.serializer.ifOn {}) req) k ∧
      Delivers script (restoring (options.serializer.ifOn {}) req) k res) ∨
    MadeByFallback options.fallback.object? req trace res :=
  ends_call hdefaults outer inner context _ trace t _ hrun
    (fun k hk => absurd hk (Nat.not_lt_zero k)) res rfl

/-- Two requests that differ in their headers get the same response and headers of the service's
answer, where the fallback made neither response. What the fallback makes has a copy of the
headers of the request. -/
theorem responses_eq_or_made {options : DefaultInterceptorOptions}
    {defaults : List (Interceptor rt)}
    (hdefaults : createDefaultInterceptors options = .ok defaults)
    (outer inner : List (Auth.Interception rt.Session)) {context context' : Option Auth.AuthContext}
    {header header' : Headers} {auth auth' : Auth.AuthState} {t t' : CallState}
    {trace trace' : CallTrace rt} {res res' : Response rt}
    (hrun : ExecIn (Behaves script handler) (call outer inner defaults req context)
      ⟨header, auth, 0⟩ trace t (.ok res))
    (hrun' : ExecIn (Behaves script handler) (call outer inner defaults req context')
      ⟨header', auth', 0⟩ trace' t' (.ok res')) :
    (Quiet trace → Quiet trace' → res = res') ∧
    (Quiet trace → ∃ k answer, script k = .ok answer ∧ res.header = answer.header ∧
      res.trailer = answer.trailer) ∧
    (¬ Quiet trace → MadeByFallback options.fallback.object? req trace res) := by
  have hserved := served_or_made hdefaults outer inner hrun
  have hserved' := served_or_made hdefaults outer inner hrun'
  refine ⟨fun hquiet hquiet' => ?_, fun hquiet => ?_, fun hmade => ?_⟩
  · obtain ⟨-, k, hk, hdelivers⟩ := hserved.resolve_right fun hmade => hmade.not_quiet hquiet
    obtain ⟨-, k', hk', hdelivers'⟩ := hserved'.resolve_right fun hmade => hmade.not_quiet hquiet'
    exact hdelivers.unique hk hdelivers' hk'
  · obtain ⟨-, k, -, answer, hanswer, hrestored⟩ :=
      hserved.resolve_right fun hmade => hmade.not_quiet hquiet
    exact ⟨k, answer, hanswer, header_restoring hrestored⟩
  · exact hserved.resolve_left fun hserved => hmade hserved.1

/-! ### A response with a credential -/

section
variable {next : Next rt} {context : Option Auth.AuthContext} {s t u : CallState}
  {trace first rest : CallTrace rt} {outcome : Outcome rt}

/-- Whenever the handler makes up for an error, the headers of the request come back. -/
theorem execIn_fallback {options : FallbackOptions} {interceptor : Interceptor rt} {err : Value}
    {message : rt.Message} (h : createFallbackInterceptor options = .ok interceptor)
    (hintercepted : (options.skipStreaming && req.stream) = false)
    (hnext : ExecIn (Behaves script handler) (next req context) s trace u (.error err))
    (hhandler : handler err = .ok message) :
    ExecIn (Behaves script handler) (interceptor next req context) s
      (trace ++ [⟨.handler err, Except.ok message, u⟩]) u
      (.ok (fallbackResponse req message u.header)) := by
  simp only [createFallbackInterceptor, checked_eq_ok] at h
  obtain rfl := Except.ok.inj h.2
  unfold skipping
  rw [hintercepted, if_neg Bool.false_ne_true]
  apply execIn_bind_iff.mpr
  refine ⟨trace, u, .error err, _, hnext, ?_, rfl⟩
  have hbehaves : Behaves script handler (.handler err) (Except.ok message) u u :=
    ⟨hhandler.symm, rfl⟩
  exact .await _ u hbehaves (.sync .done)

theorem execIn_authInterceptor {interception : Auth.Interception rt.Session}
    {fwd : Auth.Forwarded}
    (hrun : ExecIn (Behaves script handler)
      ((interception ⟨req.typeName, req.method.name, s.header⟩ context).embed .auth (fun _ a => a)
        CallState.auth fun auth s => { s with auth := auth }) s first u (.ok fwd))
    (hnext : ExecIn (Behaves script handler) (next req (fwd.stored.or context))
      { u with header := fwd.header } rest t outcome) :
    ExecIn (Behaves script handler) (authInterceptor interception next req context) s
      (first ++ rest) t outcome := by
  apply ExecIn.sync
  exact execIn_bind_iff.mpr ⟨first, u, _, rest, hrun, .sync hnext, rfl⟩

theorem execIn_errorHandler {options : ErrorHandlerOptions} {res : Response rt}
    (hnext : ExecIn (Behaves script handler) (next req context) s trace t (.ok res)) :
    ExecIn (Behaves script handler) (errorHandler options next req context) s trace t
      (.ok res) := by
  rw [← List.append_nil trace]
  exact execIn_bind_iff.mpr ⟨trace, t, _, [], hnext, .done, rfl⟩

end

end

/-- Messages without content. -/
def plainRuntime : Runtime where
  Message := Unit
  Schema := Unit
  Session := Unit
  connect := plainConnect
  nodeEnv := none
  numberText _ := []
  toJson _ _ message := .ok message
  fromJson _ _ message := .ok message
  toJsonStream _ _ message := message
  fromJsonStream _ _ message := message

def getUser : Request plainRuntime :=
  ⟨false, js "user.v1.UserService", ⟨js "GetUser", (), ()⟩, ()⟩

def bearing (token : HeaderValue) : Headers := fun n =>
  if n.val = js "authorization" then some token else none

/-- The credentials are among the headers. -/
def Bears (headers : Headers) (token : HeaderValue) : Prop :=
  ∀ n, n.val = js "authorization" → headers n = some token

/-- The interceptor that verifies bearer tokens and writes the identity of the caller. -/
def propagating : Auth.Interception plainRuntime.Session := fun req _ =>
  Auth.createAuthInterceptor Auth.rawJson { propagateHeaders := true } req

def getCachedData : Value := .object true (fun _ => false) fun _ => .undefined

/-- The default chain, with a fallback. -/
def degrading : DefaultInterceptorOptions := { fallback := .object { handler := getCachedData } }

def unavailable : Value := errorObject true (js "down") (.number (codeValue .unavailable))

def down : ℕ → Outcome plainRuntime := fun _ => .error unavailable

def lastKnown : Value → Except Value plainRuntime.Message := fun _ => .ok ()

theorem created_degrading : ∃ fallback : Interceptor plainRuntime,
    createFallbackInterceptor { handler := getCachedData } = .ok fallback ∧
      createDefaultInterceptors degrading =
        .ok [errorHandler {}, fallback, createValidateInterceptor] := ⟨_, rfl, rfl⟩

theorem stripAuthHeaders_bearing (token : HeaderValue) :
    Auth.stripAuthHeaders (bearing token) = bearing token := by
  funext n
  by_cases hn : ∃ h : Auth.AuthHeader, n = h.headerName
  · obtain ⟨h, rfl⟩ := hn
    rw [Auth.stripAuthHeaders_headerName]
    cases h <;> rfl
  · exact Auth.stripAuthHeaders_of_ne (not_exists.mp hn)

theorem exists_propagated (token : HeaderValue) :
    ∃ out, Auth.setAuthHeaders Auth.rawJson (bearing token) Auth.alice none = some out ∧
      Bears out token := by
  have hwritten : Auth.setAuthHeaders Auth.rawJson (bearing token) Auth.alice none ≠ none := by
    rw [Auth.setAuthHeaders, ne_eq, Headers.setEach_eq_none]
    decide
  obtain ⟨out, hout⟩ := Option.ne_none_iff_exists'.mp hwritten
  refine ⟨out, hout, fun n hn => ?_⟩
  have hwrites : n ∉ (Auth.authWrites Auth.rawJson Auth.alice none).map Prod.fst := by
    intro hmem
    have hnames : ∀ m ∈ (Auth.authWrites Auth.rawJson Auth.alice none).map Prod.fst,
        m.val ≠ js "authorization" := by decide
    exact hnames n hmem hn
  rw [Headers.setEach_of_notMem hout hwrites, bearing, if_pos hn]

theorem exists_authenticated {token : HeaderValue} {credentials : JsString}
    (htoken : Auth.truthy (Auth.defaultExtract (bearing token)) = some credentials) :
    ∃ trace fwd, ExecIn (Behaves down lastKnown)
      ((propagating ⟨getUser.typeName, getUser.method.name, bearing token⟩ none).embed .auth
        (fun _ a => a) CallState.auth fun auth s => { s with auth := auth })
      ⟨bearing token, ⟨0, none⟩, 0⟩ trace ⟨bearing token, ⟨0, none⟩, 0⟩ (.ok fwd) ∧
      Bears fwd.header token := by
  obtain ⟨out, hset, hout⟩ := exists_propagated token
  have hprogram : propagating ⟨getUser.typeName, getUser.method.name, bearing token⟩ none =
      Auth.AuthInterceptor.extracted Auth.rawJson { propagateHeaders := true } (bearing token)
        (.ok (Auth.defaultExtract (bearing token))) := by
    unfold propagating Auth.createAuthInterceptor
    simp only [stripAuthHeaders_bearing]
    rfl
  have hforward : Auth.AuthInterceptor.forward Auth.rawJson { propagateHeaders := true }
      (bearing token) Auth.alice = .ok ⟨out, some Auth.alice⟩ := by
    simp [Auth.AuthInterceptor.forward, Auth.runNext, hset, Auth.orTypeError, Except.map]
  have hverified : ExecIn (Behaves down lastKnown)
      (Async.embed .auth (fun _ a => a) CallState.auth (fun auth s => { s with auth := auth })
        (Auth.AuthInterceptor.verified Auth.rawJson { propagateHeaders := true } (bearing token)
          credentials (.ok Auth.alice)))
      ⟨bearing token, ⟨0, none⟩, 0⟩ [] ⟨bearing token, ⟨0, none⟩, 0⟩
      (.ok ⟨out, some Auth.alice⟩) := .sync (execIn_done_iff.mpr ⟨hforward.symm, rfl, rfl⟩)
  refine ⟨[⟨.auth (.verifyCredentials credentials), Except.ok Auth.alice,
    ⟨bearing token, ⟨0, none⟩, 0⟩⟩], ⟨out, some Auth.alice⟩, ?_, hout⟩
  rw [hprogram, Auth.AuthInterceptor.extracted, htoken]
  apply ExecIn.sync
  exact execIn_await_iff.mpr ⟨_, _, _, rfl, rfl, hverified⟩

theorem exists_reflected {token : HeaderValue} {credentials : JsString}
    (htoken : Auth.truthy (Auth.defaultExtract (bearing token)) = some credentials)
    {defaults : List (Interceptor plainRuntime)}
    (hdefaults : createDefaultInterceptors degrading = .ok defaults) :
    ∃ trace t res, ExecIn (Behaves down lastKnown) (call [propagating] [] defaults getUser none)
      ⟨bearing token, ⟨0, none⟩, 0⟩ trace t (.ok res) ∧ ¬ Quiet trace ∧
        Bears res.header token := by
  obtain ⟨fallback, hfallback, hcreated⟩ := created_degrading
  obtain rfl := Except.ok.inj (hcreated.symm.trans hdefaults)
  obtain ⟨first, fwd, hfirst, hheader⟩ := exists_authenticated htoken
  have hfailed (context : Option Auth.AuthContext) : ExecIn (Behaves down lastKnown)
      (createValidateInterceptor service getUser context)
      ⟨fwd.header, ⟨0, none⟩, 0⟩ [⟨.validate getUser, Except.ok (), ⟨fwd.header, ⟨0, none⟩, 0⟩⟩,
        ⟨.service getUser, Except.error unavailable, ⟨fwd.header, ⟨0, none⟩, 1⟩⟩]
      ⟨fwd.header, ⟨0, none⟩, 1⟩ (.error unavailable) :=
    execIn_await_iff.mpr ⟨_, _, _, rfl, rfl, execIn_await_iff.mpr ⟨_, _, _, rfl, ⟨rfl, rfl⟩, .done⟩⟩
  have hhandler : lastKnown unavailable = .ok () := rfl
  have hfell context := execIn_fallback hfallback rfl (hfailed context) hhandler
  have hhandled (context : Option Auth.AuthContext) : ExecIn (Behaves down lastKnown)
      (compose [errorHandler {}, fallback, createValidateInterceptor] service getUser context)
      ⟨fwd.header, ⟨0, none⟩, 0⟩ _ _ (.ok (fallbackResponse getUser () fwd.header)) :=
    execIn_errorHandler (hfell context)
  have hrun : ExecIn (Behaves down lastKnown) (call [propagating] []
      [errorHandler {}, fallback, createValidateInterceptor] getUser none)
      ⟨bearing token, ⟨0, none⟩, 0⟩ _ _ (.ok (fallbackResponse getUser () fwd.header)) :=
    execIn_authInterceptor hfirst (hhandled _)
  refine ⟨_, _, _, hrun, fun hquiet => ?_, hheader⟩
  exact hquiet _ (List.mem_append_right _ (List.mem_append_right _ List.mem_cons_self)) trivial

def otherToken : HeaderValue := ⟨js "Bearer t2", by decide⟩

theorem credentials_bearerToken :
    Auth.truthy (Auth.defaultExtract (bearing Auth.bearerToken)) = some (js "t1") := by decide

theorem credentials_otherToken :
    Auth.truthy (Auth.defaultExtract (bearing otherToken)) = some (js "t2") := by decide

theorem responses_eq_or_made_degraded :
    ∃ trace res, MadeByFallback degrading.fallback.object? getUser trace res ∧
      Bears res.header Auth.bearerToken := by
  obtain ⟨_, -, hdefaults⟩ := created_degrading
  obtain ⟨trace, t, res, hrun, hmade, hres⟩ := exists_reflected credentials_bearerToken hdefaults
  obtain ⟨trace', t', res', hrun', -, -⟩ := exists_reflected credentials_otherToken hdefaults
  exact ⟨trace, res, (responses_eq_or_made hdefaults [propagating] [] hrun hrun').2.2 hmade, hres⟩

/-- The responses of the fallback tell the bearer tokens of two requests apart. -/
theorem request_headers_reflected :
    ¬ ∀ (rt : Runtime) (options : DefaultInterceptorOptions) (defaults : List (Interceptor rt))
      (outer inner : List (Auth.Interception rt.Session)) (script : ℕ → Outcome rt)
      (handler : Value → Except Value rt.Message) (req : Request rt)
      (context : Option Auth.AuthContext) (auth : Auth.AuthState) (header header' : Headers)
      (trace trace' : CallTrace rt) (t t' : CallState) (res res' : Response rt),
      createDefaultInterceptors options = .ok defaults →
      ExecIn (Behaves script handler) (call outer inner defaults req context) ⟨header, auth, 0⟩
        trace t (.ok res) →
      ExecIn (Behaves script handler) (call outer inner defaults req context) ⟨header', auth, 0⟩
        trace' t' (.ok res') →
      res.header = res'.header := by
  intro h
  obtain ⟨_, -, hdefaults⟩ := created_degrading
  obtain ⟨trace, t, res, hrun, -, hres⟩ := exists_reflected credentials_bearerToken hdefaults
  obtain ⟨trace', t', res', hrun', -, hres'⟩ := exists_reflected credentials_otherToken hdefaults
  have heq := h _ _ _ _ _ _ _ _ _ _ _ _ _ _ _ _ _ _ hdefaults hrun hrun'
  have hname : isHeaderName (js "authorization") = true := by decide
  have htokens := (hres ⟨_, hname⟩ rfl).symm.trans (heq ▸ hres' ⟨_, hname⟩ rfl)
  exact absurd (Option.some.inj htokens) (by decide)

end Connectum.Interceptors.Chain
