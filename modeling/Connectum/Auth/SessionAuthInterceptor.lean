import Connectum.Auth.AuthInterceptor

/-! The session interceptor, and that neither interceptor reads inbound identity headers. -/
namespace Connectum.Auth
open JsString Async

structure SessionAuthInterceptorOptions where
  extractToken : Extractor := .default
  cache : Option CacheOptions := none
  skipMethods : List JsString := []
  propagateHeaders : Bool := false
  propagatedClaims : Option (List JsString) := none

namespace SessionAuth
variable {Session : Type} (json : Json) (options : SessionAuthInterceptorOptions) (header : Headers)

def forward (context : AuthContext) : Except Failure Forwarded :=
  runNext json options.propagateHeaders options.propagatedClaims header context

def mapped (token : JsString) :
    Except Failure AuthContext → AuthProgram Session (Except Failure Forwarded)
  | .error error => .done (.error (rethrow "Session mapping failed" error))
  | .ok context =>
    .sync (AuthState.store token context) fun _ => .done (forward json options header context)

def verified (token : JsString) :
    Except Failure Session → AuthProgram Session (Except Failure Forwarded)
  | .error error => .done (.error (rethrow "Session verification failed" error))
  | .ok session => .await (.mapSession session) (mapped json options header token)

def extracted :
    Except Failure (Option JsString) → AuthProgram Session (Except Failure Forwarded)
  | .error error => .done (.error error)
  | .ok token =>
    match truthy token with
    | none => .done (.error missingCredentials)
    | some token =>
      .sync (AuthState.touch token) fun s =>
        match s.cached token with
        | some context => .done (forward json options header context)
        | none => .await (.verifySession token header) (verified json options header token)

end SessionAuth

open SessionAuth in
def createSessionAuthInterceptor {Session : Type} (json : Json)
    (options : SessionAuthInterceptorOptions) (req : Request) :
    AuthProgram Session (Except Failure Forwarded) :=
  let header := stripAuthHeaders req.header
  if req.skipped options.skipMethods then .done (.ok ⟨header, none⟩)
  else do
    let token ← options.extractToken.run header
    extracted json options header token

/-- The requests go to one method and differ in their identity headers at most. -/
def SameButIdentity (req req' : Request) : Prop :=
  req.typeName = req'.typeName ∧ req.methodName = req'.methodName ∧
    ∀ n, (∀ h : AuthHeader, n ≠ h.headerName) → req.header n = req'.header n

section
variable {Session : Type} {req req' : Request}

theorem SameButIdentity.strip (h : SameButIdentity req req') :
    stripAuthHeaders req.header = stripAuthHeaders req'.header := by
  funext n
  by_cases hn : ∃ h : AuthHeader, n = h.headerName
  · obtain ⟨h, rfl⟩ := hn
    rw [stripAuthHeaders_headerName, stripAuthHeaders_headerName]
  · push Not at hn
    rw [stripAuthHeaders_of_ne hn, stripAuthHeaders_of_ne hn, h.2.2 n hn]

theorem SameButIdentity.skipped (h : SameButIdentity req req') (skipMethods : List JsString) :
    req.skipped skipMethods = req'.skipped skipMethods := by
  rw [Request.skipped, Request.skipped, h.1, h.2.1]

theorem SessionAuth.exec_extracted {json : Json} {options : SessionAuthInterceptorOptions}
    {header : Headers} {answer : Except Failure (Option JsString)} {s t : AuthState}
    {fwd : Forwarded} {trace : List (Answered (AuthCall Session) AuthCall.Answer AuthState)}
    (h : Exec (extracted json options header answer : AuthProgram Session _) s trace t (.ok fwd)) :
    ∃ context, fwd.stored = some context := by
  cases answer with
  | error e => exact nomatch (exec_done_iff.mp h).1
  | ok presented =>
    simp only [extracted] at h
    split at h
    next => exact nomatch (exec_done_iff.mp h).1
    next token _ =>
      rw [exec_sync_iff] at h
      split at h
      next context _ => exact ⟨context, stored_of_runNext (exec_done_iff.mp h).1.symm⟩
      next =>
        obtain ⟨answer, u, rest, rfl, hverified⟩ := exec_await_iff.mp h
        cases answer with
        | error e => exact nomatch (exec_done_iff.mp hverified).1
        | ok session =>
          obtain ⟨answer, u, rest, rfl, hmapped⟩ := exec_await_iff.mp hverified
          cases answer with
          | error e => exact nomatch (exec_done_iff.mp hmapped).1
          | ok context =>
            simp only [mapped, exec_sync_iff, exec_done_iff] at hmapped
            exact ⟨context, stored_of_runNext hmapped.1.symm⟩

theorem exec_createSessionAuthInterceptor {json : Json} {options : SessionAuthInterceptorOptions}
    {s t : AuthState} {fwd : Forwarded}
    {trace : List (Answered (AuthCall Session) AuthCall.Answer AuthState)}
    (h : Exec (createSessionAuthInterceptor json options req : AuthProgram Session _) s trace t
      (.ok fwd)) :
    (req.skipped options.skipMethods = true ∧ fwd.stored = none) ∨
      req.skipped options.skipMethods = false ∧ ∃ context, fwd.stored = some context := by
  unfold createSessionAuthInterceptor at h
  split at h
  next hskip =>
    left
    rw [Except.ok.inj (exec_done_iff.mp h).1]
    exact ⟨hskip, rfl⟩
  next hskip =>
    obtain ⟨first, u, answer, rest, -, h, -⟩ := exec_bind h
    exact .inr ⟨eq_false_of_ne_true hskip, SessionAuth.exec_extracted h⟩

/-- The runs are the same: what the callbacks are asked, what the cache becomes, and the outcome. -/
theorem createAuthInterceptor_noninterference (json : Json) (options : AuthInterceptorOptions)
    (sessionOptions : SessionAuthInterceptorOptions) (h : SameButIdentity req req')
    (s t : AuthState) (trace : List (Answered (AuthCall Session) AuthCall.Answer AuthState))
    (outcome : Except Failure Forwarded) :
    (Exec (createAuthInterceptor json options req) s trace t outcome ↔
      Exec (createAuthInterceptor json options req') s trace t outcome) ∧
    (Exec (createSessionAuthInterceptor json sessionOptions req) s trace t outcome ↔
      Exec (createSessionAuthInterceptor json sessionOptions req') s trace t outcome) := by
  constructor
  · unfold createAuthInterceptor
    rw [h.strip, h.skipped]
  · unfold createSessionAuthInterceptor
    rw [h.strip, h.skipped]

end

def bearerToken : HeaderValue := ⟨js "Bearer t1", by decide⟩

/-- A request with a bearer token and possibly an identity header of the client. -/
def bearerRequest (claimed : Option HeaderValue) : Request where
  typeName := js "user.v1.UserService"
  methodName := js "GetUser"
  header n :=
    if n = AuthHeader.subject.headerName then claimed
    else if n.val = js "authorization" then some bearerToken else none

def alice : AuthContext := ⟨js "alice", none, [], [], [], js "jwt", none⟩

/-- The start of an interceptor that caches for a minute. -/
def emptyCache : AuthState := ⟨0, some ⟨1000, 60000, [], List.nodup_nil⟩⟩

theorem started_emptyCache : AuthState.started 0 (some { ttl := 60000 }) = some emptyCache := by
  with_unfolding_all rfl

/-- The token of the request is cached. -/
def aliceCached : AuthState :=
  ⟨0, some ⟨1000, 60000, [(js "t1", ⟨alice, 60000⟩)], List.nodup_singleton _⟩⟩

def rawJson : Json := ⟨fun _ => none, fun _ => []⟩

theorem createAuthInterceptor_noninterference_claimed :
    Exec (createAuthInterceptor rawJson {} (bearerRequest (some ⟨js "admin", by decide⟩)) :
        AuthProgram Unit _)
      aliceCached [] aliceCached
      (.ok ⟨stripAuthHeaders (bearerRequest none).header, some alice⟩) := by
  have hsame : SameButIdentity (bearerRequest (some ⟨js "admin", by decide⟩))
      (bearerRequest none) :=
    ⟨rfl, rfl, fun n hn => by simp [bearerRequest, hn .subject]⟩
  exact (createAuthInterceptor_noninterference rawJson {} {} hsame _ _ _ _).1.mpr (.sync .done)

end Connectum.Auth
