import Connectum.Async
import Connectum.Auth.Cache
import Connectum.Auth.Interceptor

/-! The generic authentication interceptor, with its cache. -/
namespace Connectum.Auth
open JsString

/-- The callbacks that the interceptors of this package await. -/
inductive AuthCall (Session : Type) where
  | extract (header : Headers)
  | verifyCredentials (credentials : JsString)
  | verifySession (token : JsString) (header : Headers)
  | mapSession (session : Session)
  | trustSource (header : Headers)
  | authorize (context : AuthContext) (service method : JsString)

/-- What a callback returns or throws. A trust source may also change the headers. -/
def AuthCall.Answer {Session : Type} : AuthCall Session → Type
  | .extract _ => Except Failure (Option JsString)
  | .verifyCredentials _ => Except Failure AuthContext
  | .verifySession _ _ => Except Failure Session
  | .mapSession _ => Except Failure AuthContext
  | .trustSource _ => Headers × Except Failure (Option AuthContext)
  | .authorize _ _ _ => Except Failure Bool

/-- The clock, and the cache of the interceptor. -/
structure AuthState where
  now : ℚ
  cache : Option (LruCache AuthContext)

structure CacheOptions where
  ttl : ℚ
  maxSize : Option ℕ := none

/-- `none` is the `RangeError` of the cache. -/
def AuthState.started (now : ℚ) : Option CacheOptions → Option AuthState
  | none => some ⟨now, none⟩
  | some options => (LruCache.create options.ttl options.maxSize).map fun cache => ⟨now, some cache⟩

abbrev AuthProgram (Session R : Type) := Async (AuthCall Session) AuthCall.Answer AuthState R

/-- A context without an expiration in the past. -/
def AuthContext.fresh (context : AuthContext) (now : ℚ) : Bool :=
  match context.expiresAt with
  | none => true
  | some expiresAt => decide (now < expiresAt)

/-- The context that the cache check serves. -/
def AuthState.cached (s : AuthState) (key : JsString) : Option AuthContext :=
  (s.cache.bind fun cache => (cache.get s.now key).2).filter fun context => context.fresh s.now

/-- What the cache check does to the cache. -/
def AuthState.touch (key : JsString) (s : AuthState) : AuthState :=
  { s with cache := s.cache.map fun cache => (cache.get s.now key).1 }

def AuthState.store (key : JsString) (context : AuthContext) (s : AuthState) : AuthState :=
  { s with cache := s.cache.map fun cache => cache.set s.now key context }

theorem exists_entry_of_cached {s : AuthState} {credentials : JsString} {context : AuthContext}
    (h : s.cached credentials = some context) :
    ∃ cache entry, s.cache = some cache ∧ (credentials, entry) ∈ cache.entries ∧
      entry.value = context ∧ s.now < entry.expiresAt ∧ context.fresh s.now = true := by
  obtain ⟨hget, hfresh⟩ := Option.filter_eq_some_iff.mp h
  obtain ⟨cache, hcache, hget⟩ := Option.bind_eq_some_iff.mp hget
  obtain ⟨entry, hmem, hvalue, hlive⟩ := LruCache.exists_entry_of_get hget
  exact ⟨cache, entry, hcache, hmem, hvalue, hlive, hfresh⟩

theorem started_empty {now : ℚ} {cacheOptions : CacheOptions} {start : AuthState}
    (hstart : AuthState.started now (some cacheOptions) = some start) :
    ∃ cache, start.cache = some cache ∧ cache.ttl = cacheOptions.ttl ∧ cache.entries = [] := by
  obtain ⟨cache, hcreate, rfl⟩ := Option.map_eq_some_iff.mp hstart
  unfold LruCache.create at hcreate
  split at hcreate
  next => simp at hcreate
  next =>
    obtain rfl := Option.some.inj hcreate
    exact ⟨_, rfl, rfl, rfl⟩

theorem started_ttl {now : ℚ} {cacheOptions : CacheOptions} {start : AuthState}
    (hstart : AuthState.started now (some cacheOptions) = some start) : 0 < cacheOptions.ttl := by
  obtain ⟨cache, hcreate, -⟩ := Option.map_eq_some_iff.mp hstart
  unfold LruCache.create at hcreate
  split at hcreate
  next => simp at hcreate
  next httl => exact not_le.mp httl

/-- `.` of a regular expression. -/
def isLineTerminator (c : UInt16) : Bool := c == 0x0A || c == 0x0D || c == 0x2028 || c == 0x2029

/-- `/^Bearer\s+(.+)$/i`, whose last group is at least one code unit long. -/
def matchBearer (value : JsString) : Option JsString :=
  if (value.take 6).map toLower ≠ js "bearer" then none
  else
    let rest := value.drop 6
    let spaces := rest.takeWhile isWhitespace
    let token := if spaces = rest then rest.drop (rest.length - 1) else rest.drop spaces.length
    if spaces = [] ∨ spaces = token ∨ token.any isLineTerminator then none else some token

/-- The default extractors of the two interceptors. -/
def defaultExtract (header : Headers) : Option JsString :=
  (truthy (header.get ⟨js "authorization", by decide⟩)).bind matchBearer

inductive Extractor where
  | default
  | callback

def Extractor.run {Session : Type} (extractor : Extractor) (header : Headers) :
    AuthProgram Session (Except Failure (Option JsString)) :=
  match extractor with
  | .default => .done (.ok (defaultExtract header))
  | .callback => .await (.extract header) .done

structure AuthInterceptorOptions where
  extractCredentials : Extractor := .default
  skipMethods : List JsString := []
  propagateHeaders : Bool := false
  cache : Option CacheOptions := none
  propagatedClaims : Option (List JsString) := none

/-- `next` under a context, with the headers written if they are propagated. -/
def runNext (json : Json) (propagateHeaders : Bool) (propagatedClaims : Option (List JsString))
    (header : Headers) (context : AuthContext) : Except Failure Forwarded :=
  if propagateHeaders then
    (orTypeError (setAuthHeaders json header context propagatedClaims)).map fun header =>
      ⟨header, some context⟩
  else .ok ⟨header, some context⟩

theorem stored_of_runNext {json : Json} {propagateHeaders : Bool}
    {propagatedClaims : Option (List JsString)} {header : Headers} {context : AuthContext}
    {fwd : Forwarded}
    (h : runNext json propagateHeaders propagatedClaims header context = .ok fwd) :
    fwd.stored = some context := by
  unfold runNext at h
  split at h
  next =>
    cases hset : orTypeError (setAuthHeaders json header context propagatedClaims) with
    | error e =>
      rw [hset] at h
      cases h
    | ok header' =>
      rw [hset] at h
      cases h
      rfl
  next =>
    cases h
    rfl

def missingCredentials : Failure := .connectError .unauthenticated "Missing credentials"

/-- A `ConnectError` is thrown on, and any other error hidden behind a message. -/
def rethrow (message : String) (error : Failure) : Failure :=
  if error.isConnectError then error else .connectError .unauthenticated message

namespace AuthInterceptor
variable {Session : Type} (json : Json) (options : AuthInterceptorOptions) (header : Headers)

def forward (context : AuthContext) : Except Failure Forwarded :=
  runNext json options.propagateHeaders options.propagatedClaims header context

def verified (credentials : JsString) :
    Except Failure AuthContext → AuthProgram Session (Except Failure Forwarded)
  | .error error => .done (.error (rethrow "Authentication failed" error))
  | .ok context =>
    .sync (AuthState.store credentials context) fun _ => .done (forward json options header context)

def extracted :
    Except Failure (Option JsString) → AuthProgram Session (Except Failure Forwarded)
  | .error error => .done (.error error)
  | .ok credentials =>
    match truthy credentials with
    | none => .done (.error missingCredentials)
    | some credentials =>
      .sync (AuthState.touch credentials) fun s =>
        match s.cached credentials with
        | some context => .done (forward json options header context)
        | none => .await (.verifyCredentials credentials) (verified json options header credentials)

end AuthInterceptor

open AuthInterceptor in
def createAuthInterceptor {Session : Type} (json : Json) (options : AuthInterceptorOptions)
    (req : Request) : AuthProgram Session (Except Failure Forwarded) :=
  let header := stripAuthHeaders req.header
  if req.skipped options.skipMethods then .done (.ok ⟨header, none⟩)
  else do
    let credentials ← options.extractCredentials.run header
    extracted json options header credentials

section
open AuthInterceptor Async
variable {Session : Type} {json : Json} {options : AuthInterceptorOptions} {header : Headers}
  {req : Request} {s t : AuthState} {fwd : Forwarded}
  {trace : List (Answered (AuthCall Session) AuthCall.Answer AuthState)}

/-- The context was served from the cache or verified on the way. -/
def Authenticated (credentials : JsString) (context : AuthContext) (s : AuthState)
    (trace : List (Answered (AuthCall Session) AuthCall.Answer AuthState)) : Prop :=
  s.cached credentials = some context ∨
    ∃ u, ⟨.verifyCredentials credentials, Except.ok context, u⟩ ∈ trace

theorem exec_verified {credentials : JsString} {answer : Except Failure AuthContext}
    (h : Exec (verified json options header credentials answer : AuthProgram Session _) s trace t
      (.ok fwd)) : ∃ context, answer = .ok context ∧ fwd.stored = some context := by
  cases answer with
  | error e => exact nomatch (exec_done_iff.mp h).1
  | ok context =>
    simp only [verified, exec_sync_iff, exec_done_iff] at h
    exact ⟨context, rfl, stored_of_runNext h.1.symm⟩

theorem exec_extracted {answer : Except Failure (Option JsString)}
    (h : Exec (extracted json options header answer : AuthProgram Session _) s trace t (.ok fwd)) :
    ∃ credentials context,
      fwd.stored = some context ∧ Authenticated credentials context s trace := by
  cases answer with
  | error e => exact nomatch (exec_done_iff.mp h).1
  | ok presented =>
    simp only [extracted] at h
    split at h
    next => exact nomatch (exec_done_iff.mp h).1
    next credentials _ =>
      rw [exec_sync_iff] at h
      split at h
      next context hcached =>
        exact ⟨credentials, context, stored_of_runNext (exec_done_iff.mp h).1.symm, .inl hcached⟩
      next =>
        obtain ⟨answer, u, rest, rfl, hverified⟩ := exec_await_iff.mp h
        obtain ⟨context, rfl, hstored⟩ := exec_verified hverified
        exact ⟨credentials, context, hstored, .inr ⟨u, List.mem_cons_self⟩⟩

/-- A request that is not exempt runs under a context from the cache or the verifier. -/
theorem exec_createAuthInterceptor
    (h : Exec (createAuthInterceptor json options req : AuthProgram Session _) s trace t
      (.ok fwd)) :
    (req.skipped options.skipMethods = true ∧ fwd.stored = none) ∨
      req.skipped options.skipMethods = false ∧ ∃ credentials context u,
        (options.extractCredentials = .default → u = s) ∧ fwd.stored = some context ∧
          Authenticated credentials context u trace := by
  unfold createAuthInterceptor at h
  split at h
  next hskip =>
    left
    rw [Except.ok.inj (exec_done_iff.mp h).1]
    exact ⟨hskip, rfl⟩
  next hskip =>
    right
    obtain ⟨first, u, answer, rest, hextract, hextracted, rfl⟩ := exec_bind h
    obtain ⟨credentials, context, hstored, hauth⟩ := exec_extracted hextracted
    refine ⟨eq_false_of_ne_true hskip, credentials, context, u, fun hdefault => ?_, hstored, ?_⟩
    · rw [hdefault] at hextract
      exact (exec_done_iff.mp hextract).2.2
    · rcases hauth with hcached | ⟨v, hmem⟩
      · exact .inl hcached
      · exact .inr ⟨v, List.mem_append_right _ hmem⟩

end

end Connectum.Auth
