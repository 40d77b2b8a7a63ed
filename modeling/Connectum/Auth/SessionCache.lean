import Connectum.Auth.SessionAuthInterceptor

/-! When the cache of the session interceptor cannot be observed. -/
namespace Connectum.Auth
open JsString Async

/-- Callbacks that answer the same question the same way at any time. -/
structure SessionCallbacks (Session : Type) where
  extractToken : Headers → Except Failure (Option JsString)
  verifySession : JsString → Headers → Except Failure Session
  mapSession : Session → Except Failure AuthContext

/-- The last three calls are none of the session interceptor's. -/
def SessionCallbacks.answer {Session : Type} (callbacks : SessionCallbacks Session) :
    (q : AuthCall Session) → q.Answer
  | .extract header => callbacks.extractToken header
  | .verifySession token header => callbacks.verifySession token header
  | .mapSession session => callbacks.mapSession session
  | .verifyCredentials _ => .error .typeError
  | .trustSource header => (header, .ok none)
  | .authorize _ _ _ => .ok false

/-- A request, the time since the one before it, and how long each callback takes. -/
structure Visit (Session : Type) where
  req : Request
  waited : ℚ
  delay : AuthCall Session → ℚ
  waited_nonneg : 0 ≤ waited
  delay_nonneg : ∀ q, 0 ≤ delay q

namespace Visit
variable {Session : Type} (v : Visit Session) (s : AuthState)

def arrive : AuthState := { s with now := s.now + v.waited }

def elapse (q : AuthCall Session) (s : AuthState) : AuthState := { s with now := s.now + v.delay q }

/-- Nothing takes any time. -/
def Immediate : Prop := v.waited = 0 ∧ ∀ q, v.delay q = 0

/-- A request that is served at once. -/
def now (req : Request) : Visit Session := ⟨req, 0, fun _ => 0, le_rfl, fun _ => le_rfl⟩

theorem now_immediate (req : Request) : (now req : Visit Session).Immediate := ⟨rfl, fun _ => rfl⟩

variable {v}

theorem Immediate.arrive (h : v.Immediate) : (v.arrive s).now = s.now := by
  rw [Visit.arrive, h.1, add_zero]

theorem Immediate.elapse (h : v.Immediate) (q : AuthCall Session) : (v.elapse q s).now = s.now := by
  rw [Visit.elapse, h.2, add_zero]

end Visit

namespace SessionAuth
variable {Session : Type} (json : Json) (options : SessionAuthInterceptorOptions)
  (callbacks : SessionCallbacks Session)

def visit (s : AuthState) (v : Visit Session) : AuthState × Except Failure Forwarded :=
  (createSessionAuthInterceptor json options v.req).eval callbacks.answer v.elapse (v.arrive s)

/-- The outcomes of requests that come one after the other. -/
def serve (s : AuthState) : List (Visit Session) → List (Except Failure Forwarded)
  | [] => []
  | v :: visits =>
    let (s, outcome) := visit json options callbacks s v
    outcome :: serve s visits

/-- What the extractor returns for stripped headers. -/
def extraction (header : Headers) : Except Failure (Option JsString) :=
  match options.extractToken with
  | .default => .ok (defaultExtract header)
  | .callback => callbacks.extractToken header

/-- The request needs authentication and presents the token. -/
def Presents (req : Request) (token : JsString) : Prop :=
  req.skipped options.skipMethods = false ∧
    extraction options callbacks (stripAuthHeaders req.header) = .ok (some token) ∧ token ≠ []

/-- The two callbacks that lead from a token to a context. -/
def login (token : JsString) (header : Headers) : Except Failure AuthContext :=
  match callbacks.verifySession token header with
  | .error error => .error (rethrow "Session verification failed" error)
  | .ok session =>
    match callbacks.mapSession session with
    | .error error => .error (rethrow "Session mapping failed" error)
    | .ok context => .ok context

/-- What a request comes to without a cache. -/
def uncached (req : Request) : Except Failure Forwarded :=
  let header := stripAuthHeaders req.header
  if req.skipped options.skipMethods then .ok ⟨header, none⟩
  else
    match extraction options callbacks header with
    | .error error => .error error
    | .ok token =>
      match truthy token with
      | none => .error missingCredentials
      | some token => login callbacks token header >>= forward json options header

/-- The identity headers of the context are to be written, and one of them is no header value. -/
def Unwritable (context : AuthContext) : Prop :=
  options.propagateHeaders = true ∧
    ∃ write ∈ authWrites json context options.propagatedClaims, HeaderValue.ofJs write.2 = none

/-- Requests that present one token are not told apart by the callbacks: a context for the one is
the context for the other, unless both are lost to a `TypeError`. -/
def TokenDecides : Prop :=
  ∀ req req' token context, Presents options callbacks req token →
    Presents options callbacks req' token →
    login callbacks token (stripAuthHeaders req.header) = .ok context →
    login callbacks token (stripAuthHeaders req'.header) = .ok context ∨
      Unwritable json options context ∧
        ∃ context', login callbacks token (stripAuthHeaders req'.header) = .ok context' ∧
          Unwritable json options context'

variable {json options callbacks} {header : Headers} {context context' : AuthContext}
  {req req' : Request} {token : JsString} {s : AuthState}

theorem forward_eq_error (h : Unwritable json options context) :
    forward json options header context = .error .typeError := by
  obtain ⟨hpropagate, hwrite⟩ := h
  have hset : setAuthHeaders json header context options.propagatedClaims = none :=
    Headers.setEach_eq_none.mpr hwrite
  simp [forward, runNext, hpropagate, hset, orTypeError, Except.map]

theorem exists_forwarded (header : Headers) (h : ¬ Unwritable json options context) :
    ∃ fwd, forward json options header context = .ok fwd ∧ fwd.stored = some context := by
  unfold forward runNext
  split
  next hpropagate =>
    cases hset : setAuthHeaders json header context options.propagatedClaims with
    | none => exact absurd ⟨hpropagate, Headers.setEach_eq_none.mp hset⟩ h
    | some header' => exact ⟨_, rfl, rfl⟩
  next => exact ⟨_, rfl, rfl⟩

theorem rethrow_ne_typeError (message : String) (error : Failure) :
    rethrow message error ≠ .typeError := by
  cases error <;> simp [rethrow, Failure.isConnectError]

theorem login_ne_typeError : login callbacks token header ≠ .error .typeError := by
  unfold login
  split
  next => simpa using rethrow_ne_typeError _ _
  next =>
    split
    next => simpa using rethrow_ne_typeError _ _
    next => simp

/-- When serving a context is what the callbacks would have led to. -/
theorem forward_eq_login_iff :
    forward json options header context =
        (login callbacks token header >>= forward json options header) ↔
      login callbacks token header = .ok context ∨
        Unwritable json options context ∧
          ∃ context', login callbacks token header = .ok context' ∧
            Unwritable json options context' := by
  cases hlogin : login callbacks token header with
  | error e =>
    simp only [reduceCtorEq, false_and, exists_false, and_false, or_false, iff_false]
    intro hforward
    by_cases h : Unwritable json options context
    · rw [forward_eq_error h] at hforward
      obtain rfl := Except.error.inj hforward
      exact login_ne_typeError hlogin
    · obtain ⟨fwd, hfwd, -⟩ := exists_forwarded header h
      rw [hfwd] at hforward
      cases hforward
  | ok context' =>
    simp only [Except.ok.injEq, exists_eq_left']
    change forward json options header context = forward json options header context' ↔ _
    by_cases h : Unwritable json options context
    · by_cases h' : Unwritable json options context'
      · simp [forward_eq_error h, forward_eq_error h', h, h']
      · obtain ⟨fwd, hfwd, -⟩ := exists_forwarded header h'
        simp only [forward_eq_error h, hfwd, reduceCtorEq, h', and_false, or_false, false_iff]
        rintro rfl
        exact h' h
    · obtain ⟨fwd, hfwd, hstored⟩ := exists_forwarded header h
      simp only [h, false_and, or_false]
      constructor
      · intro heq
        by_cases h' : Unwritable json options context'
        · rw [hfwd, forward_eq_error h'] at heq
          cases heq
        · obtain ⟨fwd', hfwd', hstored'⟩ := exists_forwarded header h'
          rw [hfwd, hfwd'] at heq
          cases heq
          exact Option.some.inj (hstored'.symm.trans hstored)
      · rintro rfl
        rfl

/-- What a request does to the state, and its outcome. -/
inductive Visited (json : Json) (options : SessionAuthInterceptorOptions)
    (callbacks : SessionCallbacks Session) (s : AuthState) (v : Visit Session) :
    AuthState → Except Failure Forwarded → Prop where
  | unasked {u : AuthState} (hcache : u.cache = s.cache)
      (h : ∀ token, ¬ Presents options callbacks v.req token) :
      Visited json options callbacks s v u (uncached json options callbacks v.req)
  | hit {t : AuthState} {token : JsString} {context : AuthContext}
      (h : Presents options callbacks v.req token) (hcache : t.cache = s.cache)
      (hcached : t.cached token = some context) :
      Visited json options callbacks s v (t.touch token)
        (forward json options (stripAuthHeaders v.req.header) context)
  | failed {t u : AuthState} {token : JsString} {error : Failure}
      (h : Presents options callbacks v.req token) (hcache : t.cache = s.cache)
      (hnow : v.Immediate → t.now = s.now) (hcached : t.cached token = none)
      (hlogin : login callbacks token (stripAuthHeaders v.req.header) = .error error)
      (hu : u.cache = (t.touch token).cache) :
      Visited json options callbacks s v u (uncached json options callbacks v.req)
  | stored {t u : AuthState} {token : JsString} {context : AuthContext}
      (h : Presents options callbacks v.req token) (hcache : t.cache = s.cache)
      (hnow : v.Immediate → t.now = s.now ∧ u.now = s.now) (hcached : t.cached token = none)
      (hlogin : login callbacks token (stripAuthHeaders v.req.header) = .ok context)
      (hu : u.cache = (t.touch token).cache) :
      Visited json options callbacks s v (u.store token context)
        (uncached json options callbacks v.req)

theorem uncached_of_presents (h : Presents options callbacks req token) :
    uncached json options callbacks req =
      (login callbacks token (stripAuthHeaders req.header) >>=
        forward json options (stripAuthHeaders req.header)) := by
  obtain ⟨hskip, hextract, htoken⟩ := h
  have htruthy : truthy (some token) = some token := truthy_eq_some.mpr ⟨rfl, htoken⟩
  simp only [uncached, hskip, hextract, htruthy, Bool.false_eq_true, if_false]

/-- The extraction takes some time and leaves the cache alone. -/
theorem eval_extract (v : Visit Session) (s : AuthState) :
    ∃ t : AuthState, t.cache = s.cache ∧ (v.Immediate → t.now = s.now) ∧
      (options.extractToken.run header >>= extracted json options header).eval callbacks.answer
          v.elapse (v.arrive s) =
        (extracted json options header (extraction options callbacks header)).eval callbacks.answer
          v.elapse t := by
  unfold extraction
  cases options.extractToken with
  | default => exact ⟨v.arrive s, rfl, fun h => h.arrive s, rfl⟩
  | callback =>
    refine ⟨v.elapse (.extract header) (v.arrive s), rfl, fun h => ?_, rfl⟩
    rw [h.elapse, h.arrive]

variable (json options callbacks) in
theorem eval_login (header : Headers) (token : JsString) (v : Visit Session) (t : AuthState) :
    ∃ u : AuthState, u.cache = t.cache ∧ (v.Immediate → u.now = t.now) ∧
      ((∃ error, login callbacks token header = .error error ∧
        (Async.await (.verifySession token header) (verified json options header token)).eval
          callbacks.answer v.elapse t = (u, .error error)) ∨
      ∃ context, login callbacks token header = .ok context ∧
        (Async.await (.verifySession token header) (verified json options header token)).eval
          callbacks.answer v.elapse t =
          (u.store token context, forward json options header context)) := by
  simp only [eval, SessionCallbacks.answer]
  cases hverify : callbacks.verifySession token header with
  | error e =>
    refine ⟨v.elapse (.verifySession token header) t, rfl, fun h => h.elapse _ _, .inl ⟨_, ?_, rfl⟩⟩
    rw [login, hverify]
  | ok session =>
    refine ⟨v.elapse (.mapSession session) (v.elapse (.verifySession token header) t), rfl,
      fun h => (h.elapse _ _).trans (h.elapse _ _), ?_⟩
    simp only [login, hverify, verified, eval, SessionCallbacks.answer]
    cases callbacks.mapSession session with
    | error e => exact .inl ⟨_, rfl, rfl⟩
    | ok context => exact .inr ⟨context, rfl, rfl⟩

theorem visited_extracted {v : Visit Session} {t : AuthState}
    (hskip : v.req.skipped options.skipMethods = false) (hcache : t.cache = s.cache)
    (hnow : v.Immediate → t.now = s.now) {u : AuthState} {outcome : Except Failure Forwarded}
    (heval : (extracted json options (stripAuthHeaders v.req.header) (extraction options callbacks
      (stripAuthHeaders v.req.header))).eval callbacks.answer v.elapse t = (u, outcome)) :
    Visited json options callbacks s v u outcome := by
  cases hextract : extraction options callbacks (stripAuthHeaders v.req.header) with
  | error e =>
    have huncached : uncached json options callbacks v.req = .error e := by
      simp [uncached, hskip, hextract]
    rw [hextract] at heval
    obtain ⟨rfl, rfl⟩ := Prod.mk.inj heval
    rw [← huncached]
    exact .unasked hcache fun token h => nomatch hextract.symm.trans h.2.1
  | ok presented =>
    cases htruthy : truthy presented with
    | none =>
      have huncached : uncached json options callbacks v.req = .error missingCredentials := by
        simp [uncached, hskip, hextract, htruthy]
      rw [hextract] at heval
      simp only [extracted, htruthy] at heval
      obtain ⟨rfl, rfl⟩ := Prod.mk.inj heval
      rw [← huncached]
      refine .unasked hcache fun token h => ?_
      obtain rfl := Except.ok.inj (hextract.symm.trans h.2.1)
      rw [truthy_eq_some.mpr ⟨rfl, h.2.2⟩] at htruthy
      cases htruthy
    | some token =>
      obtain ⟨rfl, htoken⟩ := truthy_eq_some.mp htruthy
      have hpresents : Presents options callbacks v.req token := ⟨hskip, hextract, htoken⟩
      rw [hextract] at heval
      simp only [extracted, htruthy, eval] at heval
      cases hcached : t.cached token with
      | some context =>
        rw [hcached] at heval
        obtain ⟨rfl, rfl⟩ := Prod.mk.inj heval
        exact .hit hpresents hcache hcached
      | none =>
        rw [hcached] at heval
        obtain ⟨u', hu, hunow, hlogin | hlogin⟩ := eval_login json options callbacks
          (stripAuthHeaders v.req.header) token v (t.touch token)
        · obtain ⟨e, hlogin, hfinish⟩ := hlogin
          obtain ⟨rfl, rfl⟩ := Prod.mk.inj (hfinish.symm.trans heval)
          have huncached : uncached json options callbacks v.req = .error e := by
            rw [uncached_of_presents hpresents, hlogin]
            rfl
          rw [← huncached]
          exact .failed hpresents hcache hnow hcached hlogin hu
        · obtain ⟨context, hlogin, hfinish⟩ := hlogin
          obtain ⟨rfl, rfl⟩ := Prod.mk.inj (hfinish.symm.trans heval)
          have huncached : uncached json options callbacks v.req =
              forward json options (stripAuthHeaders v.req.header) context := by
            rw [uncached_of_presents hpresents, hlogin]
            rfl
          rw [← huncached]
          exact .stored hpresents hcache (fun h => ⟨hnow h, (hunow h).trans (hnow h)⟩) hcached
            hlogin hu

variable (json options callbacks) in
theorem visited (s : AuthState) (v : Visit Session) :
    Visited json options callbacks s v (visit json options callbacks s v).1
      (visit json options callbacks s v).2 := by
  unfold visit createSessionAuthInterceptor
  by_cases hskip : v.req.skipped options.skipMethods
  · have huncached : uncached json options callbacks v.req =
        .ok ⟨stripAuthHeaders v.req.header, none⟩ := by simp [uncached, hskip]
    simp only [hskip, if_true, eval, ← huncached]
    exact .unasked rfl fun token h => by simp [h.1] at hskip
  · obtain ⟨t, hcache, hnow, heval⟩ := eval_extract v s
    simp only [hskip, Bool.false_eq_true, if_false]
    exact visited_extracted (eq_false_of_ne_true hskip) hcache hnow heval.symm

/-- Each entry is what a request that presents its key was logged in as. -/
def Earned (options : SessionAuthInterceptorOptions) (callbacks : SessionCallbacks Session)
    (s : AuthState) : Prop :=
  ∀ cache, s.cache = some cache → ∀ e ∈ cache.entries, ∃ req,
    Presents options callbacks req e.1 ∧
      login callbacks e.1 (stripAuthHeaders req.header) = .ok e.2.value

theorem Earned.congr {u : AuthState} (h : Earned options callbacks s) (hcache : u.cache = s.cache) :
    Earned options callbacks u := by
  intro cache hold
  exact h cache (hcache ▸ hold)

theorem Earned.touch (h : Earned options callbacks s) :
    Earned options callbacks (s.touch token) := by
  intro cache hcache e he
  obtain ⟨cache, hold, rfl⟩ := Option.map_eq_some_iff.mp hcache
  exact h cache hold e (LruCache.mem_of_mem_get he)

theorem Earned.store (h : Earned options callbacks s)
    (hpresents : Presents options callbacks req token)
    (hlogin : login callbacks token (stripAuthHeaders req.header) = .ok context) :
    Earned options callbacks (s.store token context) := by
  intro cache hcache e he
  obtain ⟨cache, hold, rfl⟩ := Option.map_eq_some_iff.mp hcache
  rcases LruCache.mem_of_mem_set he with he | rfl
  · exact h cache hold e he
  · exact ⟨req, hpresents, hlogin⟩

theorem visit_of_tokenDecides (hdecides : TokenDecides json options callbacks)
    (hearned : Earned options callbacks s) (v : Visit Session) :
    (visit json options callbacks s v).2 = uncached json options callbacks v.req ∧
      Earned options callbacks (visit json options callbacks s v).1 := by
  generalize hnext : (visit json options callbacks s v).1 = u
  generalize houtcome : (visit json options callbacks s v).2 = outcome
  have hvisited := visited json options callbacks s v
  rw [hnext, houtcome] at hvisited
  cases hvisited with
  | unasked hcache => exact ⟨rfl, hearned.congr hcache⟩
  | hit hpresents hcache hcached =>
    have hearned := hearned.congr hcache
    refine ⟨?_, hearned.touch⟩
    obtain ⟨cache, entry, hsome, hmem, rfl, -, -⟩ := exists_entry_of_cached hcached
    obtain ⟨req, hreq, hlogin⟩ := hearned cache hsome _ hmem
    rw [uncached_of_presents hpresents]
    exact forward_eq_login_iff.mpr (hdecides _ _ _ _ hreq hpresents hlogin)
  | failed hpresents hcache hnow hcached hlogin hu =>
    exact ⟨rfl, ((hearned.congr hcache).touch).congr hu⟩
  | stored hpresents hcache hnow hcached hlogin hu =>
    exact ⟨rfl, (((hearned.congr hcache).touch).congr hu).store hpresents hlogin⟩

variable (json options callbacks) in
/-- Without a cache. -/
theorem visit_uncached (hs : s.cache = none) (v : Visit Session) :
    (visit json options callbacks s v).2 = uncached json options callbacks v.req ∧
      (visit json options callbacks s v).1.cache = none := by
  generalize hnext : (visit json options callbacks s v).1 = u
  generalize houtcome : (visit json options callbacks s v).2 = outcome
  have hvisited := visited json options callbacks s v
  rw [hnext, houtcome] at hvisited
  cases hvisited with
  | unasked hcache => exact ⟨rfl, hcache.trans hs⟩
  | hit hpresents hcache hcached =>
    obtain ⟨cache, -, hsome, -⟩ := exists_entry_of_cached hcached
    rw [hcache, hs] at hsome
    cases hsome
  | failed hpresents hcache hnow hcached hlogin hu =>
    exact ⟨rfl, by rw [hu, AuthState.touch, hcache, hs, Option.map_none]⟩
  | stored hpresents hcache hnow hcached hlogin hu =>
    exact ⟨rfl, by rw [AuthState.store, hu, AuthState.touch, hcache, hs, Option.map_none,
      Option.map_none]⟩

theorem serve_uncached (hs : s.cache = none) (visits : List (Visit Session)) :
    serve json options callbacks s visits =
      visits.map fun v => uncached json options callbacks v.req := by
  induction visits generalizing s with
  | nil => rfl
  | cons v visits ih =>
    obtain ⟨houtcome, hcache⟩ := visit_uncached json options callbacks hs v
    simp only [serve, List.map_cons, houtcome, ih hcache]

theorem serve_of_tokenDecides (hdecides : TokenDecides json options callbacks)
    (hearned : Earned options callbacks s) (visits : List (Visit Session)) :
    serve json options callbacks s visits =
      visits.map fun v => uncached json options callbacks v.req := by
  induction visits generalizing s with
  | nil => rfl
  | cons v visits ih =>
    obtain ⟨houtcome, hearned⟩ := visit_of_tokenDecides hdecides hearned v
    simp only [serve, List.map_cons, houtcome, ih hearned]

theorem Presents.unique {token' : JsString} (h : Presents options callbacks req token)
    (h' : Presents options callbacks req token') : token = token' :=
  Option.some.inj (Except.ok.inj (h.2.1.symm.trans h'.2.1))

variable (json) in
/-- A first request with an empty cache is remembered. -/
theorem visit_stores {cache : LruCache AuthContext} {v : Visit Session} (hv : v.Immediate)
    (hcache : s.cache = some cache) (hempty : cache.entries = [])
    (hpresents : Presents options callbacks v.req token)
    (hlogin : login callbacks token (stripAuthHeaders v.req.header) = .ok context) :
    ∃ cache', cache'.ttl = cache.ttl ∧
      (visit json options callbacks s v).1 =
        AuthState.store token context ⟨s.now, some cache'⟩ := by
  generalize hnext : (visit json options callbacks s v).1 = u
  generalize houtcome : (visit json options callbacks s v).2 = outcome
  have hvisited := visited json options callbacks s v
  rw [hnext, houtcome] at hvisited
  cases hvisited with
  | unasked _ h => exact absurd hpresents (h token)
  | hit _ ht hcached =>
    obtain ⟨cache', entry, hsome, hmem, -⟩ := exists_entry_of_cached hcached
    obtain rfl := Option.some.inj (hcache.symm.trans (ht.symm.trans hsome))
    rw [hempty] at hmem
    exact absurd hmem List.not_mem_nil
  | failed h _ _ _ herror =>
    obtain rfl := hpresents.unique h
    exact nomatch herror.symm.trans hlogin
  | @stored t u _ _ h ht hnow _ hlogin' hu =>
    obtain rfl := hpresents.unique h
    obtain rfl := Except.ok.inj (hlogin.symm.trans hlogin')
    rw [AuthState.touch, ht, hcache] at hu
    refine ⟨(cache.get t.now token).1, LruCache.get_ttl, ?_⟩
    rw [AuthState.store, hu, (hnow hv).2]
    rfl

variable (json) in
/-- The next request that presents the token is served the same context. -/
theorem visit_serves {cache : LruCache AuthContext} {v : Visit Session} (now : ℚ)
    (hv : v.Immediate) (httl : 0 < cache.ttl) (hcontext : context.expiresAt = none)
    (hpresents : Presents options callbacks v.req token) :
    (visit json options callbacks (AuthState.store token context ⟨now, some cache⟩) v).2 =
      forward json options (stripAuthHeaders v.req.header) context := by
  have hcached (t : AuthState) (ht : t.cache = some (cache.set now token context))
      (hnow : t.now = now) : t.cached token = some context := by
    simp only [AuthState.cached, ht, hnow, Option.bind_some, LruCache.get_set httl]
    simp [AuthContext.fresh, hcontext]
  have hvisited := visited json options callbacks
    (AuthState.store token context ⟨now, some cache⟩) v
  generalize (visit json options callbacks _ v).1 = u at *
  generalize (visit json options callbacks _ v).2 = outcome at *
  cases hvisited with
  | unasked _ h => exact absurd hpresents (h token)
  | hit h ht hhit =>
    obtain rfl := hpresents.unique h
    obtain ⟨cache', entry, hsome, hmem, rfl, -⟩ := exists_entry_of_cached hhit
    obtain rfl := Option.some.inj (hsome.symm.trans ht)
    rw [LruCache.eq_of_mem_set hmem]
  | failed h ht hnow hmiss =>
    obtain rfl := hpresents.unique h
    exact nomatch hmiss.symm.trans (hcached _ ht (hnow hv))
  | stored h ht hnow hmiss =>
    obtain rfl := hpresents.unique h
    exact nomatch hmiss.symm.trans (hcached _ ht (hnow hv).1)

theorem expiresAt_of_login
    (hexpires : ∀ session context, callbacks.mapSession session = .ok context →
      context.expiresAt = none)
    (hlogin : login callbacks token header = .ok context) : context.expiresAt = none := by
  unfold login at hlogin
  split at hlogin
  next => cases hlogin
  next session hverify =>
    split at hlogin
    next => cases hlogin
    next context' hmap =>
      obtain rfl := Except.ok.inj hlogin
      exact hexpires session _ hmap

/-- For contexts without an expiration, the cache cannot be observed by any sequence of requests
exactly if the token decides the context. -/
theorem cache_transparent_iff {now : ℚ} {cacheOptions : CacheOptions} {start : AuthState}
    (hcache : options.cache = some cacheOptions)
    (hstart : AuthState.started now options.cache = some start)
    (hexpires : ∀ session context, callbacks.mapSession session = .ok context →
      context.expiresAt = none) :
    (∀ visits, serve json options callbacks start visits =
      serve json options callbacks ⟨now, none⟩ visits) ↔ TokenDecides json options callbacks := by
  rw [hcache] at hstart
  obtain ⟨cache, hsome, httl, hempty⟩ := started_empty hstart
  constructor
  · intro htransparent req req' token context hreq hreq' hlogin
    obtain ⟨cache', httl', hnext⟩ :=
      visit_stores json (Visit.now_immediate req) hsome hempty hreq hlogin
    have hpositive : 0 < cache'.ttl := by
      rw [httl', httl]
      exact started_ttl hstart
    have hserves := visit_serves json start.now (Visit.now_immediate req') hpositive
      (expiresAt_of_login hexpires hlogin) hreq'
    have heq := htransparent [Visit.now req, Visit.now req']
    rw [serve_uncached (s := ⟨now, none⟩) rfl] at heq
    simp only [serve, List.map_cons, List.map_nil, List.cons.injEq, hnext, hserves] at heq
    apply forward_eq_login_iff.mp
    exact heq.2.1.trans (uncached_of_presents hreq')
  · intro hdecides visits
    have hearned : Earned options callbacks start := by
      intro cache' hcache' e he
      obtain rfl := Option.some.inj (hsome.symm.trans hcache')
      rw [hempty] at he
      exact absurd he List.not_mem_nil
    rw [serve_of_tokenDecides hdecides hearned, serve_uncached rfl]

/-- A bearer token and possibly a session cookie. -/
def cookieRequest (cookie : Option HeaderValue) : Request where
  typeName := js "user.v1.UserService"
  methodName := js "GetUser"
  header n :=
    if n.val = js "authorization" then some bearerToken
    else if n.val = js "cookie" then cookie else none

def bob : AuthContext := ⟨js "bob", none, [], [], [], js "session", none⟩

def userOf (isBob : Bool) : AuthContext := if isBob then bob else alice

/-- The session is the one of the cookie, as in `getSession({ headers })`. -/
def cookieSessions : SessionCallbacks Bool where
  extractToken _ := .ok none
  verifySession _ header :=
    .ok (decide (header.get ⟨js "cookie", by decide⟩ = some (js "sid=bob")))
  mapSession isBob := .ok (userOf isBob)

/-- The session is the one of the token. -/
def tokenSessions : SessionCallbacks Bool where
  extractToken _ := .ok none
  verifySession token _ := .ok (decide (token = js "t2"))
  mapSession isBob := .ok (userOf isBob)

theorem userOf_expiresAt (isBob : Bool) : (userOf isBob).expiresAt = none := by
  cases isBob <;> rfl

def cachedSessions : SessionAuthInterceptorOptions := { cache := some { ttl := 60000 } }

/-- One token with the cookies of two users. -/
def twoCookies : List (Visit Bool) :=
  [.now (cookieRequest none), .now (cookieRequest (some ⟨js "sid=bob", by decide⟩))]

theorem cache_transparent_iff_token :
    serve rawJson cachedSessions tokenSessions emptyCache twoCookies =
      serve rawJson cachedSessions tokenSessions ⟨0, none⟩ twoCookies := by
  refine (cache_transparent_iff rfl started_emptyCache ?_).mpr ?_ twoCookies
  · intro isBob context hmap
    rw [← Except.ok.inj hmap, userOf_expiresAt]
  · intro req req' token context _ _ hlogin
    exact .inl hlogin

/-- The user that the handler sees. -/
def served : Except Failure Forwarded → Option JsString
  | .ok fwd => fwd.stored.map AuthContext.subject
  | .error _ => none

/-- The second request is served the session of the first, whose token it shares. -/
theorem cached_session_ignores_cookie :
    ¬ ∀ (json : Json) (options : SessionAuthInterceptorOptions) (callbacks : SessionCallbacks Bool)
      (now : ℚ) (start : AuthState), AuthState.started now options.cache = some start →
      (∀ session context, callbacks.mapSession session = .ok context → context.expiresAt = none) →
      ∀ visits, serve json options callbacks start visits =
        serve json options callbacks ⟨now, none⟩ visits := by
  intro h
  have hexpires : ∀ session context, cookieSessions.mapSession session = .ok context →
      context.expiresAt = none := by
    intro isBob context hmap
    rw [← Except.ok.inj hmap, userOf_expiresAt]
  have heq := h rawJson cachedSessions cookieSessions 0 emptyCache
    started_emptyCache hexpires twoCookies
  exact absurd (congrArg (List.map served) heq) (by decide +kernel)

end SessionAuth
end Connectum.Auth
