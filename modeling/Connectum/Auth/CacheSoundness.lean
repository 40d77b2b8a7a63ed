import Connectum.Auth.SessionAuthInterceptor

/-! What concurrent requests are served from the cache was verified for their credentials. -/
namespace Connectum.Auth
open JsString Async

namespace AuthInterceptor
variable {Session : Type}

/-- The clock never goes back. -/
def clock (now : ℚ) (s : AuthState) : Option AuthState :=
  if s.now ≤ now then some { s with now := now } else none

abbrev Requests (Session : Type) :=
  Pool (AuthCall Session) AuthCall.Answer AuthState (Except Failure Forwarded)

abbrev Action (Session : Type) := Pool.Action Request ℚ (AuthCall Session) AuthCall.Answer

abbrev Event (Session : Type) :=
  Pool.Event Request (AuthCall Session) AuthCall.Answer AuthState (Except Failure Forwarded)

/-- Concurrent requests to one interceptor. -/
def step (json : Json) (options : AuthInterceptorOptions) :
    Machine.Step (Requests Session) (Action Session) (Event Session) :=
  Pool.step (createAuthInterceptor json options) clock

/-- The callback has extracted the credentials of the request. -/
def extractedBy (i : ℕ) (header : Headers) (credentials : JsString) (s : AuthState) :
    Event Session :=
  .answered i ⟨.extract header, Except.ok (some credentials), s⟩

/-- The verification of a request has succeeded. -/
def verifiedBy (i : ℕ) (credentials : JsString) (context : AuthContext) (s : AuthState) :
    Event Session :=
  .answered i ⟨.verifyCredentials credentials, Except.ok context, s⟩

/-- The handler of a request runs under a context. -/
def ranUnder (i : ℕ) (header : Headers) (context : AuthContext) (s : AuthState) : Event Session :=
  .finished i (.ok ⟨header, some context⟩) s

/-- The credentials that the request presents. -/
def Presented (options : AuthInterceptorOptions) (log : List (Event Session)) (i : ℕ)
    (credentials : JsString) : Prop :=
  ∃ req, .called i req ∈ log ∧
    match options.extractCredentials with
    | .default => defaultExtract (stripAuthHeaders req.header) = some credentials
    | .callback => ∃ s, extractedBy i (stripAuthHeaders req.header) credentials s ∈ log

/-- The context was verified for the credentials by the request itself, or less than the time to
live before the check that serves it, and has not expired then. -/
def Sound (ttl : ℚ) (log : List (Event Session)) (i : ℕ) (credentials : JsString)
    (context : AuthContext) (check : AuthState) : Prop :=
  (∃ s, verifiedBy i credentials context s ∈ log) ∨
    ∃ j s, verifiedBy j credentials context s ∈ log ∧ s.now ≤ check.now ∧
      check.now < s.now + ttl ∧ context.fresh check.now = true

variable {json : Json} {options : AuthInterceptorOptions} {log more : List (Event Session)}
  {header : Headers} {s t : AuthState} {credentials : JsString} {context : AuthContext} {i : ℕ}
  {ttl : ℚ}

theorem Presented.mono (h : Presented options log i credentials) :
    Presented options (log ++ more) i credentials := by
  obtain ⟨req, hcalled, hextract⟩ := h
  refine ⟨req, List.mem_append_left _ hcalled, ?_⟩
  cases hoption : options.extractCredentials with
  | default =>
    rw [hoption] at hextract
    exact hextract
  | callback =>
    rw [hoption] at hextract
    obtain ⟨s, hs⟩ := hextract
    exact ⟨s, List.mem_append_left _ hs⟩

/-- Where a request waits, or that it has ended. -/
inductive Stage (json : Json) (options : AuthInterceptorOptions) (i : ℕ)
    (log : List (Event Session)) : AuthProgram Session (Except Failure Forwarded) → Prop where
  | extracting {req : Request} (hcalled : .called i req ∈ log)
      (hextract : options.extractCredentials = .callback) :
      Stage json options i log (.await (.extract (stripAuthHeaders req.header))
        (extracted json options (stripAuthHeaders req.header)))
  | verifying {header : Headers} {credentials : JsString}
      (h : Presented options log i credentials) :
      Stage json options i log (.await (.verifyCredentials credentials)
        (verified json options header credentials))
  | done (outcome : Except Failure Forwarded) : Stage json options i log (.done outcome)

theorem Stage.mono {task : AuthProgram Session (Except Failure Forwarded)}
    (h : Stage json options i log task) : Stage json options i (log ++ more) task := by
  cases h with
  | extracting hcalled hextract => exact .extracting (List.mem_append_left _ hcalled) hextract
  | verifying h => exact .verifying h.mono
  | done outcome => exact .done outcome

/-- The entry was verified for its key, and expires a time to live after that. -/
def Backed (ttl : ℚ) (log : List (Event Session)) (e : JsString × CacheEntry AuthContext) : Prop :=
  ∃ j s, verifiedBy j e.1 e.2.value s ∈ log ∧ e.2.expiresAt = s.now + ttl

/-- Where an event of a run under a context comes from. -/
def Explained (options : AuthInterceptorOptions) (ttl : ℚ) (log : List (Event Session)) :
    Event Session → Prop
  | .finished i (.ok ⟨_, some context⟩) s =>
    ∃ credentials, Presented options log i credentials ∧ Sound ttl log i credentials context s
  | _ => True

structure CacheInv (options : AuthInterceptorOptions) (ttl : ℚ) (s : AuthState)
    (log : List (Event Session)) : Prop where
  ttl_eq : ∀ cache, s.cache = some cache → cache.ttl = ttl
  backed : ∀ cache, s.cache = some cache → ∀ e ∈ cache.entries, Backed ttl log e
  past : ∀ j event, .answered j event ∈ log → event.state.now ≤ s.now
  explained : Machine.Justified (Explained options ttl) log

theorem Backed.mono {e : JsString × CacheEntry AuthContext} (h : Backed ttl log e) :
    Backed ttl (log ++ more) e := by
  obtain ⟨j, s, hmem, hexpires⟩ := h
  exact ⟨j, s, List.mem_append_left _ hmem, hexpires⟩

theorem CacheInv.emit (h : CacheInv options ttl s log) (event : Event Session)
    (hpast : ∀ j answered, event = .answered j answered → answered.state.now ≤ s.now)
    (hexplained : Explained options ttl log event) : CacheInv options ttl s (log ++ [event]) where
  ttl_eq := h.ttl_eq
  backed cache hcache e he := (h.backed cache hcache e he).mono
  past j answered hmem := by
    rcases List.mem_append.mp hmem with hmem | hmem
    · exact h.past j answered hmem
    · exact hpast j answered (List.mem_singleton.mp hmem).symm
  explained := Machine.justified_concat.mpr ⟨h.explained, hexplained⟩

theorem CacheInv.touch (h : CacheInv options ttl s log) :
    CacheInv options ttl (s.touch credentials) log where
  ttl_eq cache hcache := by
    obtain ⟨cache, hold, rfl⟩ := Option.map_eq_some_iff.mp hcache
    rw [LruCache.get_ttl, h.ttl_eq cache hold]
  backed cache hcache e he := by
    obtain ⟨cache, hold, rfl⟩ := Option.map_eq_some_iff.mp hcache
    exact h.backed cache hold e (LruCache.mem_of_mem_get he)
  past := h.past
  explained := h.explained

/-- What is stored was verified in this turn. -/
theorem CacheInv.store {j : ℕ} (h : CacheInv options ttl s log)
    (hverified : verifiedBy j credentials context s ∈ log) :
    CacheInv options ttl (s.store credentials context) log where
  ttl_eq cache hcache := by
    obtain ⟨cache, hold, rfl⟩ := Option.map_eq_some_iff.mp hcache
    rw [LruCache.set_ttl, h.ttl_eq cache hold]
  backed cache hcache e he := by
    obtain ⟨cache, hold, rfl⟩ := Option.map_eq_some_iff.mp hcache
    rcases LruCache.mem_of_mem_set he with he | rfl
    · exact h.backed cache hold e he
    · exact ⟨j, s, hverified, by rw [h.ttl_eq cache hold]⟩
  past := h.past
  explained := h.explained

theorem CacheInv.sound_of_cached (h : CacheInv options ttl s log)
    (hcached : s.cached credentials = some context) : Sound ttl log i credentials context s := by
  obtain ⟨cache, entry, hcache, hmem, rfl, hlive, hfresh⟩ := exists_entry_of_cached hcached
  obtain ⟨j, sv, hverified, hexpires⟩ := h.backed cache hcache _ hmem
  refine .inr ⟨j, sv, hverified, h.past j _ hverified, ?_, hfresh⟩
  rw [← hexpires]
  exact hlive

theorem explained_forward (hpresented : Presented options log i credentials)
    (hsound : Sound ttl log i credentials context s) :
    Explained options ttl log (.finished i (forward json options header context) s) := by
  cases hforward : forward json options header context with
  | error e => trivial
  | ok fwd =>
    obtain ⟨header', stored⟩ := fwd
    obtain rfl : stored = some context := stored_of_runNext hforward
    exact ⟨credentials, hpresented, hsound⟩

theorem CacheInv.finish {outcome : Except Failure Forwarded} (h : CacheInv options ttl s log)
    (hexplained : Explained options ttl log (.finished i outcome s)) :
    CacheInv options ttl s (log ++ Pool.finished i (.done outcome) s) ∧
      Stage json options i (log ++ Pool.finished i (.done outcome) s) (.done outcome) :=
  ⟨h.emit _ (by simp) hexplained, .done outcome⟩

theorem CacheInv.wait {q : AuthCall Session}
    {resume : AuthCall.Answer q → AuthProgram Session (Except Failure Forwarded)}
    (h : CacheInv options ttl s log) (hstage : Stage json options i log (.await q resume)) :
    CacheInv options ttl s (log ++ Pool.finished i (.await q resume) s) ∧
      Stage json options i (log ++ Pool.finished i (.await q resume) s) (.await q resume) := by
  simp only [Pool.finished, List.append_nil]
  exact ⟨h, hstage⟩

variable {task : AuthProgram Session (Except Failure Forwarded)}

/-- The turn that checks the cache. -/
theorem CacheInv.settle_extracted (h : CacheInv options ttl s log)
    {answer : Except Failure (Option JsString)}
    (hpresented : ∀ credentials, answer = .ok (some credentials) →
      Presented options log i credentials)
    (hsettle : (extracted json options header answer).settle s = (task, t)) :
    CacheInv options ttl t (log ++ Pool.finished i task t) ∧
      Stage json options i (log ++ Pool.finished i task t) task := by
  cases answer with
  | error e =>
    obtain ⟨rfl, rfl⟩ := Prod.mk.inj hsettle
    exact h.finish trivial
  | ok presented =>
    simp only [extracted] at hsettle
    split at hsettle
    next =>
      obtain ⟨rfl, rfl⟩ := Prod.mk.inj hsettle
      exact h.finish trivial
    next credentials htruthy =>
      have hcredentials := hpresented credentials (congrArg _ (truthy_eq_some.mp htruthy).1)
      simp only [settle] at hsettle
      split at hsettle
      next context hcached =>
        obtain ⟨rfl, rfl⟩ := Prod.mk.inj hsettle
        exact h.touch.finish (explained_forward hcredentials (h.sound_of_cached hcached))
      next =>
        obtain ⟨rfl, rfl⟩ := Prod.mk.inj hsettle
        exact h.touch.wait (.verifying hcredentials)

/-- The turn that stores a verified context. -/
theorem CacheInv.settle_verified (h : CacheInv options ttl s log)
    (hpresented : Presented options log i credentials) {answer : Except Failure AuthContext}
    (hverified : ∀ context, answer = .ok context → verifiedBy i credentials context s ∈ log)
    (hsettle : (verified json options header credentials answer).settle s = (task, t)) :
    CacheInv options ttl t (log ++ Pool.finished i task t) ∧
      Stage json options i (log ++ Pool.finished i task t) task := by
  cases answer with
  | error e =>
    obtain ⟨rfl, rfl⟩ := Prod.mk.inj hsettle
    exact h.finish trivial
  | ok context =>
    obtain ⟨rfl, rfl⟩ := Prod.mk.inj hsettle
    have hmem := hverified context rfl
    exact (h.store hmem).finish (explained_forward hpresented (.inl ⟨s, hmem⟩))

/-- The turn that receives a request. -/
theorem CacheInv.settle_request {req : Request} (h : CacheInv options ttl s log)
    (hcalled : .called i req ∈ log)
    (hsettle : (createAuthInterceptor json options req).settle s = (task, t)) :
    CacheInv options ttl t (log ++ Pool.finished i task t) ∧
      Stage json options i (log ++ Pool.finished i task t) task := by
  unfold createAuthInterceptor at hsettle
  split at hsettle
  next =>
    obtain ⟨rfl, rfl⟩ := Prod.mk.inj hsettle
    exact h.finish trivial
  next =>
    cases hoption : options.extractCredentials with
    | default =>
      rw [hoption] at hsettle
      have hturn : (extracted json options (stripAuthHeaders req.header)
          (.ok (defaultExtract (stripAuthHeaders req.header)))).settle s = (task, t) := hsettle
      refine h.settle_extracted (fun credentials heq => ⟨req, hcalled, ?_⟩) hturn
      rw [hoption]
      exact Except.ok.inj heq
    | callback =>
      rw [hoption] at hsettle
      obtain ⟨rfl, rfl⟩ := Prod.mk.inj hsettle
      exact h.wait (.extracting hcalled hoption)

/-- Every turn of a request and every tick of the clock keeps the cache sound. -/
theorem cacheInv_kept (json : Json) (options : AuthInterceptorOptions) (ttl : ℚ) :
    Pool.Kept (createAuthInterceptor json options : Request → AuthProgram Session _) clock
      (CacheInv options ttl) (Stage json options) where
  mono _ _ _ _ h := h.mono
  call i req s log task t h hsettle := by
    have hcall := (h.emit (.called i req) (by simp) trivial).settle_request
      List.mem_concat_self hsettle
    simpa using hcall
  resume i q resume answer s log task t h hstage hsettle := by
    have hnow := h.emit (.answered i ⟨q, answer, s⟩)
      (fun j answered heq => by cases heq; exact le_refl _) trivial
    rw [List.append_cons]
    cases hstage with
    | extracting hcalled hextract =>
      refine hnow.settle_extracted (fun credentials heq => ?_) hsettle
      refine ⟨_, List.mem_append_left _ hcalled, ?_⟩
      rw [hextract]
      exact ⟨s, by rw [heq]; exact List.mem_concat_self⟩
    | verifying hpresented =>
      refine hnow.settle_verified hpresented.mono (fun context heq => ?_) hsettle
      rw [heq]
      exact List.mem_concat_self
  change now s log t h hclock := by
    unfold clock at hclock
    split at hclock
    next hle =>
      obtain rfl := Option.some.inj hclock
      exact ⟨h.ttl_eq, h.backed, fun j event hmem => (h.past j event hmem).trans hle, h.explained⟩
    next => simp at hclock

theorem cacheInv_started {now : ℚ} {cacheOptions : CacheOptions} {start : AuthState}
    (hstart : AuthState.started now (some cacheOptions) = some start) :
    CacheInv options cacheOptions.ttl start ([] : List (Event Session)) := by
  obtain ⟨cache, hcache, httl, hentries⟩ := started_empty hstart
  constructor
  case ttl_eq =>
    intro cache' hcache'
    obtain rfl := Option.some.inj (hcache.symm.trans hcache')
    exact httl
  case backed =>
    intro cache' hcache' e he
    obtain rfl := Option.some.inj (hcache.symm.trans hcache')
    rw [hentries] at he
    exact absurd he List.not_mem_nil
  case past => simp
  case explained => simp

/-- In every execution, a handler runs under a context only if it was verified for the credentials
of the request, by itself or recently, and every cache entry comes from a verification. -/
theorem cache_sound {now : ℚ} {cacheOptions : CacheOptions} {start : AuthState}
    {actions : List (Action Session)} {requests : Requests Session}
    (hcache : options.cache = some cacheOptions)
    (hstart : AuthState.started now options.cache = some start)
    (hrun : Machine.run (step json options) ⟨start, []⟩ actions = some (requests, log)) :
    (∀ before after i header context check,
      log = before ++ ranUnder i header context check :: after →
      ∃ credentials, Presented options before i credentials ∧
        Sound cacheOptions.ttl before i credentials context check) ∧
    ∀ cache, requests.shared.cache = some cache → ∀ e ∈ cache.entries,
      ∃ j s, verifiedBy j e.1 e.2.value s ∈ log := by
  rw [hcache] at hstart
  have hinv := ((cacheInv_kept json options cacheOptions.ttl).run (cacheInv_started hstart) hrun).1
  constructor
  · intro before after i header context check hlog
    exact hinv.explained before _ after hlog
  · intro cache hcache e he
    obtain ⟨j, s, hverified, -⟩ := hinv.backed cache hcache e he
    exact ⟨j, s, hverified⟩

/-- A verifier that knows one user. -/
def verifyAlice : (q : AuthCall Unit) → q.Answer
  | .verifyCredentials _ => .ok alice
  | .extract _ => .ok none
  | .verifySession _ _ => .ok ()
  | .mapSession _ => .ok alice
  | .trustSource header => (header, .ok none)
  | .authorize _ _ _ => .ok false

def cachingOptions : AuthInterceptorOptions := { cache := some { ttl := 60000 } }

/-- Two requests with one token, a second apart. -/
def aliceTwice : List (Action Unit) :=
  [.call (bearerRequest none), .resume 0 verifyAlice, .change 1000, .call (bearerRequest none)]

theorem cache_sound_served :
    ∃ requests before after header check,
      Machine.run (step rawJson cachingOptions) ⟨emptyCache, []⟩ aliceTwice =
        some (requests, before ++ ranUnder 1 header alice check :: after) ∧
      ∃ credentials, Presented cachingOptions before 1 credentials ∧
        Sound 60000 before 1 credentials alice check := by
  have hrun : ∃ requests header check e₁ e₂ e₃ e₄,
      Machine.run (step rawJson cachingOptions) ⟨emptyCache, []⟩ aliceTwice =
        some (requests, [e₁, e₂, e₃, e₄] ++ ranUnder 1 header alice check :: []) := by
    with_unfolding_all exact ⟨_, _, _, _, _, _, _, rfl⟩
  obtain ⟨requests, header, check, e₁, e₂, e₃, e₄, hrun⟩ := hrun
  exact ⟨requests, _, _, header, check, hrun,
    (cache_sound rfl started_emptyCache hrun).1 _ _ _ _ _ _ rfl⟩

end AuthInterceptor
end Connectum.Auth
