import Connectum.Auth.Chain

/-! In-process calls between the handlers of a server: the identity that a handler observes. -/
namespace Connectum.Auth
open JsString Async

/-- The interceptor that authenticates the users of a server. -/
inductive Authenticator where
  | credentials (options : AuthInterceptorOptions)
  | session (options : SessionAuthInterceptorOptions)

def Authenticator.skipMethods : Authenticator → List JsString
  | .credentials options => options.skipMethods
  | .session options => options.skipMethods

def Authenticator.interception {Session : Type} (json : Json) : Authenticator → Interception Session
  | .credentials options => fun req _ => createAuthInterceptor json options req
  | .session options => fun req _ => createSessionAuthInterceptor json options req

/-- No `authContextStorage.run` of this interceptor. -/
def Interception.Storeless {Session : Type} (interceptor : Interception Session) : Prop :=
  ∀ req context s trace t fwd, Exec (interceptor req context) s trace t (.ok fwd) →
    fwd.stored = none

/-- The interceptors of a server; those after the first two set no identity. -/
structure Server (Session : Type) where
  json : Json
  authenticator : Authenticator
  internalMethods : List JsString
  others : List (Interception Session)
  storeless : ∀ interceptor ∈ others, interceptor.Storeless

namespace Server
variable {Session : Type} (server : Server Session)

def interceptors : List (Interception Session) :=
  server.authenticator.interception server.json ::
    (fun req _ => createInternalAuthInterceptor server.internalMethods req) :: server.others

/-- Calls in progress, the innermost first, and what its handler observes. A nested call runs in
the async context of the handler that makes it. -/
inductive Reached : List Request → Option AuthContext → Prop where
  | outer {req : Request} {s t : AuthState} {handled : Handled}
      {trace : List (Answered (AuthCall Session) AuthCall.Answer AuthState)}
      (h : Exec (runChain server.interceptors req none) s trace t (.ok handled)) :
      Reached [req] handled.context
  | nested {path : List Request} {caller : Option AuthContext} {req : Request} {s t : AuthState}
      {handled : Handled} {trace : List (Answered (AuthCall Session) AuthCall.Answer AuthState)}
      (hpath : Reached path caller)
      (h : Exec (runChain server.interceptors req caller) s trace t (.ok handled)) :
      Reached (req :: path) handled.context

/-- The method is checked by the interceptor for internal methods. -/
def Internal (req : Request) : Prop :=
  matchesMethodPattern req.typeName req.methodName server.internalMethods = true

/-- Neither interceptor asks for an identity. -/
def Open (req : Request) : Prop :=
  req.skipped server.authenticator.skipMethods = true ∧ ¬ server.Internal req

variable {server} {req : Request} {path : List Request} {context observed : Option AuthContext}
  {s t : AuthState} {handled : Handled}
  {trace : List (Answered (AuthCall Session) AuthCall.Answer AuthState)}

theorem context_of_storeless {interceptors : List (Interception Session)}
    (hstoreless : ∀ interceptor ∈ interceptors, interceptor.Storeless)
    (h : Exec (runChain interceptors req context) s trace t (.ok handled)) :
    handled.context = context := by
  induction interceptors generalizing req context s trace with
  | nil => rw [(exec_runChain_nil h).1]
  | cons interceptor interceptors ih =>
    obtain ⟨first, u, fwd, rest, hfirst, hrest, rfl⟩ := exec_runChain_cons h
    have hstored := hstoreless interceptor List.mem_cons_self _ _ _ _ _ _ hfirst
    rw [hstored, Option.none_or] at hrest
    exact ih (fun i hi => hstoreless i (List.mem_cons_of_mem _ hi)) hrest

theorem exec_interception {fwd : Forwarded}
    (h : Exec (server.authenticator.interception server.json req context) s trace t (.ok fwd)) :
    (req.skipped server.authenticator.skipMethods = true ∧ fwd.stored = none) ∨
      req.skipped server.authenticator.skipMethods = false ∧ fwd.stored.isSome = true := by
  cases hauth : server.authenticator with
  | credentials options =>
    rw [hauth] at h
    rcases exec_createAuthInterceptor h with hskipped | ⟨hasked, _, user, _, _, hstored, _⟩
    · exact .inl hskipped
    · exact .inr ⟨hasked, by rw [hstored]; rfl⟩
  | session options =>
    rw [hauth] at h
    rcases exec_createSessionAuthInterceptor h with hskipped | ⟨hasked, user, hstored⟩
    · exact .inl hskipped
    · exact .inr ⟨hasked, by rw [hstored]; rfl⟩

/-- The handler of an open method observes what its caller does, any other one an identity. -/
theorem context_of_handled
    (h : Exec (runChain server.interceptors req context) s trace t (.ok handled)) :
    (server.Open req ∧ handled.context = context) ∨
      ¬ server.Open req ∧ handled.context.isSome = true := by
  obtain ⟨first, u, fwd, _, hauth, hrest, rfl⟩ := exec_runChain_cons h
  obtain ⟨second, v, fwd', _, hinternal, hothers, rfl⟩ := exec_runChain_cons hrest
  rw [context_of_storeless server.storeless hothers]
  rcases exec_createInternalAuthInterceptor hinternal with ⟨hpass, rfl⟩ | ⟨hcheck, user, -, hstored⟩
  · have hnotInternal : ¬ server.Internal req := by
      rw [Internal, hpass]
      exact Bool.false_ne_true
    rcases exec_interception hauth with ⟨hskipped, hnone⟩ | ⟨hasked, hsome⟩
    · exact .inl ⟨⟨hskipped, hnotInternal⟩, by rw [hnone]; rfl⟩
    · refine .inr ⟨fun hopen => ?_, ?_⟩
      · exact absurd (hasked.symm.trans hopen.1) Bool.false_ne_true
      · obtain ⟨user, hstored⟩ := Option.isSome_iff_exists.mp hsome
        rw [hstored]
        rfl
  · refine .inr ⟨fun hopen => hopen.2 hcheck, ?_⟩
    rw [hstored]
    rfl

/-- No identity is observed exactly if all the calls in progress are to open methods. -/
theorem observed_eq_none_iff (h : server.Reached path observed) :
    observed = none ↔ ∀ req ∈ path, server.Open req := by
  induction h with
  | outer h =>
    rcases context_of_handled h with ⟨hopen, hcontext⟩ | ⟨hclosed, hcontext⟩
    · simp [hopen, hcontext]
    · simp [hclosed, ← Option.not_isSome_iff_eq_none, hcontext]
  | nested hpath h ih =>
    rcases context_of_handled h with ⟨hopen, hcontext⟩ | ⟨hclosed, hcontext⟩
    · simp [hopen, hcontext, ih]
    · simp [hclosed, ← Option.not_isSome_iff_eq_none, hcontext]

/-- A handler behind `skipMethods` observes no identity exactly if its method is no internal one
and all the handlers that it is called by are behind `skipMethods` in the same way. -/
theorem skipped_observes_none_iff (h : server.Reached (req :: path) observed)
    (hskip : req.skipped server.authenticator.skipMethods = true) :
    observed = none ↔ ¬ server.Internal req ∧ ∀ caller ∈ path, server.Open caller := by
  rw [observed_eq_none_iff h, List.forall_mem_cons, Open]
  simp [hskip]

/-- A server that authenticates all calls but those to its health service. -/
def userServer : Server Unit where
  json := rawJson
  authenticator := .credentials { skipMethods := [js "grpc.health.v1.Health/*"] }
  internalMethods := []
  others := []
  storeless := by simp

def healthCheck : Request := ⟨js "grpc.health.v1.Health", js "Check", fun _ => none⟩

theorem skipped_observes_none_iff_healthCheck :
    userServer.Reached [healthCheck] none ∧ ((none : Option AuthContext) = none ↔
      ¬ userServer.Internal healthCheck ∧ ∀ caller ∈ [], userServer.Open caller) := by
  have hrun : Exec (runChain userServer.interceptors healthCheck none) ⟨0, none⟩ [] ⟨0, none⟩
      (.ok ⟨stripAuthHeaders fun _ => none, none⟩) := .done
  exact ⟨.outer hrun, skipped_observes_none_iff (.outer hrun) rfl⟩

/-- The verifier knows the user of the token. -/
def verifiedAlice : List (Answered (AuthCall Unit) AuthCall.Answer AuthState) :=
  [⟨.verifyCredentials (js "t1"), Except.ok alice, ⟨0, none⟩⟩]

/-- A handler that runs for alice asks for the health of its own server. -/
theorem healthCheck_observes_caller :
    ¬ ∀ (server : Server Unit) (req : Request) (path : List Request)
      (observed : Option AuthContext), server.Reached (req :: path) observed →
      req.skipped server.authenticator.skipMethods = true → observed = none := by
  intro h
  have houter : Exec (runChain userServer.interceptors (bearerRequest none) none) ⟨0, none⟩
      verifiedAlice ⟨0, none⟩
      (.ok ⟨stripAuthHeaders (bearerRequest none).header, some alice⟩) :=
    .sync (.await _ _ (.sync .done))
  have hnested : Exec (runChain userServer.interceptors healthCheck (some alice)) ⟨0, none⟩ []
      ⟨0, none⟩ (.ok ⟨stripAuthHeaders fun _ => none, some alice⟩) := .done
  exact nomatch h userServer healthCheck _ _ (.nested (.outer houter) hnested) rfl

end Server
end Connectum.Auth
