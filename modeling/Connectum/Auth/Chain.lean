import Connectum.Auth.InternalAuthInterceptor
import Connectum.Auth.Proto.AuthzInterceptor
import Connectum.Auth.SessionAuthInterceptor

/-! Chains of interceptors, and who gets through the chain of the documentation. -/
namespace Connectum.Auth
open JsString Async

/-- An interceptor for one request, under the context that `getAuthContext` returns. -/
abbrev Interception (Session : Type) :=
  Request → Option AuthContext → AuthProgram Session (Except Failure Forwarded)

/-- The call of the handler: its headers, and what `getAuthContext` returns there. -/
structure Handled where
  header : Headers
  context : Option AuthContext

def runChain {Session : Type} (interceptors : List (Interception Session)) (req : Request)
    (context : Option AuthContext) : AuthProgram Session (Except Failure Handled) :=
  match interceptors with
  | [] => .done (.ok ⟨req.header, context⟩)
  | interceptor :: interceptors =>
    interceptor req context >>= fun
      | .error error => .done (.error error)
      | .ok fwd => runChain interceptors { req with header := fwd.header } (fwd.stored.or context)

structure JwtAuthInterceptorOptions where
  skipMethods : List JsString := []
  propagateHeaders : Bool := false

/-- The verification of a token by its key and the mapping of its claims are the callback. -/
def createJwtAuthInterceptor {Session : Type} (json : Json) (options : JwtAuthInterceptorOptions) :
    Request → AuthProgram Session (Except Failure Forwarded) :=
  createAuthInterceptor json
    { skipMethods := options.skipMethods, propagateHeaders := options.propagateHeaders }

/-- `jwtAuth`, `internalAuth` and `protoAuthz` over one list of services. -/
def authChain {Session : Type} (json : Json) (propagateHeaders : Bool)
    (authzOptions : ProtoAuthzInterceptorOptions) (services : List DescService) (rpc : Rpc) :
    List (Interception Session) :=
  [fun req _ => createJwtAuthInterceptor json
      ⟨getPublicMethods services ++ getInternalMethods services, propagateHeaders⟩ req,
    fun req _ => createInternalAuthInterceptor (getInternalMethods services) req,
    fun req context => createProtoAuthzInterceptor authzOptions rpc req.header context]

def Rpc.request (rpc : Rpc) (header : Headers) : Request :=
  ⟨rpc.service.typeName, rpc.method.name, header⟩

section
variable {Session : Type} {json : Json} {propagateHeaders : Bool}
  {authzOptions : ProtoAuthzInterceptorOptions} {services : List DescService} {rpc : Rpc}
  {req : Request} {header : Headers} {context ambient : Option AuthContext} {s t : AuthState}
  {handled : Handled} {interceptor : Interception Session}
  {interceptors : List (Interception Session)}
  {trace : List (Answered (AuthCall Session) AuthCall.Answer AuthState)}

theorem exec_runChain_cons
    (h : Exec (runChain (interceptor :: interceptors) req ambient) s trace t (.ok handled)) :
    ∃ first u fwd rest, Exec (interceptor req ambient) s first u (.ok fwd) ∧
      Exec (runChain interceptors { req with header := fwd.header } (fwd.stored.or ambient)) u rest
        t (.ok handled) ∧ trace = first ++ rest := by
  obtain ⟨first, u, outcome, rest, hfirst, hrest, rfl⟩ := exec_bind h
  cases outcome with
  | error e => exact nomatch (exec_done_iff.mp hrest).1
  | ok fwd => exact ⟨first, u, fwd, rest, hfirst, hrest, rfl⟩

theorem exec_runChain_nil
    (h : Exec (runChain [] req ambient : AuthProgram Session _) s trace t (.ok handled)) :
    handled = ⟨req.header, ambient⟩ ∧ trace = [] :=
  ⟨Except.ok.inj (exec_done_iff.mp h).1, (exec_done_iff.mp h).2.1⟩

theorem matchesMethodPattern_append (typeName methodName : JsString) (l l' : List JsString) :
    matchesMethodPattern typeName methodName (l ++ l') =
      (matchesMethodPattern typeName methodName l ||
        matchesMethodPattern typeName methodName l') := by
  rw [matchesMethodPattern, List.any_append]
  rfl

/-- The verifier has returned the context. -/
def Verified (context : AuthContext)
    (trace : List (Answered (AuthCall Session) AuthCall.Answer AuthState)) : Prop :=
  ∃ credentials u, ⟨.verifyCredentials credentials, Except.ok context, u⟩ ∈ trace

/-- In the end of the run the authorization decides on the context and allows the call. -/
def Allowed (authzOptions : ProtoAuthzInterceptorOptions) (rpc : Rpc) (context : AuthContext)
    (trace : List (Answered (AuthCall Session) AuthCall.Answer AuthState)) : Prop :=
  ∃ header s t decision, decision <:+ trace ∧
    Exec (createProtoAuthzInterceptor authzOptions rpc header (some context)) s decision t
      (.ok ⟨header, none⟩)

/-- The caller of an internal method meets its requirements too, unless it is public. -/
def MeetsRequirements (rpc : Rpc) (context : AuthContext) : Prop :=
  (resolveMethodAuth rpc).isPublic = false → ∀ required,
    (resolveMethodAuth rpc).requires = some required →
      satisfiesRequirements context required.toRequirements = true

/-- How a request gets to the handler of a method. -/
inductive Admitted (authzOptions : ProtoAuthzInterceptorOptions) (rpc : Rpc)
    (trace : List (Answered (AuthCall Session) AuthCall.Answer AuthState))
    (observed : Option AuthContext) : Prop where
  | internal (context : AuthContext) (h : (resolveMethodAuth rpc).isInternal = true)
      (htrusted : Trusted context trace) (hmeets : MeetsRequirements rpc context)
      (hobserved : observed = some context)
  | anyone (h : (resolveMethodAuth rpc).isInternal = false)
      (hpublic : (resolveMethodAuth rpc).isPublic = true) (hobserved : observed = none)
  | verified (context : AuthContext) (h : (resolveMethodAuth rpc).isInternal = false)
      (hpublic : (resolveMethodAuth rpc).isPublic = false) (hverified : Verified context trace)
      (hallowed : Allowed authzOptions rpc context trace) (hobserved : observed = some context)

/-- Outside an authenticated call, the handler of a method is reached by a trusted service, by
anyone or by a verified and authorized user, as the options of the method say. -/
theorem admitted_of_handled (hnodup : (services.map DescService.typeName).Nodup)
    (hmem : rpc.service ∈ services) {now : ℚ}
    (h : Exec (runChain (authChain json propagateHeaders authzOptions services rpc)
      (rpc.request header) none) ⟨now, none⟩ trace t (.ok handled)) :
    Admitted authzOptions rpc trace handled.context := by
  obtain ⟨jwtTrace, u, jwtFwd, _, hjwt, hafterJwt, rfl⟩ := exec_runChain_cons h
  obtain ⟨internalTrace, v, internalFwd, _, hinternal, hafterInternal, rfl⟩ :=
    exec_runChain_cons hafterJwt
  obtain ⟨decision, w, fwd, _, hauthz, hafterAuthz, rfl⟩ := exec_runChain_cons hafterInternal
  obtain ⟨rfl, rfl⟩ := exec_runChain_nil hafterAuthz
  obtain ⟨rfl, hgranted⟩ := ProtoAuthz.exec_createProtoAuthzInterceptor hauthz
  have hskip : (rpc.request header).skipped
      (getPublicMethods services ++ getInternalMethods services) =
      ((resolveMethodAuth rpc).isPublic || (resolveMethodAuth rpc).isInternal) := by
    rw [Request.skipped, matchesMethodPattern_append]
    exact congrArg₂ _ (matches_selectMethods hnodup hmem) (matches_selectMethods hnodup hmem)
  have hmatches : matchesMethodPattern rpc.service.typeName rpc.method.name
      (getInternalMethods services) = (resolveMethodAuth rpc).isInternal :=
    matches_selectMethods hnodup hmem
  rcases exec_createInternalAuthInterceptor hinternal with
    ⟨hpass, rfl⟩ | ⟨hcheck, user, htrusted, hstored⟩
  · have hnotInternal := hmatches.symm.trans hpass
    rw [hnotInternal, Bool.or_false] at hskip
    rcases exec_createAuthInterceptor hjwt with ⟨hskipped, hnone⟩ | ⟨hasked, hverified⟩
    · rw [hnone]
      exact .anyone hnotInternal (hskip.symm.trans hskipped) rfl
    · obtain ⟨credentials, user, start, hstart, hstored, hauth⟩ := hverified
      obtain rfl := hstart rfl
      rw [hstored] at hauthz ⊢
      refine .verified user hnotInternal (hskip.symm.trans hasked) ?_ ?_ rfl
      · rcases hauth with hcached | ⟨x, hanswered⟩
        · cases hcached
        · exact ⟨credentials, x, List.mem_append_left _ hanswered⟩
      · refine ⟨_, v, w, decision, ?_, hauthz⟩
        rw [List.append_nil]
        exact (List.suffix_append _ _).trans (List.suffix_append _ _)
  · have hinternal := hmatches.symm.trans hcheck
    rw [hstored] at hgranted ⊢
    refine .internal user hinternal (htrusted.mono _ _) ?_ rfl
    intro hpublic required hrequired
    rcases hgranted with hopen | hgranted
    · rw [hpublic] at hopen
      cases hopen
    · obtain ⟨user', huser, hsatisfies⟩ := hgranted.requires required hrequired
      rw [Option.some.inj huser]
      exact hsatisfies

end

def internalTrip : Rpc := recordTrip {} { isInternal := some true }

/-- The trust source knows the caller. -/
def trustedTrip : List (Answered (AuthCall Unit) AuthCall.Answer AuthState) :=
  [⟨.trustSource (stripAuthHeaders fun _ => none), (fun _ => none, Except.ok (some alice)),
    ⟨0, none⟩⟩]

theorem admitted_of_handled_internalTrip : Admitted {} internalTrip trustedTrip (some alice) := by
  have hnodup : ([internalTrip.service].map DescService.typeName).Nodup := List.nodup_singleton _
  have hrun : Exec (runChain (authChain rawJson false {} [internalTrip.service] internalTrip)
      (internalTrip.request fun _ => none) none) ⟨0, none⟩ trustedTrip ⟨0, none⟩
      (.ok ⟨fun _ => none, some alice⟩) := .await _ _ .done
  exact admitted_of_handled hnodup (List.mem_singleton_self _) hrun

end Connectum.Auth
