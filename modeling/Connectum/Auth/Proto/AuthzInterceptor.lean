import Connectum.Auth.AuthInterceptor
import Connectum.Auth.Proto.Reader

/-! The authorization interceptor that reads the options of methods and services. -/
namespace Connectum.Auth
open JsString Async

structure Requirements where
  roles : Option (List JsString) := none
  scopes : Option (List JsString) := none

/-- One of the roles, and all of the scopes. -/
def satisfiesRequirements (context : AuthContext) (requires : Requirements) : Bool :=
  let roles := requires.roles.getD []
  let scopes := requires.scopes.getD []
  if roles ≠ [] ∧ ¬ roles.any fun role => context.roles.contains role then false
  else if scopes ≠ [] ∧ ¬ scopes.all fun scope => context.scopes.contains scope then false
  else true

def AuthRequirements.toRequirements (requires : AuthRequirements) : Requirements :=
  ⟨some requires.roles, some requires.scopes⟩

structure AuthzRule where
  name : JsString
  methods : List JsString
  effect : AuthzEffect
  requires : Option Requirements := none

structure RuleResult where
  effect : AuthzEffect
  ruleName : JsString
  requiredRoles : Option (List JsString) := none
  requiredScopes : Option (List JsString) := none

/-- The effect of the first rule that matches; a rule with requirements needs a context. -/
def evaluateRules (rules : List AuthzRule) (context : Option AuthContext)
    (serviceName methodName : JsString) : Option RuleResult :=
  match rules with
  | [] => none
  | rule :: rules =>
    if matchesMethodPattern serviceName methodName rule.methods then
      match rule.requires, context with
      | none, _ => some ⟨rule.effect, rule.name, none, none⟩
      | some _, none => evaluateRules rules context serviceName methodName
      | some requires, some user =>
        if satisfiesRequirements user requires then
          some ⟨rule.effect, rule.name, requires.roles, requires.scopes⟩
        else evaluateRules rules context serviceName methodName
    else evaluateRules rules context serviceName methodName

/-- `authorize` tells whether there is a callback. -/
structure ProtoAuthzInterceptorOptions where
  defaultPolicy : AuthzEffect := .deny
  rules : List AuthzRule := []
  authorize : Bool := false

def authenticationRequired : Failure :=
  .connectError .unauthenticated "Authentication required for authorization"

namespace ProtoAuthz
variable {Session : Type} (options : ProtoAuthzInterceptorOptions) (rpc : Rpc) (header : Headers)
  (context : Option AuthContext)

def denied (error : Failure) : AuthProgram Session (Except Failure Forwarded) :=
  .done (.error error)

/-- `next(req)` in the context that there is. -/
def passed : AuthProgram Session (Except Failure Forwarded) := .done (.ok ⟨header, none⟩)

def applyDefaultPolicy : AuthProgram Session (Except Failure Forwarded) :=
  match options.defaultPolicy, context with
  | .deny, none => denied authenticationRequired
  | .deny, some _ => denied (.connectError .permissionDenied "Access denied by default policy")
  | .allow, _ => passed header

def authorized : Except Failure Bool → AuthProgram Session (Except Failure Forwarded)
  | .error error => denied error
  | .ok true => passed header
  | .ok false => denied (.connectError .permissionDenied "Access denied")

def callAuthorize : AuthProgram Session (Except Failure Forwarded) :=
  if options.authorize then
    match context with
    | none => denied authenticationRequired
    | some context =>
      .await (.authorize context rpc.service.typeName rpc.method.name) (authorized header)
  else applyDefaultPolicy options header context

def applyRules : AuthProgram Session (Except Failure Forwarded) :=
  match evaluateRules options.rules context rpc.service.typeName rpc.method.name with
  | none => callAuthorize options rpc header context
  | some result =>
    match result.effect with
    | .deny => denied (.authzDenied ⟨result.ruleName, result.requiredRoles, result.requiredScopes⟩)
    | .allow => passed header

def checkPolicy : AuthProgram Session (Except Failure Forwarded) :=
  match (resolveMethodAuth rpc).policy with
  | some .allow => passed header
  | some .deny => denied (.authzDenied ⟨js "proto:policy", none, none⟩)
  | none => applyRules options rpc header context

/-- The list, if it is not empty. -/
def nonEmpty (items : List JsString) : Option (List JsString) :=
  if items = [] then none else some items

def checkRequires : AuthProgram Session (Except Failure Forwarded) :=
  match (resolveMethodAuth rpc).requires, context with
  | none, _ => checkPolicy options rpc header context
  | some _, none => denied authenticationRequired
  | some requires, some user =>
    if satisfiesRequirements user requires.toRequirements then passed header
    else denied (.authzDenied ⟨js "proto", nonEmpty requires.roles, nonEmpty requires.scopes⟩)

end ProtoAuthz

open ProtoAuthz in
/-- `context` is what `getAuthContext` returns. -/
def createProtoAuthzInterceptor {Session : Type} (options : ProtoAuthzInterceptorOptions)
    (rpc : Rpc) (header : Headers) (context : Option AuthContext) :
    AuthProgram Session (Except Failure Forwarded) :=
  let resolved := resolveMethodAuth rpc
  if resolved.isPublic then passed header
  else if resolved.isInternal then
    match context with
    | none => denied authenticationRequired
    | some _ =>
      if resolved.requires.isNone then passed header
      else checkRequires options rpc header context
  else checkRequires options rpc header context

namespace ProtoAuthz
variable {Session : Type} {options : ProtoAuthzInterceptorOptions} {rpc : Rpc} {header : Headers}
  {context : Option AuthContext} {s t : AuthState} {fwd : Forwarded}
  {trace : List (Answered (AuthCall Session) AuthCall.Answer AuthState)}

theorem not_exec_denied {error : Failure} :
    ¬ Exec (denied error : AuthProgram Session _) s trace t (.ok fwd) := by
  intro h
  exact nomatch (exec_done_iff.mp h).1

theorem exec_passed (h : Exec (passed header : AuthProgram Session _) s trace t (.ok fwd)) :
    fwd = ⟨header, none⟩ :=
  Except.ok.inj (exec_done_iff.mp h).1

theorem exec_authorized {answer : Except Failure Bool}
    (h : Exec (authorized header answer : AuthProgram Session _) s trace t (.ok fwd)) :
    fwd = ⟨header, none⟩ := by
  unfold authorized at h
  split at h
  next => exact absurd h not_exec_denied
  next => exact exec_passed h
  next => exact absurd h not_exec_denied

theorem exec_applyRules
    (h : Exec (applyRules options rpc header context : AuthProgram Session _) s trace t (.ok fwd)) :
    fwd = ⟨header, none⟩ := by
  unfold applyRules at h
  split at h
  next =>
    unfold callAuthorize at h
    split at h
    next =>
      split at h
      next => exact absurd h not_exec_denied
      next =>
        obtain ⟨answer, u, rest, -, h⟩ := exec_await_iff.mp h
        exact exec_authorized h
    next =>
      unfold applyDefaultPolicy at h
      split at h
      next => exact absurd h not_exec_denied
      next => exact absurd h not_exec_denied
      next => exact exec_passed h
  next =>
    split at h
    next => exact absurd h not_exec_denied
    next => exact exec_passed h

/-- What a call that is no public one has passed. -/
structure Granted (rpc : Rpc) (context : Option AuthContext) : Prop where
  internal : (resolveMethodAuth rpc).isInternal = true → context.isSome = true
  requires : ∀ requires, (resolveMethodAuth rpc).requires = some requires →
    ∃ user, context = some user ∧ satisfiesRequirements user requires.toRequirements = true
  policy : (resolveMethodAuth rpc).isInternal = false → (resolveMethodAuth rpc).requires = none →
    (resolveMethodAuth rpc).policy ≠ some .deny

theorem exec_checkPolicy
    (h : Exec (checkPolicy options rpc header context : AuthProgram Session _) s trace t
      (.ok fwd)) :
    fwd = ⟨header, none⟩ ∧ (resolveMethodAuth rpc).policy ≠ some .deny := by
  unfold checkPolicy at h
  split at h
  next hpolicy => exact ⟨exec_passed h, by simp [hpolicy]⟩
  next => exact absurd h not_exec_denied
  next hpolicy => exact ⟨exec_applyRules h, by simp [hpolicy]⟩

theorem exec_checkRequires (hinternal : (resolveMethodAuth rpc).isInternal = true →
      context.isSome = true)
    (h : Exec (checkRequires options rpc header context : AuthProgram Session _) s trace t
      (.ok fwd)) : fwd = ⟨header, none⟩ ∧ Granted rpc context := by
  unfold checkRequires at h
  split at h
  next hrequires =>
    obtain ⟨hfwd, hpolicy⟩ := exec_checkPolicy h
    exact ⟨hfwd, hinternal, by simp [hrequires], fun _ _ => hpolicy⟩
  next => exact absurd h not_exec_denied
  next requires user hrequires =>
    split at h
    next hsatisfies =>
      refine ⟨exec_passed h, hinternal, fun requires' heq => ?_, by simp [hrequires]⟩
      obtain rfl := Option.some.inj (hrequires.symm.trans heq)
      exact ⟨user, rfl, hsatisfies⟩
    next => exact absurd h not_exec_denied

/-- `next` is called with the request as it is, for a public method or a call that is granted. -/
theorem exec_createProtoAuthzInterceptor
    (h : Exec (createProtoAuthzInterceptor options rpc header context : AuthProgram Session _) s
      trace t (.ok fwd)) :
    fwd = ⟨header, none⟩ ∧ ((resolveMethodAuth rpc).isPublic = true ∨ Granted rpc context) := by
  simp only [createProtoAuthzInterceptor] at h
  split at h
  next hpublic => exact ⟨exec_passed h, .inl hpublic⟩
  next =>
    split at h
    next hinternal =>
      split at h
      next => exact absurd h not_exec_denied
      next user =>
        split at h
        next hrequires =>
          refine ⟨exec_passed h, .inr ⟨fun _ => rfl, fun requires heq => ?_, by simp [hinternal]⟩⟩
          simp [heq] at hrequires
        next =>
          obtain ⟨hfwd, hgranted⟩ := exec_checkRequires (fun _ => rfl) h
          exact ⟨hfwd, .inr hgranted⟩
    next hinternal =>
      obtain ⟨hfwd, hgranted⟩ := exec_checkRequires (fun h => absurd h hinternal) h
      exact ⟨hfwd, .inr hgranted⟩

end ProtoAuthz

/-- What a method can set to restrict its callers. -/
inductive Restriction where
  | internal
  | requires (required : AuthRequirements)
  | deny

/-- The callers that the restriction lets through. -/
def Restriction.Allows (context : Option AuthContext) : Restriction → Prop
  | .internal => context.isSome = true
  | .requires required =>
    ∃ user, context = some user ∧ satisfiesRequirements user required.toRequirements = true
  | .deny => False

/-- The one restriction that the method sets itself. -/
def MethodAuth.Sets (method : MethodAuth) : Restriction → Prop
  | .internal => method.isInternal = some true ∧ method.requires = none ∧ method.policy ≠ js "deny"
  | .requires required =>
    method.isInternal ≠ some true ∧ method.requires = some required ∧ method.policy ≠ js "deny"
  | .deny => method.isInternal ≠ some true ∧ method.requires = none ∧ method.policy = js "deny"

/-- Whatever the interceptor is configured with, only allowed callers get to the method, and a
method that is internal or has requirements is not listed as public. -/
def Restriction.Respected (Session : Type) (rpc : Rpc) (restriction : Restriction) : Prop :=
  (∀ options header context s t fwd
    (trace : List (Answered (AuthCall Session) AuthCall.Answer AuthState)),
    Exec (createProtoAuthzInterceptor options rpc header context) s trace t (.ok fwd) →
      restriction.Allows context) ∧
  (restriction ≠ .deny → ∀ services, (services.map DescService.typeName).Nodup →
    rpc.service ∈ services → rpc.pattern ∉ getPublicMethods services)

/-- No default of the service takes precedence over the restriction. -/
def Restriction.Unweakened (service : ServiceAuth) : Restriction → Prop
  | .internal | .requires _ => service.isPublic ≠ some true
  | .deny => service.defaultRequires = none

/-- A caller that has everything required. -/
def AuthRequirements.holder (required : AuthRequirements) : AuthContext where
  subject := js "caller"
  name := none
  roles := required.roles
  scopes := required.scopes
  claims := []
  type := js "service"

theorem AuthRequirements.satisfies_holder (required : AuthRequirements) :
    satisfiesRequirements required.holder required.toRequirements = true := by
  have hroles : required.roles ≠ [] →
      (required.roles.any fun role => required.roles.contains role) = true := by
    intro hne
    obtain ⟨role, hrole⟩ := List.exists_mem_of_ne_nil _ hne
    exact List.any_eq_true.mpr ⟨role, hrole, List.contains_iff_mem.mpr hrole⟩
  have hscopes : (required.scopes.all fun scope => required.scopes.contains scope) = true :=
    List.all_eq_true.mpr fun scope hscope => List.contains_iff_mem.mpr hscope
  unfold satisfiesRequirements
  rw [if_neg fun h => h.2 (hroles h.1), if_neg fun h => h.2 hscopes]

section
variable {Session : Type} {rpc : Rpc} {method : MethodAuth} {restriction : Restriction}

theorem exec_of_isPublic (hpublic : (resolveMethodAuth rpc).isPublic = true)
    (options : ProtoAuthzInterceptorOptions) (header : Headers) (context : Option AuthContext)
    (s : AuthState) :
    Exec (createProtoAuthzInterceptor options rpc header context : AuthProgram Session _) s [] s
      (.ok ⟨header, none⟩) := by
  simp only [createProtoAuthzInterceptor, hpublic, if_true]
  exact .done

theorem exec_of_requires {required : AuthRequirements} {user : AuthContext}
    (hrequires : (resolveMethodAuth rpc).requires = some required)
    (hsatisfies : satisfiesRequirements user required.toRequirements = true)
    (options : ProtoAuthzInterceptorOptions) (header : Headers) (s : AuthState) :
    Exec (createProtoAuthzInterceptor options rpc header (some user) : AuthProgram Session _) s [] s
      (.ok ⟨header, none⟩) := by
  simp only [createProtoAuthzInterceptor, ProtoAuthz.checkRequires, hrequires, hsatisfies,
    Option.isNone_some, Bool.false_eq_true, if_true, ite_self]
  exact .done

theorem resolveMethodAuth_of_auth (hauth : rpc.method.auth = some method) :
    resolveMethodAuth rpc = computeMethodAuth rpc.service.auth (some method) := by
  rw [resolveMethodAuth, hauth]

theorem unweakened_of_respected (hauth : rpc.method.auth = some method)
    (hpublic : method.isPublic = none) (hsets : method.Sets restriction)
    (hrespected : restriction.Respected Session rpc) :
    restriction.Unweakened (rpc.service.auth.getD {}) := by
  have hresolved := resolveMethodAuth_of_auth hauth
  have hopen (hservice : (rpc.service.auth.getD {}).isPublic = some true) :
      restriction.Allows none := by
    have hresolvedPublic : (resolveMethodAuth rpc).isPublic = true := by
      rw [hresolved]
      simp [computeMethodAuth, resolveFlag, hpublic, hservice]
    exact hrespected.1 _ _ _ _ _ _ _
      (exec_of_isPublic hresolvedPublic {} (fun _ => none) none ⟨0, none⟩)
  cases restriction with
  | internal =>
    intro hservice
    exact absurd (hopen hservice) (by simp [Restriction.Allows])
  | requires required =>
    intro hservice
    obtain ⟨user, hnone, -⟩ := hopen hservice
    exact nomatch hnone
  | deny =>
    apply Option.eq_none_iff_forall_ne_some.mpr
    intro required hdefault
    have hrequires : (resolveMethodAuth rpc).requires = some required := by
      rw [hresolved]
      simp [computeMethodAuth, hsets.2.1, hdefault]
    exact hrespected.1 _ _ _ _ _ _ _
      (exec_of_requires hrequires required.satisfies_holder {} (fun _ => none) ⟨0, none⟩)

theorem respected_of_unweakened (hauth : rpc.method.auth = some method)
    (hpublic : method.isPublic = none) (hsets : method.Sets restriction)
    (hservice : restriction = .deny → (rpc.service.auth.getD {}).isPublic ≠ some true ∧
      (rpc.service.auth.getD {}).isInternal ≠ some true)
    (h : restriction.Unweakened (rpc.service.auth.getD {})) :
    restriction.Respected Session rpc := by
  have hresolved := resolveMethodAuth_of_auth hauth
  have hclosed : (resolveMethodAuth rpc).isPublic = false := by
    have hservicePublic : (rpc.service.auth.getD {}).isPublic ≠ some true := by
      cases restriction with
      | internal => exact h
      | requires required => exact h
      | deny => exact (hservice rfl).1
    rw [hresolved]
    exact resolveFlag_eq_false (by simp [hpublic]) hservicePublic
  constructor
  · intro options header context s t fwd trace hexec
    obtain ⟨-, hpublic | hgranted⟩ := ProtoAuthz.exec_createProtoAuthzInterceptor hexec
    · rw [hclosed] at hpublic
      cases hpublic
    cases restriction with
    | internal =>
      apply hgranted.internal
      rw [hresolved]
      simp [computeMethodAuth, resolveFlag, hsets.1]
    | requires required =>
      apply hgranted.requires
      rw [hresolved]
      simp [computeMethodAuth, hsets.2.1]
    | deny =>
      have hdefault : (rpc.service.auth.getD {}).defaultRequires = none := h
      refine hgranted.policy ?_ ?_ ?_
      · rw [hresolved]
        exact resolveFlag_eq_false hsets.1 (hservice rfl).2
      · rw [hresolved]
        simp [computeMethodAuth, hsets.2.1, hdefault]
      · rw [hresolved]
        simp only [computeMethodAuth, resolvePolicy, Option.getD_some, hsets.2.2]
        rfl
  · intro _ services hnodup hmem hpattern
    rw [getPublicMethods, pattern_mem_selectMethods hnodup hmem, hclosed] at hpattern
    cases hpattern

/-- Whatever the interceptor and the caller, the restriction that a method sets itself is kept
exactly if no default of its service takes precedence over it. -/
theorem respected_iff_unweakened (Session : Type) (hauth : rpc.method.auth = some method)
    (hpublic : method.isPublic = none) (hsets : method.Sets restriction)
    (hservice : restriction = .deny → (rpc.service.auth.getD {}).isPublic ≠ some true ∧
      (rpc.service.auth.getD {}).isInternal ≠ some true) :
    restriction.Respected Session rpc ↔ restriction.Unweakened (rpc.service.auth.getD {}) :=
  ⟨unweakened_of_respected hauth hpublic hsets,
    respected_of_unweakened hauth hpublic hsets hservice⟩

end

def tripService (auth : ServiceAuth) (methodAuth : MethodAuth) : DescService where
  typeName := js "trip.v1.TripService"
  auth := some auth
  methods := [{ name := js "RecordTrip", auth := some methodAuth }]
  nodup := List.nodup_singleton _

def recordTrip (auth : ServiceAuth) (methodAuth : MethodAuth) : Rpc where
  service := tripService auth methodAuth
  method := { name := js "RecordTrip", auth := some methodAuth }
  mem := List.mem_singleton_self _

theorem respected_iff_unweakened_recordTrip :
    Restriction.internal.Respected Unit
      (recordTrip { defaultPolicy := js "allow" } { isInternal := some true }) := by
  have hsets : MethodAuth.Sets { isInternal := some true } .internal := ⟨rfl, rfl, by decide⟩
  refine (respected_iff_unweakened Unit rfl rfl hsets (fun h => nomatch h)).mpr ?_
  show none ≠ some true
  simp

/-- In a service that is public by default, a method that is marked internal is open to all. -/
theorem internal_method_of_public_service :
    ¬ ∀ (rpc : Rpc) (method : MethodAuth) (restriction : Restriction),
      rpc.method.auth = some method → method.isPublic = none → method.Sets restriction →
      (restriction = .deny → (rpc.service.auth.getD {}).isPublic ≠ some true ∧
        (rpc.service.auth.getD {}).isInternal ≠ some true) →
      restriction.Respected Unit rpc := by
  intro h
  have hrespected := h (recordTrip { isPublic := some true } { isInternal := some true }) _
    .internal rfl rfl ⟨rfl, rfl, by decide⟩ (fun h => nomatch h)
  have hallowed := hrespected.1 _ _ _ _ _ _ _
    (exec_of_isPublic rfl {} (fun _ => none) none ⟨0, none⟩)
  exact absurd hallowed (by simp [Restriction.Allows])

end Connectum.Auth
