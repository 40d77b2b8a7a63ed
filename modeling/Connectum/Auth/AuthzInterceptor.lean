import Connectum.Auth.Proto.AuthzInterceptor

/-! The authorization interceptor with rules and a callback only. -/
namespace Connectum.Auth
open JsString Async ProtoAuthz

/-- `authorize` tells whether there is a callback. -/
structure AuthzInterceptorOptions where
  defaultPolicy : AuthzEffect := .deny
  rules : List AuthzRule := []
  authorize : Bool := false
  skipMethods : List JsString := []

namespace Authz

/-- The effect of the first rule that matches. -/
def evaluateRules (rules : List AuthzRule) (context : AuthContext)
    (serviceName methodName : JsString) : Option RuleResult :=
  match rules with
  | [] => none
  | rule :: rules =>
    if matchesMethodPattern serviceName methodName rule.methods then
      match rule.requires with
      | none => some ⟨rule.effect, rule.name, none, none⟩
      | some requires =>
        if satisfiesRequirements context requires then
          some ⟨rule.effect, rule.name, requires.roles, requires.scopes⟩
        else evaluateRules rules context serviceName methodName
    else evaluateRules rules context serviceName methodName

variable {Session : Type} (options : AuthzInterceptorOptions) (rpc : Rpc) (header : Headers)
  (context : AuthContext)

def applyDefaultPolicy : AuthProgram Session (Except Failure Forwarded) :=
  match options.defaultPolicy with
  | .deny => denied (.connectError .permissionDenied "Access denied by default policy")
  | .allow => passed header

def callAuthorize : AuthProgram Session (Except Failure Forwarded) :=
  if options.authorize then
    .await (.authorize context rpc.service.typeName rpc.method.name) fun
    | .error error => denied error
    | .ok allowed =>
      if !allowed then denied (.connectError .permissionDenied "Access denied") else passed header
  else applyDefaultPolicy options header

def applyRules : AuthProgram Session (Except Failure Forwarded) :=
  match evaluateRules options.rules context rpc.service.typeName rpc.method.name with
  | some result =>
    if result.effect = .deny then
      denied (.authzDenied ⟨result.ruleName, result.requiredRoles, result.requiredScopes⟩)
    else passed header
  | none => callAuthorize options rpc header context

end Authz

open Authz in
/-- `context` is what `getAuthContext` returns. -/
def createAuthzInterceptor {Session : Type} (options : AuthzInterceptorOptions) (rpc : Rpc)
    (header : Headers) (context : Option AuthContext) :
    AuthProgram Session (Except Failure Forwarded) :=
  if matchesMethodPattern rpc.service.typeName rpc.method.name options.skipMethods then
    passed header
  else match context with
    | none => denied authenticationRequired
    | some context => applyRules options rpc header context

/-- The same rules, callback and default policy for the other interceptor. -/
def AuthzInterceptorOptions.toProto (options : AuthzInterceptorOptions) :
    ProtoAuthzInterceptorOptions :=
  ⟨options.defaultPolicy, options.rules, options.authorize⟩

/-- No option is set, on the method or on its service. -/
def ResolvedMethodAuth.unset : ResolvedMethodAuth := ⟨false, false, none, none⟩

theorem resolveMethodAuth_eq_unset {rpc : Rpc} (hmethod : rpc.method.auth = none)
    (hservice : rpc.service.auth = none) : resolveMethodAuth rpc = .unset := by
  unfold resolveMethodAuth
  rw [hmethod, hservice]
  rfl

section
variable {Session : Type} {rpc : Rpc}

/-- With a context, the two copies of the rule evaluation are the same. -/
theorem evaluateRules_some (rules : List AuthzRule) (user : AuthContext)
    (serviceName methodName : JsString) :
    evaluateRules rules (some user) serviceName methodName =
      Authz.evaluateRules rules user serviceName methodName := by
  induction rules with
  | nil => rfl
  | cons rule rules ih =>
    unfold evaluateRules Authz.evaluateRules
    rw [ih]
    cases rule.requires <;> rfl

theorem callAuthorize_some (options : AuthzInterceptorOptions) (rpc : Rpc) (header : Headers)
    (user : AuthContext) :
    (ProtoAuthz.callAuthorize options.toProto rpc header (some user) :
      AuthProgram Session (Except Failure Forwarded)) =
      Authz.callAuthorize options rpc header user := by
  unfold ProtoAuthz.callAuthorize Authz.callAuthorize
  cases hauthorize : options.authorize with
  | true =>
    have hasked : options.toProto.authorize = true := hauthorize
    rw [hasked, if_pos rfl, if_pos rfl]
    refine congrArg (Async.await (AuthCall.authorize user _ _)) ?_
    funext answer
    cases answer with
    | error error => rfl
    | ok allowed => cases allowed <;> rfl
  | false =>
    have hasked : options.toProto.authorize = false := hauthorize
    rw [hasked, if_neg Bool.false_ne_true, if_neg Bool.false_ne_true]
    unfold ProtoAuthz.applyDefaultPolicy Authz.applyDefaultPolicy
    have hdefault : options.toProto.defaultPolicy = options.defaultPolicy := rfl
    rw [hdefault]
    cases options.defaultPolicy <;> rfl

theorem applyRules_some (options : AuthzInterceptorOptions) (rpc : Rpc) (header : Headers)
    (user : AuthContext) :
    (ProtoAuthz.applyRules options.toProto rpc header (some user) :
      AuthProgram Session (Except Failure Forwarded)) =
      Authz.applyRules options rpc header user := by
  unfold ProtoAuthz.applyRules Authz.applyRules
  have hrules : options.toProto.rules = options.rules := rfl
  rw [hrules, evaluateRules_some, callAuthorize_some]
  cases Authz.evaluateRules options.rules user rpc.service.typeName rpc.method.name with
  | none => rfl
  | some result => cases heffect : result.effect <;> simp [heffect]

/-- For a method without options, the proto interceptor goes straight to the rules. -/
theorem createProtoAuthzInterceptor_of_unset (hunset : resolveMethodAuth rpc = .unset)
    (options : ProtoAuthzInterceptorOptions) (header : Headers) (context : Option AuthContext) :
    (createProtoAuthzInterceptor options rpc header context :
      AuthProgram Session (Except Failure Forwarded)) =
      ProtoAuthz.applyRules options rpc header context := by
  unfold createProtoAuthzInterceptor ProtoAuthz.checkRequires ProtoAuthz.checkPolicy
  rw [hunset]
  rfl

/-- For a method without options, both interceptors ask the same of the callback and end alike:
with `next(req)`, or with the same error. -/
theorem createAuthzInterceptor_agrees (options : AuthzInterceptorOptions)
    (hskip : options.skipMethods = []) (hunset : resolveMethodAuth rpc = .unset)
    (header : Headers) (user : AuthContext) :
    (createAuthzInterceptor options rpc header (some user) :
      AuthProgram Session (Except Failure Forwarded)) =
      createProtoAuthzInterceptor options.toProto rpc header (some user) := by
  rw [createProtoAuthzInterceptor_of_unset hunset, applyRules_some]
  unfold createAuthzInterceptor
  rw [hskip]
  rfl

end

/-- A method without options, in a service without options. -/
def listTrips : Rpc where
  service := { typeName := js "trip.v1.TripListService", methods := [{ name := js "ListTrips" }] }
  method := { name := js "ListTrips" }
  mem := List.mem_singleton_self _

/-- Guests are denied everything. -/
def noGuests : AuthzInterceptorOptions where
  rules := [{
    name := js "no-guests"
    methods := [js "*"]
    effect := .deny
    requires := some { roles := some [js "guest"] } }]
  authorize := true

theorem createAuthzInterceptor_agrees_noGuests :
    (createProtoAuthzInterceptor noGuests.toProto listTrips (fun _ => none)
        (some (AuthRequirements.holder { roles := [js "guest"] })) :
      AuthProgram Unit (Except Failure Forwarded)) =
      .done (.error (.authzDenied ⟨js "no-guests", some [js "guest"], none⟩)) := by
  have hunset : resolveMethodAuth listTrips = .unset := resolveMethodAuth_eq_unset rfl rfl
  rw [← createAuthzInterceptor_agrees noGuests rfl hunset]
  rfl

end Connectum.Auth
