import Connectum.Auth.AuthzInterceptor

/-! Privileges and authorization: where no rule denies by privileges, having more of them never
costs a caller an authorization. -/
namespace Connectum.Auth
open JsString Async

/-- The second context has at least the roles and scopes of the first. -/
structure AuthContext.Below (first second : AuthContext) : Prop where
  roles : first.roles ⊆ second.roles
  scopes : first.scopes ⊆ second.scopes

/-- No rule that denies carries requirements. -/
def NoGuardedDeny (rules : List AuthzRule) : Prop :=
  ∀ rule ∈ rules, rule.effect = .deny → rule.requires = none

/-- The interceptor calls `next`. -/
def Allows {Session : Type} (s : AuthState)
    (program : AuthProgram Session (Except Failure Forwarded)) : Prop :=
  ∃ trace t fwd, Exec program s trace t (.ok fwd)

variable {Session : Type} {s : AuthState} {header : Headers} {rpc : Rpc}
  {first second : AuthContext} {rules : List AuthzRule} {serviceName methodName : JsString}

theorem allows_passed : Allows s (ProtoAuthz.passed header : AuthProgram Session _) :=
  ⟨_, _, _, .done⟩

theorem not_allows_denied {error : Failure} :
    ¬ Allows s (ProtoAuthz.denied error : AuthProgram Session _) := by
  rintro ⟨trace, t, fwd, h⟩
  exact ProtoAuthz.not_exec_denied h

theorem satisfiesRequirements_iff {context : AuthContext} {requires : Requirements} :
    satisfiesRequirements context requires = true ↔
      (requires.roles.getD [] ≠ [] → ∃ role ∈ requires.roles.getD [], role ∈ context.roles) ∧
        ∀ scope ∈ requires.scopes.getD [], scope ∈ context.scopes := by
  unfold satisfiesRequirements
  dsimp only
  constructor
  · intro h
    split at h
    · cases h
    next hroles =>
      split at h
      · cases h
      next hscopes =>
        constructor
        · intro hne
          have hany := Classical.not_not.mp fun hnot => hroles ⟨hne, hnot⟩
          obtain ⟨role, hrole, hhas⟩ := List.any_eq_true.mp hany
          exact ⟨role, hrole, List.contains_iff_mem.mp hhas⟩
        · intro scope hscope
          have hall := Classical.not_not.mp fun hnot => hscopes ⟨List.ne_nil_of_mem hscope, hnot⟩
          exact List.contains_iff_mem.mp (List.all_eq_true.mp hall scope hscope)
  · rintro ⟨hroles, hscopes⟩
    rw [if_neg, if_neg]
    · rintro ⟨-, hnot⟩
      exact hnot (List.all_eq_true.mpr fun scope h => List.contains_iff_mem.mpr (hscopes scope h))
    · rintro ⟨hne, hnot⟩
      obtain ⟨role, hrole, hhas⟩ := hroles hne
      exact hnot (List.any_eq_true.mpr ⟨role, hrole, List.contains_iff_mem.mpr hhas⟩)

/-- Any of the roles and all of the scopes: more of either does not hurt. -/
theorem AuthContext.Below.satisfies (h : first.Below second) {requires : Requirements}
    (hfirst : satisfiesRequirements first requires = true) :
    satisfiesRequirements second requires = true := by
  obtain ⟨hroles, hscopes⟩ := satisfiesRequirements_iff.mp hfirst
  apply satisfiesRequirements_iff.mpr
  constructor
  · intro hne
    obtain ⟨role, hrole, hhas⟩ := hroles hne
    exact ⟨role, hrole, h.roles hhas⟩
  · exact fun scope hscope => h.scopes (hscopes scope hscope)

/-- The rule that the further privileges bring into play, if any, allows. -/
theorem AuthContext.Below.effect_evaluateRules (h : first.Below second)
    (hrules : NoGuardedDeny rules) (serviceName methodName : JsString) :
    (evaluateRules rules (some second) serviceName methodName).map RuleResult.effect =
        some .allow ∨
      (evaluateRules rules (some second) serviceName methodName).map RuleResult.effect =
        (evaluateRules rules (some first) serviceName methodName).map RuleResult.effect := by
  induction rules with
  | nil => exact .inr rfl
  | cons rule rules ih =>
    have hrest := ih fun rule hrule => hrules rule (List.mem_cons_of_mem _ hrule)
    unfold evaluateRules
    by_cases hmatches : matchesMethodPattern serviceName methodName rule.methods = true
    · rw [if_pos hmatches, if_pos hmatches]
      cases hrequires : rule.requires with
      | none => exact .inr rfl
      | some requires =>
        dsimp only
        by_cases hsecond : satisfiesRequirements second requires = true
        · -- the second context may stop here where the first one goes on
          have hallow : rule.effect = .allow := by
            cases heffect : rule.effect with
            | allow => rfl
            | deny =>
              have hnone := hrules rule List.mem_cons_self heffect
              rw [hrequires] at hnone
              cases hnone
          rw [if_pos hsecond]
          exact .inl (congrArg some hallow)
        · have hfirst : ¬ satisfiesRequirements first requires = true :=
            fun hfirst => hsecond (h.satisfies hfirst)
          rw [if_neg hsecond, if_neg hfirst]
          exact hrest
    · rw [if_neg hmatches, if_neg hmatches]
      exact hrest

section Proto
variable {options : ProtoAuthzInterceptorOptions}

theorem AuthContext.Below.allows_applyRules (h : first.Below second)
    (hrules : NoGuardedDeny options.rules) (hauthorize : options.authorize = false)
    (hallows : Allows s (ProtoAuthz.applyRules options rpc header (some first) :
      AuthProgram Session _)) :
    Allows s (ProtoAuthz.applyRules options rpc header (some second) : AuthProgram Session _) := by
  unfold ProtoAuthz.applyRules at hallows ⊢
  rcases h.effect_evaluateRules hrules rpc.service.typeName rpc.method.name with hallow | hsame
  · obtain ⟨result, hresult, heffect⟩ := Option.map_eq_some_iff.mp hallow
    rw [hresult]
    dsimp only
    rw [heffect]
    exact allows_passed
  · cases hfirst : evaluateRules options.rules (some first) rpc.service.typeName rpc.method.name with
    | none =>
      rw [hfirst] at hsame hallows
      rw [Option.map_eq_none_iff.mp hsame]
      unfold ProtoAuthz.callAuthorize ProtoAuthz.applyDefaultPolicy at hallows ⊢
      rw [hauthorize, if_neg Bool.false_ne_true] at hallows ⊢
      dsimp only at hallows ⊢
      cases hdefault : options.defaultPolicy with
      | allow => exact allows_passed
      | deny =>
        rw [hdefault] at hallows
        exact absurd hallows not_allows_denied
    | some found =>
      rw [hfirst] at hsame hallows
      obtain ⟨result, hresult, heffect⟩ := Option.map_eq_some_iff.mp hsame
      rw [hresult]
      dsimp only at hallows ⊢
      rw [heffect]
      cases hfound : found.effect with
      | allow => exact allows_passed
      | deny =>
        rw [hfound] at hallows
        exact absurd hallows not_allows_denied

theorem AuthContext.Below.allows_checkRequires (h : first.Below second)
    (hrules : NoGuardedDeny options.rules) (hauthorize : options.authorize = false)
    (hallows : Allows s (ProtoAuthz.checkRequires options rpc header (some first) :
      AuthProgram Session _)) :
    Allows s (ProtoAuthz.checkRequires options rpc header (some second) :
      AuthProgram Session _) := by
  unfold ProtoAuthz.checkRequires at hallows ⊢
  cases hrequires : (resolveMethodAuth rpc).requires with
  | none =>
    rw [hrequires] at hallows
    dsimp only at hallows ⊢
    unfold ProtoAuthz.checkPolicy at hallows ⊢
    cases hpolicy : (resolveMethodAuth rpc).policy with
    | none =>
      rw [hpolicy] at hallows
      exact h.allows_applyRules hrules hauthorize hallows
    | some policy =>
      rw [hpolicy] at hallows
      cases policy with
      | allow => exact allows_passed
      | deny => exact absurd hallows not_allows_denied
  | some requires =>
    rw [hrequires] at hallows
    dsimp only at hallows ⊢
    split at hallows
    next hfirst =>
      rw [if_pos (h.satisfies hfirst)]
      exact allows_passed
    next => exact absurd hallows not_allows_denied

theorem AuthContext.Below.allows_createProtoAuthzInterceptor (h : first.Below second)
    (hrules : NoGuardedDeny options.rules) (hauthorize : options.authorize = false)
    (hallows : Allows s (createProtoAuthzInterceptor options rpc header (some first) :
      AuthProgram Session _)) :
    Allows s (createProtoAuthzInterceptor options rpc header (some second) :
      AuthProgram Session _) := by
  unfold createProtoAuthzInterceptor at hallows ⊢
  dsimp only at hallows ⊢
  split
  next => exact allows_passed
  next hpublic =>
    rw [if_neg hpublic] at hallows
    split
    next hinternal =>
      rw [if_pos hinternal] at hallows
      split
      next => exact allows_passed
      next hrequires =>
        rw [if_neg hrequires] at hallows
        exact h.allows_checkRequires hrules hauthorize hallows
    next hinternal =>
      rw [if_neg hinternal] at hallows
      exact h.allows_checkRequires hrules hauthorize hallows

end Proto

theorem AuthContext.Below.allows_createAuthzInterceptor {options : AuthzInterceptorOptions}
    (h : first.Below second) (hrules : NoGuardedDeny options.rules)
    (hauthorize : options.authorize = false)
    (hallows : Allows s (createAuthzInterceptor options rpc header (some first) :
      AuthProgram Session _)) :
    Allows s (createAuthzInterceptor options rpc header (some second) :
      AuthProgram Session _) := by
  unfold createAuthzInterceptor at hallows ⊢
  split
  next => exact allows_passed
  next hskip =>
    rw [if_neg hskip] at hallows
    dsimp only at hallows ⊢
    rw [← applyRules_some] at hallows ⊢
    exact h.allows_applyRules hrules hauthorize hallows

/-- Without an `authorize` callback, what either interceptor allows a caller it also allows a caller
with at least the same roles and scopes. -/
theorem authorization_monotone (Session : Type) (s : AuthState) (rpc : Rpc) (header : Headers)
    {first second : AuthContext} (h : first.Below second) :
    (∀ options : ProtoAuthzInterceptorOptions, NoGuardedDeny options.rules →
      options.authorize = false →
      Allows s (createProtoAuthzInterceptor options rpc header (some first) :
        AuthProgram Session _) →
      Allows s (createProtoAuthzInterceptor options rpc header (some second) :
        AuthProgram Session _)) ∧
    ∀ options : AuthzInterceptorOptions, NoGuardedDeny options.rules →
      options.authorize = false →
      Allows s (createAuthzInterceptor options rpc header (some first) : AuthProgram Session _) →
      Allows s (createAuthzInterceptor options rpc header (some second) :
        AuthProgram Session _) :=
  ⟨fun _ hrules hauthorize => h.allows_createProtoAuthzInterceptor hrules hauthorize,
    fun _ hrules hauthorize => h.allows_createAuthzInterceptor hrules hauthorize⟩

/-- Only admins get through. -/
def adminsOnly : AuthzInterceptorOptions where
  rules := [{
    name := js "admins"
    methods := [js "*"]
    effect := .allow
    requires := some { roles := some [js "admin"] } }]

def admin : AuthContext := AuthRequirements.holder { roles := [js "admin"] }

/-- An admin with one more role and a scope. -/
def readingAdmin : AuthContext :=
  AuthRequirements.holder { roles := [js "guest", js "admin"], scopes := [js "read"] }

theorem authorization_monotone_admin :
    Allows ⟨0, none⟩ (createProtoAuthzInterceptor adminsOnly.toProto listTrips (fun _ => none)
      (some readingAdmin) : AuthProgram Unit _) ∧
    Allows ⟨0, none⟩ (createAuthzInterceptor adminsOnly listTrips (fun _ => none)
      (some readingAdmin) : AuthProgram Unit _) := by
  have hbelow : admin.Below readingAdmin := ⟨by decide, by decide⟩
  have hrules : NoGuardedDeny adminsOnly.rules := by
    intro rule hrule hdeny
    obtain rfl := List.mem_singleton.mp hrule
    cases hdeny
  obtain ⟨hproto, hauthz⟩ := authorization_monotone Unit ⟨0, none⟩ listTrips (fun _ => none) hbelow
  exact ⟨hproto adminsOnly.toProto hrules rfl ⟨_, _, _, .done⟩,
    hauthz adminsOnly hrules rfl ⟨_, _, _, .done⟩⟩

end Connectum.Auth
