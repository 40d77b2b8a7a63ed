import Connectum.Auth.Interceptor

/-! The authorization options of services and methods, and the method lists read off them. -/
namespace Connectum.Auth
open JsString

inductive AuthzEffect where
  | allow
  | deny
  deriving DecidableEq, Repr

structure AuthRequirements where
  roles : List JsString := []
  scopes : List JsString := []
  deriving DecidableEq, Repr

/-- The options of a method. A string option that is not set is empty. -/
structure MethodAuth where
  isPublic : Option Bool := none
  requires : Option AuthRequirements := none
  policy : JsString := []
  isInternal : Option Bool := none

structure ServiceAuth where
  defaultPolicy : JsString := []
  defaultRequires : Option AuthRequirements := none
  isPublic : Option Bool := none
  isInternal : Option Bool := none

/-- Neither a slash nor an asterisk occurs in the names of services and methods. -/
def PlainName (s : JsString) : Prop := unit '/' ∉ s ∧ unit '*' ∉ s

instance (s : JsString) : Decidable (PlainName s) := inferInstanceAs (Decidable (_ ∧ _))

structure DescMethod where
  name : JsString
  auth : Option MethodAuth := none
  plain : PlainName name := by decide

structure DescService where
  typeName : JsString
  auth : Option ServiceAuth := none
  methods : List DescMethod
  plain : PlainName typeName := by decide
  nodup : (methods.map DescMethod.name).Nodup := by decide

/-- A method and the service it belongs to. -/
structure Rpc where
  service : DescService
  method : DescMethod
  mem : method ∈ service.methods

structure ResolvedMethodAuth where
  isPublic : Bool
  isInternal : Bool
  policy : Option AuthzEffect
  requires : Option AuthRequirements

def normalizePolicy (value : JsString) : Option AuthzEffect :=
  if value = js "allow" then some .allow
  else if value = js "deny" then some .deny
  else none

/-- A flag of the method if it is set there, else the one of the service, else `false`. -/
def resolveFlag (methodFlag serviceFlag : Option Bool) : Bool :=
  match methodFlag with
  | some value => value
  | none => serviceFlag.getD false

/-- The policy of the method if it is not empty, else the one of the service. -/
def resolvePolicy (methodPolicy servicePolicy : JsString) : Option AuthzEffect :=
  if methodPolicy ≠ [] then normalizePolicy methodPolicy
  else if servicePolicy ≠ [] then normalizePolicy servicePolicy
  else none

/-- Options that are not set at all read like options without fields. -/
def computeMethodAuth (service : Option ServiceAuth) (method : Option MethodAuth) :
    ResolvedMethodAuth :=
  let svcAuth := service.getD {}
  let mtdAuth := method.getD {}
  { isPublic := resolveFlag mtdAuth.isPublic svcAuth.isPublic
    isInternal := resolveFlag mtdAuth.isInternal svcAuth.isInternal
    policy := resolvePolicy mtdAuth.policy svcAuth.defaultPolicy
    requires := mtdAuth.requires.or svcAuth.defaultRequires }

/-- The memo of the results is left out: descriptors do not change. -/
def resolveMethodAuth (rpc : Rpc) : ResolvedMethodAuth :=
  computeMethodAuth rpc.service.auth rpc.method.auth

def Rpc.pattern (rpc : Rpc) : JsString := rpc.service.typeName ++ js "/" ++ rpc.method.name

/-- The methods of a service. -/
def DescService.rpcs (service : DescService) : List Rpc :=
  service.methods.attach.map fun method => ⟨service, method.1, method.2⟩

/-- The patterns of the methods that a predicate selects. -/
def selectMethods (select : ResolvedMethodAuth → Bool) (services : List DescService) :
    List JsString :=
  services.flatMap fun service =>
    (service.rpcs.filter fun rpc => select (resolveMethodAuth rpc)).map Rpc.pattern

def getPublicMethods : List DescService → List JsString := selectMethods ResolvedMethodAuth.isPublic

def getInternalMethods : List DescService → List JsString :=
  selectMethods ResolvedMethodAuth.isInternal

variable {services : List DescService} {rpc rpc' : Rpc} {select : ResolvedMethodAuth → Bool}

theorem resolveFlag_eq_false {methodFlag serviceFlag : Option Bool}
    (hmethod : methodFlag ≠ some true) (hservice : serviceFlag ≠ some true) :
    resolveFlag methodFlag serviceFlag = false := by
  unfold resolveFlag
  split
  next value => simpa using hmethod
  next =>
    cases serviceFlag with
    | none => rfl
    | some value => simpa using hservice

theorem mem_rpcs {service : DescService} : rpc ∈ service.rpcs ↔ rpc.service = service := by
  constructor
  · intro h
    obtain ⟨method, -, rfl⟩ := List.mem_map.mp h
    rfl
  · rintro rfl
    exact List.mem_map.mpr ⟨⟨rpc.method, rpc.mem⟩, List.mem_attach _ _, rfl⟩

theorem mem_selectMethods {pattern : JsString} :
    pattern ∈ selectMethods select services ↔
      ∃ rpc : Rpc, rpc.service ∈ services ∧ select (resolveMethodAuth rpc) = true ∧
        rpc.pattern = pattern := by
  simp only [selectMethods, List.mem_flatMap, List.mem_map, List.mem_filter, mem_rpcs]
  constructor
  · rintro ⟨service, hservice, rpc, ⟨rfl, hselect⟩, hpattern⟩
    exact ⟨rpc, hservice, hselect, hpattern⟩
  · rintro ⟨rpc, hservice, hselect, hpattern⟩
    exact ⟨rpc.service, hservice, rpc, ⟨rfl, hselect⟩, hpattern⟩

theorem Rpc.names_eq_of_pattern_eq (h : rpc.pattern = rpc'.pattern) :
    rpc.service.typeName = rpc'.service.typeName ∧ rpc.method.name = rpc'.method.name := by
  have hsplit : rpc.service.typeName ++ unit '/' :: rpc.method.name =
      rpc'.service.typeName ++ unit '/' :: rpc'.method.name := by
    simpa [Rpc.pattern, js, codeUnits, unit] using h
  obtain ⟨hservice, -, hmethod⟩ := (List.append_cons_inj_of_notMem rpc.service.plain.1
    rpc.method.plain.1).mp hsplit
  exact ⟨hservice, hmethod⟩

/-- Type names and method names tell the methods of distinct services apart. -/
theorem Rpc.eq_of_pattern_eq (hnodup : (services.map DescService.typeName).Nodup)
    (hmem : rpc.service ∈ services) (hmem' : rpc'.service ∈ services)
    (h : rpc.pattern = rpc'.pattern) : rpc = rpc' := by
  obtain ⟨hservice, hmethod⟩ := Rpc.names_eq_of_pattern_eq h
  have hservice := List.inj_on_of_nodup_map hnodup hmem hmem' hservice
  obtain ⟨service, method, hmethodMem⟩ := rpc
  obtain ⟨service', method', hmethodMem'⟩ := rpc'
  obtain rfl : service = service' := hservice
  obtain rfl := List.inj_on_of_nodup_map service.nodup hmethodMem hmethodMem' hmethod
  rfl

theorem pattern_mem_selectMethods (hnodup : (services.map DescService.typeName).Nodup)
    (hmem : rpc.service ∈ services) :
    rpc.pattern ∈ selectMethods select services ↔ select (resolveMethodAuth rpc) = true := by
  rw [mem_selectMethods]
  constructor
  · rintro ⟨rpc', hmem', hselect, hpattern⟩
    rw [← Rpc.eq_of_pattern_eq hnodup hmem' hmem hpattern]
    exact hselect
  · intro hselect
    exact ⟨rpc, hmem, hselect, rfl⟩

theorem star_notMem_pattern (rpc : Rpc) : unit '*' ∉ rpc.pattern := by
  simp only [Rpc.pattern, List.mem_append, not_or]
  exact ⟨⟨rpc.service.plain.2, by decide⟩, rpc.method.plain.2⟩

/-- The pattern of a method matches this method only. -/
theorem matchesPattern_iff (rpc rpc' : Rpc) :
    matchesPattern rpc.service.typeName rpc.method.name rpc'.pattern = true ↔
      rpc'.pattern = rpc.pattern := by
  have hstar : rpc'.pattern ≠ js "*" := by
    intro h
    apply star_notMem_pattern rpc'
    rw [h]
    decide
  have hsuffix : (js "/*").isSuffixOf rpc'.pattern = false := by
    rw [← Bool.not_eq_true, List.isSuffixOf_iff_suffix]
    intro h
    exact star_notMem_pattern rpc' (h.subset (by decide))
  change (decide (rpc'.pattern = js "*") || decide (rpc'.pattern = rpc.pattern) || _) = true ↔ _
  simp [hstar, hsuffix]

/-- A list of method patterns matches exactly the methods that it was selected by. -/
theorem matches_selectMethods (hnodup : (services.map DescService.typeName).Nodup)
    (hmem : rpc.service ∈ services) :
    matchesMethodPattern rpc.service.typeName rpc.method.name (selectMethods select services) =
      select (resolveMethodAuth rpc) := by
  rw [Bool.eq_iff_iff, ← pattern_mem_selectMethods hnodup hmem, matchesMethodPattern,
    List.any_eq_true]
  constructor
  · rintro ⟨pattern, hpattern, hmatches⟩
    obtain ⟨rpc', -, -, rfl⟩ := mem_selectMethods.mp hpattern
    rw [← (matchesPattern_iff rpc rpc').mp hmatches]
    exact hpattern
  · intro hpattern
    exact ⟨rpc.pattern, hpattern, (matchesPattern_iff rpc rpc).mpr rfl⟩

end Connectum.Auth
