import Connectum.Auth.Interceptor
import Connectum.Core.ServiceCatalog

/-! The lookup of a method key in a catalog, and what the documentation says it throws. -/
namespace Connectum.Core.Catalog
open JsString
open Connectum.Auth (Code)

/-- What a call throws before it reaches a transport. -/
inductive CallError (Cause : Type) where
  | connectError (code : Code) (message : JsString) (cause : Option Cause := none)
  | typeError

/-- `s.lastIndexOf(c)`, with `none` for `-1`. -/
def lastIndexOf (c : UInt16) : JsString → Option ℕ
  | [] => none
  | d :: s =>
    match lastIndexOf c s with
    | some i => some (i + 1)
    | none => if d = c then some 0 else none

def splitMethodKey (method : JsString) : Option (JsString × JsString) :=
  match lastIndexOf (unit '/') method with
  | none => none
  | some slash =>
    if slash = 0 ∨ slash = method.length - 1 then none
    else some (method.take slash, method.drop (slash + 1))

variable {E : Type}

def lookupCatalogMethod (catalog : Option ServiceCatalog) (method : JsString)
    (caller : JsString := js "ctx") : Except (CallError E) (JsString × DescMethod) :=
  match splitMethodKey method with
  | none =>
    .error (.connectError .unimplemented (caller ++ js ": malformed method key \"" ++ method ++
      js "\" (expected \"$\x7btypeName\x7d/$\x7bMethod\x7d\")."))
  | some (typeName, methodName) =>
    match catalog with
    | none =>
      .error (.connectError .failedPrecondition (caller ++ js (": no catalog is configured; " ++
        "pass createServer(\x7b catalog \x7d) to enable cross-service calls.")))
    | some catalog =>
      match catalog.get typeName with
      | .undefined =>
        .error (.connectError .unimplemented (caller ++ js ": unknown service \"" ++ typeName ++
          js "\" (no such key in the catalog)."))
      | .other => .error .typeError
      | .service descriptor =>
        match descriptor.methods.find? fun m => m.name = methodName with
        | none =>
          .error (.connectError .unimplemented (caller ++ js ": \"" ++ typeName ++
            js "\" has no method \"" ++ methodName ++ js "\"."))
        | some descMethod => .ok (typeName, descMethod)

/-- The parts of a string before and after its last slash. -/
def SplitsAt (method key name : JsString) : Prop :=
  method = key ++ unit '/' :: name ∧ unit '/' ∉ name

def WellFormed (method : JsString) : Prop :=
  ∃ key name, SplitsAt method key name ∧ key ≠ [] ∧ name ≠ []

/-- The string splits into a key of the catalog and the name of one of that service's methods. -/
def Finds (catalog : Option ServiceCatalog) (method typeName : JsString)
    (descMethod : DescMethod) : Prop :=
  SplitsAt method typeName descMethod.name ∧ ∃ c ∈ catalog, ∃ service,
    (typeName, service) ∈ c.entries ∧ descMethod ∈ service.methods

/-- The outcome of a lookup that the documentation describes. -/
structure Documented (catalog : Option ServiceCatalog) (method : JsString)
    (outcome : Except (CallError E) (JsString × DescMethod)) : Prop where
  returns : ∀ typeName descMethod,
    outcome = .ok (typeName, descMethod) ↔ Finds catalog method typeName descMethod
  throws : ∀ error, outcome = .error error → ∃ code message,
    error = .connectError code message ∧
      ((code = .failedPrecondition ∧ catalog = none ∧ WellFormed method) ∨
        (code = .unimplemented ∧ ¬ (catalog = none ∧ WellFormed method)))

/-- A key that the catalog does not have itself, but finds in its prototype: a property of
`Object.prototype` or of the descriptor in its place. Under `__proto__` that descriptor itself is
found, which shows if and only if it has the method. -/
def ServiceCatalog.Inherits (catalog : ServiceCatalog) (key name : JsString) : Prop :=
  key ∉ catalog.keys ∧
    match catalog.prototype with
    | none => key ∈ objectPrototype
    | some descriptor =>
      if key = js "__proto__" then name ∈ descriptor.methods.map DescMethod.name
      else key ∈ descServiceFields ∨ key ∈ objectPrototype

theorem lastIndexOf_eq_none {c : UInt16} {s : JsString} : lastIndexOf c s = none ↔ c ∉ s := by
  induction s with
  | nil => simp [lastIndexOf]
  | cons d s ih =>
    rw [lastIndexOf, List.mem_cons, not_or, ← ih]
    cases lastIndexOf c s with
    | none => simp [eq_comm (a := c)]
    | some i => simp

theorem lastIndexOf_append {c : UInt16} {after : JsString} (h : c ∉ after) (before : JsString) :
    lastIndexOf c (before ++ c :: after) = some before.length := by
  induction before with
  | nil =>
    rw [List.nil_append, lastIndexOf, lastIndexOf_eq_none.mpr h]
    exact if_pos rfl
  | cons d before ih => rw [List.cons_append, lastIndexOf, ih, List.length_cons]

theorem exists_splitsAt {method : JsString} (h : unit '/' ∈ method) :
    ∃ key name, SplitsAt method key name := by
  induction method with
  | nil => exact absurd h List.not_mem_nil
  | cons d s ih =>
    by_cases hs : unit '/' ∈ s
    · obtain ⟨key, name, rfl, hname⟩ := ih hs
      exact ⟨d :: key, name, rfl, hname⟩
    · obtain rfl : unit '/' = d := (List.mem_cons.mp h).resolve_right hs
      exact ⟨[], s, rfl, hs⟩

variable {method key name : JsString}

theorem SplitsAt.eq_of_splitsAt {key' name' : JsString} (h : SplitsAt method key name)
    (h' : SplitsAt method key' name') : key = key' ∧ name = name' := by
  obtain ⟨rfl, hname⟩ := h
  obtain ⟨heq, hname'⟩ := h'
  have hlength : key.length = key'.length := by
    apply Option.some.inj
    rw [← lastIndexOf_append hname key, ← lastIndexOf_append hname' key', heq]
  obtain ⟨hkey, hrest⟩ := List.append_inj heq hlength
  exact ⟨hkey, (List.cons.inj hrest).2⟩

/-- The last slash splits, unless one of the parts is empty. -/
theorem SplitsAt.splitMethodKey (h : SplitsAt method key name) :
    splitMethodKey method = if key = [] ∨ name = [] then none else some (key, name) := by
  obtain ⟨rfl, hname⟩ := h
  have hlength : (key ++ unit '/' :: name).length - 1 = key.length + name.length := by
    rw [List.length_append, List.length_cons]
    omega
  have hcond : (key.length = 0 ∨ key.length = (key ++ unit '/' :: name).length - 1) ↔
      key = [] ∨ name = [] := by
    rw [hlength, ← List.length_eq_zero_iff (l := key), ← List.length_eq_zero_iff (l := name)]
    omega
  have htake : (key ++ unit '/' :: name).take key.length = key := List.take_left
  have hdrop : (key ++ unit '/' :: name).drop (key.length + 1) = name := by
    rw [← List.drop_drop, List.drop_left, List.drop_one, List.tail_cons]
  rw [Catalog.splitMethodKey, lastIndexOf_append hname key]
  dsimp only
  rw [if_congr hcond rfl rfl, htake, hdrop]

theorem wellFormed_iff : WellFormed method ↔ (splitMethodKey method).isSome = true := by
  constructor
  · rintro ⟨key, name, hsplits, hkey, hname⟩
    rw [hsplits.splitMethodKey, if_neg (not_or.mpr ⟨hkey, hname⟩)]
    rfl
  · intro hsome
    by_cases hslash : unit '/' ∈ method
    · obtain ⟨key, name, hsplits⟩ := exists_splitsAt hslash
      rw [hsplits.splitMethodKey] at hsome
      split at hsome
      next => cases hsome
      next hne => exact ⟨key, name, hsplits, not_or.mp hne⟩
    · rw [splitMethodKey, lastIndexOf_eq_none.mpr hslash] at hsome
      cases hsome

theorem splitMethodKey_eq_some {key name : JsString} :
    splitMethodKey method = some (key, name) ↔
      SplitsAt method key name ∧ key ≠ [] ∧ name ≠ [] := by
  constructor
  · intro h
    obtain ⟨key', name', hsplits, hkey, hname⟩ := wellFormed_iff.mpr (Option.isSome_of_eq_some h)
    rw [hsplits.splitMethodKey, if_neg (not_or.mpr ⟨hkey, hname⟩)] at h
    cases h
    exact ⟨hsplits, hkey, hname⟩
  · rintro ⟨hsplits, hkey, hname⟩
    rw [hsplits.splitMethodKey, if_neg (not_or.mpr ⟨hkey, hname⟩)]

section Lookup

variable {catalog : Option ServiceCatalog} {c : ServiceCatalog}

theorem Finds.splitMethodKey (hbuilt : ∀ c ∈ catalog, Built c) {typeName : JsString}
    {descMethod : DescMethod} (h : Finds catalog method typeName descMethod) :
    splitMethodKey method = some (typeName, descMethod.name) := by
  obtain ⟨hsplits, c, hc, service, hmem, -⟩ := h
  have htypeName : typeName = service.typeName := (hbuilt c hc).keyed.typeName _ hmem
  have hkey : typeName ≠ [] := by
    rw [htypeName]
    exact service.named.1
  exact splitMethodKey_eq_some.mpr ⟨hsplits, hkey, descMethod.named.1⟩

theorem documented_unimplemented {message : JsString}
    (hconfigured : ¬ (catalog = none ∧ WellFormed method))
    (hfinds : ∀ typeName descMethod, ¬ Finds catalog method typeName descMethod) :
    Documented catalog method
      (.error (.connectError .unimplemented message) : Except (CallError E) _) := by
  constructor
  · intro typeName descMethod
    exact iff_of_false (fun h => nomatch h) (hfinds typeName descMethod)
  · intro error herror
    exact ⟨_, message, (Except.error.inj herror).symm, .inr ⟨rfl, hconfigured⟩⟩

theorem not_documented_typeError :
    ¬ Documented catalog method (.error .typeError : Except (CallError E) _) := by
  intro h
  obtain ⟨code, message, herror, -⟩ := h.throws _ rfl
  cases herror

/-- Without a well-formed key, or without a catalog, the lookup is as documented. -/
theorem documented_of_split_eq_none (hbuilt : ∀ c ∈ catalog, Built c) (caller : JsString)
    (hsplit : splitMethodKey method = none) :
    Documented catalog method (lookupCatalogMethod (E := E) catalog method caller) := by
  have hmalformed : ¬ WellFormed method := by
    rw [wellFormed_iff, hsplit]
    exact Bool.false_ne_true
  rw [lookupCatalogMethod, hsplit]
  apply documented_unimplemented fun h => hmalformed h.2
  intro typeName descMethod hfinds
  have hsome := hfinds.splitMethodKey hbuilt
  rw [hsplit] at hsome
  cases hsome

theorem documented_of_no_catalog (caller : JsString)
    (hsplit : splitMethodKey method = some (key, name)) :
    Documented none method (lookupCatalogMethod (E := E) none method caller) := by
  have hformed : WellFormed method := wellFormed_iff.mpr (by rw [hsplit]; rfl)
  rw [lookupCatalogMethod, hsplit]
  constructor
  · intro typeName descMethod
    refine iff_of_false (fun h => nomatch h) ?_
    rintro ⟨-, c, hc, -⟩
    cases hc
  · intro error herror
    exact ⟨_, _, (Except.error.inj herror).symm, .inl ⟨rfl, rfl, hformed⟩⟩

theorem finds_iff (hbuilt : Built c) (hsplit : splitMethodKey method = some (key, name))
    {typeName : JsString} {descMethod : DescMethod} :
    Finds (some c) method typeName descMethod ↔ typeName = key ∧ descMethod.name = name ∧
      ∃ service, (key, service) ∈ c.entries ∧ descMethod ∈ service.methods := by
  constructor
  · intro h
    have hsome : ∀ c' ∈ some c, Built c' := fun c' hc' => Option.some.inj hc' ▸ hbuilt
    have hparts := h.splitMethodKey hsome
    rw [hsplit] at hparts
    obtain ⟨rfl, rfl⟩ := Prod.mk.inj (Option.some.inj hparts)
    obtain ⟨-, c', hc', service, hmem, hmethod⟩ := h
    obtain rfl := Option.some.inj hc'
    exact ⟨rfl, rfl, service, hmem, hmethod⟩
  · rintro ⟨rfl, rfl, service, hmem, hmethod⟩
    exact ⟨(splitMethodKey_eq_some.mp hsplit).1, c, rfl, service, hmem, hmethod⟩

/-- The search in a descriptor. -/
theorem lookup_service {service : DescService} (caller : JsString)
    (hsplit : splitMethodKey method = some (key, name)) (hget : c.get key = .service service) :
    (∃ descMethod ∈ service.methods, descMethod.name = name ∧
      lookupCatalogMethod (E := E) (some c) method caller = .ok (key, descMethod)) ∨
    (name ∉ service.methods.map DescMethod.name ∧ ∃ message,
      lookupCatalogMethod (E := E) (some c) method caller =
        .error (.connectError .unimplemented message)) := by
  rw [lookupCatalogMethod, hsplit]
  dsimp only
  rw [hget]
  dsimp only
  split
  next hnone =>
    refine .inr ⟨fun hname => ?_, _, rfl⟩
    obtain ⟨descMethod, hmem, rfl⟩ := List.mem_map.mp hname
    exact List.find?_eq_none.mp hnone descMethod hmem (decide_eq_true rfl)
  next descMethod hfind =>
    have hname := List.find?_some hfind
    exact .inl ⟨descMethod, List.mem_of_find?_eq_some hfind, of_decide_eq_true hname, rfl⟩

/-- Under a key of its own a built catalog is searched as documented. -/
theorem documented_of_mem (hbuilt : Built c) (caller : JsString)
    (hsplit : splitMethodKey method = some (key, name)) (hkey : key ∈ c.keys) :
    Documented (some c) method (lookupCatalogMethod (E := E) (some c) method caller) := by
  obtain ⟨⟨key, service⟩, hmem, rfl⟩ := List.mem_map.mp hkey
  have hget := hbuilt.keyed.get_of_mem hmem
  have hfinds : ∀ typeName descMethod, Finds (some c) method typeName descMethod ↔
      typeName = key ∧ descMethod.name = name ∧ descMethod ∈ service.methods := by
    intro typeName descMethod
    rw [finds_iff hbuilt hsplit]
    constructor
    · rintro ⟨htypeName, hname, service', hmem', hmethod⟩
      have hsame := hbuilt.keyed.get_of_mem hmem'
      rw [hget] at hsame
      obtain rfl := Property.service.inj hsame
      exact ⟨htypeName, hname, hmethod⟩
    · rintro ⟨htypeName, hname, hmethod⟩
      exact ⟨htypeName, hname, service, hmem, hmethod⟩
  rcases lookup_service (E := E) caller hsplit hget with
    ⟨descMethod, hmethod, hname, hlookup⟩ | ⟨hname, message, hlookup⟩
  · rw [hlookup]
    constructor
    · intro typeName descMethod'
      rw [hfinds]
      constructor
      · intro h
        cases h
        exact ⟨rfl, hname, hmethod⟩
      · rintro ⟨rfl, hname', hmethod'⟩
        have hsame := find?_of_mem service.nodup hmethod
        rw [hname, ← hname', find?_of_mem service.nodup hmethod'] at hsame
        rw [Option.some.inj hsame]
    · intro error herror
      cases herror
  · rw [hlookup]
    apply documented_unimplemented (by simp)
    intro typeName descMethod h
    obtain ⟨-, rfl, hmethod⟩ := (hfinds typeName descMethod).mp h
    exact hname (List.mem_map_of_mem hmethod)

theorem not_finds_of_notMem (hbuilt : Built c)
    (hsplit : splitMethodKey method = some (key, name)) (hkey : key ∉ c.keys)
    (typeName : JsString) (descMethod : DescMethod) :
    ¬ Finds (some c) method typeName descMethod := by
  rw [finds_iff hbuilt hsplit]
  rintro ⟨-, -, service, hmem, -⟩
  exact hkey (List.mem_map_of_mem (f := Prod.fst) hmem)

theorem documented_undefined (hbuilt : Built c) (caller : JsString)
    (hsplit : splitMethodKey method = some (key, name)) (hkey : key ∉ c.keys)
    (hget : c.get key = .undefined) :
    Documented (some c) method (lookupCatalogMethod (E := E) (some c) method caller) := by
  rw [lookupCatalogMethod, hsplit]
  dsimp only
  rw [hget]
  exact documented_unimplemented (by simp) (not_finds_of_notMem hbuilt hsplit hkey)

theorem not_documented_other (caller : JsString)
    (hsplit : splitMethodKey method = some (key, name)) (hget : c.get key = .other) :
    ¬ Documented (some c) method
      (lookupCatalogMethod (E := E) (some c) method caller) := by
  rw [lookupCatalogMethod, hsplit]
  dsimp only
  rw [hget]
  exact not_documented_typeError

/-- A descriptor that is inherited is as documented where it does not have the method. -/
theorem documented_inherited_iff (hbuilt : Built c) (caller : JsString)
    (hsplit : splitMethodKey method = some (key, name)) (hkey : key ∉ c.keys)
    {service : DescService} (hget : c.get key = .service service) :
    Documented (some c) method (lookupCatalogMethod (E := E) (some c) method caller) ↔
      name ∉ service.methods.map DescMethod.name := by
  have hnone := not_finds_of_notMem hbuilt hsplit hkey
  rcases lookup_service (E := E) caller hsplit hget with
    ⟨descMethod, hmethod, hname, hlookup⟩ | ⟨hname, message, hlookup⟩
  · rw [hlookup]
    refine iff_of_false (fun h => hnone _ _ ((h.returns key descMethod).mp rfl)) ?_
    rw [not_not, ← hname]
    exact List.mem_map_of_mem hmethod
  · rw [hlookup]
    exact iff_of_true (documented_unimplemented (by simp) hnone) hname

/-- Under any other key the lookup is as documented where nothing is inherited. -/
theorem documented_iff_of_notMem (hbuilt : Built c) (caller : JsString)
    (hsplit : splitMethodKey method = some (key, name)) (hkey : key ∉ c.keys) :
    Documented (some c) method (lookupCatalogMethod (E := E) (some c) method caller) ↔
      ¬ c.Inherits key name := by
  have hget := get_of_notMem hkey
  unfold ServiceCatalog.Inherits
  rw [not_and, forall_prop_of_true hkey]
  cases hprototype : c.prototype with
  | none =>
    rw [hprototype] at hget
    dsimp only at hget ⊢
    by_cases hname : key ∈ objectPrototype
    · rw [if_pos hname] at hget
      exact iff_of_false (not_documented_other caller hsplit hget) (not_not.mpr hname)
    · rw [if_neg hname] at hget
      exact iff_of_true (documented_undefined hbuilt caller hsplit hkey hget) hname
  | some descriptor =>
    rw [hprototype] at hget
    dsimp only at hget ⊢
    by_cases hproto : key = js "__proto__"
    · rw [if_pos hproto] at hget ⊢
      exact documented_inherited_iff hbuilt caller hsplit hkey hget
    · rw [if_neg hproto] at hget ⊢
      by_cases hname : key ∈ descServiceFields ∨ key ∈ objectPrototype
      · rw [if_pos hname] at hget
        exact iff_of_false (not_documented_other caller hsplit hget) (not_not.mpr hname)
      · rw [if_neg hname] at hget
        exact iff_of_true (documented_undefined hbuilt caller hsplit hkey hget) hname

/-- The lookup is as documented if and only if the key is one that the catalog has itself, or does
not inherit. -/
theorem lookupCatalogMethod_documented_iff (catalog : Option ServiceCatalog)
    (hbuilt : ∀ c ∈ catalog, Built c) (method caller : JsString) :
    Documented catalog method (lookupCatalogMethod (E := E) catalog method caller) ↔
      ∀ c ∈ catalog, ∀ key name, splitMethodKey method = some (key, name) →
        ¬ c.Inherits key name := by
  cases hsplit : splitMethodKey method with
  | none =>
    exact iff_of_true (documented_of_split_eq_none hbuilt caller hsplit)
      fun c _ key name hsome => nomatch hsome
  | some parts =>
    obtain ⟨key, name⟩ := parts
    cases catalog with
    | none =>
      exact iff_of_true (documented_of_no_catalog caller hsplit) fun c hc => nomatch hc
    | some c =>
      have hc : Built c := hbuilt c rfl
      have hcondition : (∀ c' ∈ some c, ∀ key' name', some (key, name) = some (key', name') →
          ¬ c'.Inherits key' name') ↔ ¬ c.Inherits key name := by
        constructor
        · exact fun h => h c rfl key name rfl
        · intro h c' hc' key' name' hparts
          obtain rfl := Option.some.inj hc'
          obtain ⟨rfl, rfl⟩ := Prod.mk.inj (Option.some.inj hparts)
          exact h
      rw [hcondition]
      by_cases hkey : key ∈ c.keys
      · exact iff_of_true (documented_of_mem hc caller hsplit hkey) fun h => h.1 hkey
      · exact documented_iff_of_notMem hc caller hsplit hkey

def orders : DescService where
  typeName := js "orders.v1.OrdersService"
  methods := [⟨js "GetOrder", .unary, by decide⟩, ⟨js "WatchOrders", .serverStreaming, by decide⟩]

def ordersCatalog : ServiceCatalog := { entries := [(orders.typeName, orders)] }

theorem lookupCatalogMethod_documented_iff_orders :
    defineCatalog [(orders.typeName, orders)] = .ok ordersCatalog ∧
    (Documented (some ordersCatalog) (js "orders.v1.OrdersService/GetOrder")
      (lookupCatalogMethod (E := Unit) (some ordersCatalog)
        (js "orders.v1.OrdersService/GetOrder")) ↔
      ∀ c ∈ some ordersCatalog, ∀ key name,
        splitMethodKey (js "orders.v1.OrdersService/GetOrder") = some (key, name) →
          ¬ c.Inherits key name) := by
  refine ⟨rfl, lookupCatalogMethod_documented_iff (some ordersCatalog) ?_ _ _⟩
  intro c hc
  obtain rfl := Option.some.inj hc
  exact .inl ⟨[(orders.typeName, orders)], by decide, rfl⟩

/-- An inherited name is found, and is no descriptor. -/
theorem inherited_key_throws_typeError :
    defineCatalog [(orders.typeName, orders)] = .ok ordersCatalog ∧
    lookupCatalogMethod (E := Unit) (some ordersCatalog) (js "constructor/GetOrder") =
      .error .typeError ∧
    ¬ Documented (some ordersCatalog) (js "constructor/GetOrder")
      (lookupCatalogMethod (E := Unit) (some ordersCatalog) (js "constructor/GetOrder")) :=
  ⟨rfl, rfl, not_documented_typeError⟩

end Lookup

end Connectum.Core.Catalog
