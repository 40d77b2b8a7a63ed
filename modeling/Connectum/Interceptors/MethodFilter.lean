import Connectum.Auth.Interceptor
import Connectum.JsMap
import Connectum.Loop
import Mathlib.Data.List.Perm.Basic

/-! The method filter interceptor against the pattern language of the auth package. -/
namespace Connectum.Interceptors
open JsString
open Connectum.Auth (matchesPattern matchesMethodPattern)

/-- `rest` is what a request holds besides the names of its method. -/
structure Request (Rest : Type) where
  typeName : JsString
  methodName : JsString
  rest : Rest

/-- Promises are values of `m`, with their effects and rejections. -/
abbrev AnyRpcFn (m : Type → Type) (Rest Response : Type) := Request Rest → m Response

/-- The application of an interceptor may have effects of its own, or throw. -/
abbrev Interceptor (m : Type → Type) (Rest Response : Type) :=
  AnyRpcFn m Rest Response → m (AnyRpcFn m Rest Response)

/-- The entries of the record, whose keys are distinct, in their order. -/
abbrev MethodFilterMap (m : Type → Type) (Rest Response : Type) :=
  List (JsString × List (Interceptor m Rest Response))

structure PatternGroups (m : Type → Type) (Rest Response : Type) where
  globalInterceptors : List (Interceptor m Rest Response) := []
  serviceMap : List (JsString × List (Interceptor m Rest Response)) := []
  exactMap : List (JsString × List (Interceptor m Rest Response)) := []

variable {m : Type → Type} {Rest Response : Type}

section Arrays

variable {K V : Type} [DecidableEq K]

/-- The items of `map.get(key)`, if it is there. -/
def itemsAt (map : List (K × List V)) (key : K) : List V := (map.lookup key).getD []

/-- `existing.push(...items)`, or `map.set(key, [...items])` where there is none. -/
def pushAt (map : List (K × List V)) (key : K) (items : List V) : List (K × List V) :=
  match map.lookup key with
  | some existing => JsMap.set map key (existing ++ items)
  | none => JsMap.set map key items

theorem itemsAt_set (map : List (K × List V)) (key other : K) (items : List V) :
    itemsAt (JsMap.set map key items) other = if other = key then items else itemsAt map other := by
  unfold itemsAt
  split
  next h => rw [h, JsMap.lookup_set_self, Option.getD_some]
  next h => rw [JsMap.lookup_set_of_ne h]

theorem itemsAt_pushAt (map : List (K × List V)) (key other : K) (items : List V) :
    itemsAt (pushAt map key items) other =
      itemsAt map other ++ if other = key then items else [] := by
  have hset (value : List V) (hvalue : value = itemsAt map key ++ items) :
      itemsAt (JsMap.set map key value) other =
        itemsAt map other ++ if other = key then items else [] := by
    rw [itemsAt_set]
    split
    next h => rw [hvalue, h]
    next => rw [List.append_nil]
  unfold pushAt
  split
  next existing hlookup =>
    apply hset
    rw [itemsAt, hlookup, Option.getD_some]
  next hlookup =>
    apply hset
    rw [itemsAt, hlookup, Option.getD_none, List.nil_append]

end Arrays

def invalidPattern (pattern : JsString) (detail : String) : JsString :=
  js "Invalid method filter pattern: \"" ++ pattern ++ js "\". " ++ js detail

/-- One turn of the loop of `parsePatterns`. -/
def addPattern (groups : PatternGroups m Rest Response) (pattern : JsString)
    (interceptors : List (Interceptor m Rest Response)) :
    Except JsString (PatternGroups m Rest Response) :=
  if pattern = js "*" then
    .ok { groups with globalInterceptors := groups.globalInterceptors ++ interceptors }
  else if js "/*" <:+ pattern then
    let serviceName := pattern.take (pattern.length - 2)
    if serviceName.length = 0 then
      .error (invalidPattern pattern "Service name before \"/*\" must not be empty.")
    else .ok { groups with serviceMap := pushAt groups.serviceMap serviceName interceptors }
  else if unit '/' ∈ pattern then
    .ok { groups with exactMap := pushAt groups.exactMap pattern interceptors }
  else
    .error (invalidPattern pattern "Expected \"*\", \"Service/*\", or \"Service/Method\".")

def parsePatterns (methods : MethodFilterMap m Rest Response) :
    Except JsString (PatternGroups m Rest Response) :=
  methods.foldlM (fun groups e => addPattern groups e.1 e.2) {}

section Monad

variable [Monad m]

/-- The loop of `composeInterceptors`, from the index before `i` down. -/
def composeFrom (interceptors : List (Interceptor m Rest Response)) :
    ℕ → AnyRpcFn m Rest Response → m (AnyRpcFn m Rest Response)
  | 0, handler => pure handler
  | i + 1, handler =>
    match interceptors[i]? with
    | some current => current handler >>= composeFrom interceptors i
    | none => composeFrom interceptors i handler

def composeInterceptors (interceptors : List (Interceptor m Rest Response)) :
    Interceptor m Rest Response :=
  composeFrom interceptors interceptors.length

def PatternGroups.matched (groups : PatternGroups m Rest Response) (req : Request Rest) :
    List (Interceptor m Rest Response) :=
  groups.globalInterceptors ++ itemsAt groups.serviceMap req.typeName ++
    itemsAt groups.exactMap (req.typeName ++ js "/" ++ req.methodName)

/-- The handler that the filter makes of `next`. -/
def PatternGroups.handle (groups : PatternGroups m Rest Response)
    (next : AnyRpcFn m Rest Response) (req : Request Rest) : m Response :=
  if (groups.matched req).length = 0 then next req
  else do
    let handler ← composeInterceptors (groups.matched req) next
    handler req

def createMethodFilterInterceptor (methods : MethodFilterMap m Rest Response) :
    Except JsString (Interceptor m Rest Response) := do
  let groups ← parsePatterns methods
  .ok fun next => pure (groups.handle next)

/-- The interceptors of a list as one, each around the ones after it. -/
def nested : List (Interceptor m Rest Response) → Interceptor m Rest Response
  | [] => pure
  | current :: rest => fun next => nested rest next >>= current

/-- A request to the handler that an interceptor makes of `next`. -/
def Interceptor.call (interceptor : Interceptor m Rest Response) (next : AnyRpcFn m Rest Response)
    (req : Request Rest) : m Response :=
  interceptor next >>= fun handler => handler req

end Monad

/-- The place of a pattern in the nesting: global, then of a service, then exact. -/
def stage (pattern : JsString) : ℕ :=
  if pattern = js "*" then 0 else if js "/*" <:+ pattern then 1 else 2

/-- The interceptors of the entries whose pattern passes the test. -/
def collected {V : Type} (entries : List (JsString × List V)) (p : JsString → Bool) : List V :=
  (entries.filter fun e => p e.1).flatMap Prod.snd

section Collected

variable {V : Type} {p : JsString → Bool} {entries : List (JsString × List V)}
  {pattern : JsString} {items : List V}

theorem collected_append (entries' : List (JsString × List V)) :
    collected (entries ++ entries') p = collected entries p ++ collected entries' p := by
  unfold collected
  rw [List.filter_append, List.flatMap_append]

theorem collected_singleton :
    collected [(pattern, items)] p = if p pattern then items else [] := by
  unfold collected
  by_cases hp : p pattern = true <;> simp [hp]

theorem collected_append_of_neg (hp : ¬ p pattern = true) :
    collected (entries ++ [(pattern, items)]) p = collected entries p := by
  rw [collected_append, collected_singleton, if_neg hp, List.append_nil]

end Collected

theorem eq_append_iff {serviceName pattern : JsString} :
    pattern = serviceName ++ js "/*" ↔
      js "/*" <:+ pattern ∧ serviceName = pattern.take (pattern.length - 2) := by
  have hlength : (js "/*").length = 2 := rfl
  constructor
  · rintro rfl
    refine ⟨List.suffix_append _ _, ?_⟩
    rw [List.length_append, hlength, Nat.add_sub_cancel, List.take_left]
  · rintro ⟨⟨before, rfl⟩, rfl⟩
    rw [List.length_append, hlength, Nat.add_sub_cancel, List.take_left]

/-- What the three indexes hold after some of the entries. -/
structure Indexed (entries : MethodFilterMap m Rest Response)
    (groups : PatternGroups m Rest Response) : Prop where
  globals : groups.globalInterceptors = collected entries fun pattern => pattern = js "*"
  services : ∀ serviceName, itemsAt groups.serviceMap serviceName =
    collected entries fun pattern => pattern = serviceName ++ js "/*"
  exacts : ∀ key, key ≠ js "*" → ¬ js "/*" <:+ key →
    itemsAt groups.exactMap key = collected entries fun pattern => pattern = key

theorem indexed_nil : Indexed ([] : MethodFilterMap m Rest Response) {} :=
  ⟨rfl, fun _ => rfl, fun _ _ _ => rfl⟩

section Turn

variable {entries : MethodFilterMap m Rest Response} {groups groups' : PatternGroups m Rest Response}
  {pattern : JsString} {interceptors : List (Interceptor m Rest Response)}

theorem addPattern_cases (h : addPattern groups pattern interceptors = .ok groups') :
    (pattern = js "*" ∧
      groups' = { groups with globalInterceptors := groups.globalInterceptors ++ interceptors }) ∨
    (pattern ≠ js "*" ∧ js "/*" <:+ pattern ∧
      groups' = { groups with
        serviceMap := pushAt groups.serviceMap (pattern.take (pattern.length - 2)) interceptors }) ∨
    (pattern ≠ js "*" ∧ ¬ js "/*" <:+ pattern ∧
      groups' = { groups with exactMap := pushAt groups.exactMap pattern interceptors }) := by
  unfold addPattern at h
  simp only at h
  split at h
  next hglobal => exact .inl ⟨hglobal, (Except.ok.inj h).symm⟩
  next hglobal =>
    split at h
    next hservice =>
      split at h
      next => cases h
      next => exact .inr (.inl ⟨hglobal, hservice, (Except.ok.inj h).symm⟩)
    next hservice =>
      split at h
      next => exact .inr (.inr ⟨hglobal, hservice, (Except.ok.inj h).symm⟩)
      next => cases h

theorem star_ne_append (serviceName : JsString) : js "*" ≠ serviceName ++ js "/*" := by
  intro heq
  have hlength := congrArg List.length heq
  rw [List.length_append] at hlength
  have htwo : (js "/*").length = 2 := rfl
  have hone : (js "*").length = 1 := rfl
  omega

theorem Indexed.addGlobal (h : Indexed entries groups) :
    Indexed (entries ++ [(js "*", interceptors)])
      { groups with globalInterceptors := groups.globalInterceptors ++ interceptors } := by
  constructor
  · show groups.globalInterceptors ++ interceptors = _
    rw [collected_append, collected_singleton, h.globals, decide_eq_true rfl, if_pos rfl]
  · intro serviceName
    show itemsAt groups.serviceMap serviceName = _
    rw [collected_append_of_neg (by simpa using star_ne_append serviceName)]
    exact h.services serviceName
  · intro key hkey hsuffix
    show itemsAt groups.exactMap key = _
    rw [collected_append_of_neg (by simpa using hkey.symm)]
    exact h.exacts key hkey hsuffix

theorem Indexed.addService (h : Indexed entries groups) (hglobal : pattern ≠ js "*")
    (hservice : js "/*" <:+ pattern) :
    Indexed (entries ++ [(pattern, interceptors)])
      { groups with
        serviceMap := pushAt groups.serviceMap (pattern.take (pattern.length - 2)) interceptors } := by
  constructor
  · show groups.globalInterceptors = _
    rw [collected_append_of_neg (by simpa using hglobal)]
    exact h.globals
  · intro serviceName
    show itemsAt (pushAt groups.serviceMap _ interceptors) serviceName = _
    rw [itemsAt_pushAt, collected_append, collected_singleton, h.services]
    simp only [decide_eq_true_eq, eq_append_iff, hservice, true_and]
  · intro key hkey hsuffix
    have hne : pattern ≠ key := fun heq => hsuffix (heq ▸ hservice)
    show itemsAt groups.exactMap key = _
    rw [collected_append_of_neg (by simpa using hne)]
    exact h.exacts key hkey hsuffix

theorem Indexed.addExact (h : Indexed entries groups) (hglobal : pattern ≠ js "*")
    (hservice : ¬ js "/*" <:+ pattern) :
    Indexed (entries ++ [(pattern, interceptors)])
      { groups with exactMap := pushAt groups.exactMap pattern interceptors } := by
  constructor
  · show groups.globalInterceptors = _
    rw [collected_append_of_neg (by simpa using hglobal)]
    exact h.globals
  · intro serviceName
    have hne : pattern ≠ serviceName ++ js "/*" := fun heq => hservice (eq_append_iff.mp heq).1
    show itemsAt groups.serviceMap serviceName = _
    rw [collected_append_of_neg (by simpa using hne)]
    exact h.services serviceName
  · intro key hkey hsuffix
    show itemsAt (pushAt groups.exactMap pattern interceptors) key = _
    rw [itemsAt_pushAt, collected_append, collected_singleton, h.exacts key hkey hsuffix]
    simp only [decide_eq_true_eq, eq_comm (a := key)]

/-- A turn of the loop adds the interceptors to the one index that the pattern belongs to. -/
theorem Indexed.addPattern (h : Indexed entries groups)
    (hadd : addPattern groups pattern interceptors = .ok groups') :
    Indexed (entries ++ [(pattern, interceptors)]) groups' := by
  obtain ⟨rfl, rfl⟩ | ⟨hglobal, hservice, rfl⟩ | ⟨hglobal, hservice, rfl⟩ := addPattern_cases hadd
  · exact h.addGlobal
  · exact h.addService hglobal hservice
  · exact h.addExact hglobal hservice

end Turn

theorem indexed_parsePatterns {methods : MethodFilterMap m Rest Response}
    {groups : PatternGroups m Rest Response} (h : parsePatterns methods = .ok groups) :
    Indexed methods groups :=
  Loop.foldlM_history (fun _ _ _ _ hindexed hadd => hindexed.addPattern hadd) indexed_nil h

section Composition

variable [Monad m] [LawfulMonad m]

theorem nested_append_singleton (interceptors : List (Interceptor m Rest Response))
    (current : Interceptor m Rest Response) (handler : AnyRpcFn m Rest Response) :
    nested (interceptors ++ [current]) handler = current handler >>= nested interceptors := by
  induction interceptors with
  | nil =>
    show pure handler >>= current = current handler >>= pure
    rw [pure_bind, bind_pure]
  | cons first rest ih =>
    show nested (rest ++ [current]) handler >>= first = _
    rw [ih, bind_assoc]
    rfl

/-- The loop leaves the interceptors from the index on to the handler it starts with. -/
theorem composeFrom_eq (interceptors : List (Interceptor m Rest Response)) {i : ℕ}
    (hi : i ≤ interceptors.length) (handler : AnyRpcFn m Rest Response) :
    composeFrom interceptors i handler = nested (interceptors.take i) handler := by
  induction i generalizing handler with
  | zero => rfl
  | succ i ih =>
    have hlt : i < interceptors.length := hi
    have hget : interceptors[i]? = some interceptors[i] := List.getElem?_eq_getElem hlt
    rw [composeFrom, hget, List.take_succ_eq_append_getElem hlt, nested_append_singleton]
    show interceptors[i] handler >>= composeFrom interceptors i = _
    rw [funext (ih (by omega))]

theorem composeInterceptors_eq (interceptors : List (Interceptor m Rest Response)) :
    composeInterceptors interceptors = nested interceptors := by
  funext handler
  rw [composeInterceptors, composeFrom_eq interceptors le_rfl, List.take_length]

theorem PatternGroups.handle_eq (groups : PatternGroups m Rest Response)
    (next : AnyRpcFn m Rest Response) (req : Request Rest) :
    groups.handle next req = Interceptor.call (nested (groups.matched req)) next req := by
  unfold PatternGroups.handle Interceptor.call
  split
  next hnone =>
    rw [List.eq_nil_of_length_eq_zero hnone, nested, pure_bind]
  next => rw [composeInterceptors_eq]

end Composition

section Selection

variable {V : Type} {methods : List (JsString × List V)} {serviceName methodName : JsString}

/-- The patterns that accept a method, in the order of their stages. -/
def acceptingPatterns (serviceName methodName : JsString) : List JsString :=
  [js "*", serviceName ++ js "/*", serviceName ++ js "/" ++ methodName]

theorem matchesMethodPattern_singleton (pattern : JsString) :
    matchesMethodPattern serviceName methodName [pattern] =
      decide (pattern ∈ acceptingPatterns serviceName methodName) := by
  rw [Bool.eq_iff_iff, decide_eq_true_eq, acceptingPatterns, matchesMethodPattern, List.any_cons,
    List.any_nil, Bool.or_false, matchesPattern, Bool.or_eq_true, Bool.or_eq_true,
    Bool.and_eq_true, decide_eq_true_eq, decide_eq_true_eq, decide_eq_true_eq,
    List.isSuffixOf_iff_suffix, ← eq_append_iff]
  simp only [List.mem_cons, List.not_mem_nil, or_false]
  tauto

theorem key_ne_star (serviceName methodName : JsString) :
    serviceName ++ js "/" ++ methodName ≠ js "*" := by
  intro heq
  have hslash : unit '/' ∈ serviceName ++ js "/" ++ methodName := by simp [js, codeUnits, unit]
  rw [heq] at hslash
  exact absurd hslash (by decide)

theorem not_suffix_key (hname : unit '*' ∉ methodName) :
    ¬ js "/*" <:+ serviceName ++ js "/" ++ methodName := by
  rintro ⟨before, heq⟩
  have hstar : (before ++ js "/*").getLast? = some (unit '*') := by
    rw [List.getLast?_append]
    rfl
  rw [heq, List.getLast?_append] at hstar
  cases hlast : methodName.getLast? with
  | none =>
    rw [hlast, Option.none_or, List.getLast?_append] at hstar
    exact absurd (Option.some.inj hstar) (by decide)
  | some last =>
    rw [hlast, Option.some_or] at hstar
    exact hname (List.mem_of_getLast? (hlast.trans hstar))

theorem stage_acceptingPatterns (serviceName : JsString) (hname : unit '*' ∉ methodName) :
    (acceptingPatterns serviceName methodName).map stage = [0, 1, 2] := by
  simp only [acceptingPatterns, List.map_cons, List.map_nil]
  rw [stage, if_pos rfl, stage, if_neg (star_ne_append serviceName).symm,
    if_pos (List.suffix_append _ _), stage, if_neg (key_ne_star serviceName methodName),
    if_neg (not_suffix_key hname)]

/-- The entries of some keys, key by key, are those entries in another order. -/
theorem flatMap_filter_perm (methods : List (JsString × List V)) {keys : List JsString}
    (hkeys : keys.Nodup) :
    (keys.flatMap fun key => methods.filter fun e => e.1 = key).Perm
      (methods.filter fun e => e.1 ∈ keys) := by
  induction keys with
  | nil => simp
  | cons key keys ih =>
    obtain ⟨hkey, hkeys⟩ := List.nodup_cons.mp hkeys
    have hsplit := List.filter_append_perm (fun e => decide (e.1 = key))
      (methods.filter fun e => decide (e.1 ∈ key :: keys))
    rw [List.flatMap_cons]
    refine (List.Perm.append (.of_eq ?_) ((ih hkeys).trans (.of_eq ?_))).trans hsplit
    · rw [List.filter_filter]
      apply List.filter_congr
      intro e _
      by_cases he : e.1 = key <;> simp [he]
    · rw [List.filter_filter]
      apply List.filter_congr
      intro e _
      by_cases he : e.1 = key <;> simp [he, hkey]

/-- Among distinct keys, the entries of keys in increasing stages are in increasing stages. -/
theorem pairwise_stage {keys : List JsString} (hnodup : (methods.map Prod.fst).Nodup)
    (hkeys : keys.Pairwise fun key key' => stage key < stage key') :
    (keys.flatMap fun key => methods.filter fun e => e.1 = key).Pairwise
      fun e e' => stage e.1 < stage e'.1 := by
  rw [List.pairwise_flatMap]
  constructor
  · intro key _
    have hne : (methods.filter fun e => e.1 = key).Pairwise fun e e' => e.1 ≠ e'.1 :=
      (List.pairwise_map.mp hnodup).filter _
    refine hne.imp_of_mem fun {e e'} he he' hne => absurd ?_ hne
    have heq : e.1 = key := by simpa using (List.mem_filter.mp he).2
    have heq' : e'.1 = key := by simpa using (List.mem_filter.mp he').2
    rw [heq, heq']
  · refine hkeys.imp fun {key key'} hlt e he e' he' => ?_
    have heq : e.1 = key := by simpa using (List.mem_filter.mp he).2
    have heq' : e'.1 = key' := by simpa using (List.mem_filter.mp he').2
    rwa [heq, heq']

end Selection

/-- The filter collects the entries of the three patterns that accept the method. -/
theorem Indexed.matched_eq {methods : MethodFilterMap m Rest Response}
    {groups : PatternGroups m Rest Response} (h : Indexed methods groups) {req : Request Rest}
    (hname : unit '*' ∉ req.methodName) :
    groups.matched req = ((acceptingPatterns req.typeName req.methodName).flatMap fun key =>
      methods.filter fun e => e.1 = key).flatMap Prod.snd := by
  unfold PatternGroups.matched acceptingPatterns
  rw [h.globals, h.services, h.exacts _ (key_ne_star _ _) (not_suffix_key hname)]
  simp [collected]

section Filter

variable [Monad m] [LawfulMonad m] {methods : MethodFilterMap m Rest Response}
  {interceptor : Interceptor m Rest Response}

theorem exists_groups (h : createMethodFilterInterceptor methods = .ok interceptor) :
    ∃ groups, Indexed methods groups ∧
      ∀ next req, interceptor.call next req = (nested (groups.matched req)).call next req := by
  unfold createMethodFilterInterceptor at h
  cases hparse : parsePatterns methods with
  | error message =>
    rw [hparse] at h
    cases h
  | ok groups =>
    rw [hparse] at h
    obtain rfl := Except.ok.inj h
    refine ⟨groups, indexed_parsePatterns hparse, fun next req => ?_⟩
    rw [Interceptor.call, pure_bind, groups.handle_eq]

/-- On a method whose name has no `*` the filter is the nesting of the interceptors of exactly the
patterns that accept the method, by their stages. -/
theorem methodFilter_nested (hnodup : (methods.map Prod.fst).Nodup)
    (hcreate : createMethodFilterInterceptor methods = .ok interceptor)
    (next : AnyRpcFn m Rest Response) (req : Request Rest) (hname : unit '*' ∉ req.methodName) :
    (∃ matched : MethodFilterMap m Rest Response,
      matched.Perm (methods.filter fun e =>
        matchesMethodPattern req.typeName req.methodName [e.1]) ∧
      matched.Pairwise (fun e e' => stage e.1 < stage e'.1) ∧
      interceptor.call next req = (nested (matched.flatMap Prod.snd)).call next req) ∧
    (matchesMethodPattern req.typeName req.methodName (methods.map Prod.fst) = false →
      interceptor.call next req = next req) := by
  obtain ⟨groups, hindexed, hcall⟩ := exists_groups hcreate
  have hstages := stage_acceptingPatterns req.typeName hname
  have hkeys : (acceptingPatterns req.typeName req.methodName).Pairwise
      fun key key' => stage key < stage key' := by
    apply List.pairwise_map.mp
    rw [hstages]
    decide
  have hperm := flatMap_filter_perm methods
    (hkeys.imp fun hlt heq => (ne_of_lt hlt) (congrArg stage heq))
  have haccepts : (methods.filter fun e => decide
      (e.1 ∈ acceptingPatterns req.typeName req.methodName)) =
      methods.filter fun e => matchesMethodPattern req.typeName req.methodName [e.1] := by
    apply List.filter_congr
    intro e _
    exact (matchesMethodPattern_singleton e.1).symm
  rw [haccepts] at hperm
  rw [hcall, hindexed.matched_eq hname]
  constructor
  · exact ⟨_, hperm, pairwise_stage hnodup hkeys, rfl⟩
  · intro hnone
    have hempty : (methods.filter fun e =>
        matchesMethodPattern req.typeName req.methodName [e.1]) = [] := by
      rw [List.filter_eq_nil_iff]
      intro e he hmatches
      have hpattern : matchesPattern req.typeName req.methodName e.1 = true := by
        simpa [matchesMethodPattern] using hmatches
      rw [matchesMethodPattern, List.any_eq_false] at hnone
      exact hnone e.1 (List.mem_map_of_mem he) hpattern
    rw [hempty] at hperm
    rw [hperm.eq_nil, List.flatMap_nil, nested, Interceptor.call, pure_bind]

/-- Interceptors that write their name into a log. -/
def tracking (name : ℕ) : Interceptor (StateM (List ℕ)) Unit Unit :=
  fun next => pure fun req => do
    modify (· ++ [name])
    next req

def trackedMethods : MethodFilterMap (StateM (List ℕ)) Unit Unit :=
  [(js "a.S/M", [tracking 4, tracking 5]), (js "a.T/*", [tracking 6]), (js "*", [tracking 1]),
    (js "a.S/*", [tracking 2, tracking 3])]

theorem methodFilter_nested_tracked : ∃ interceptor,
    createMethodFilterInterceptor trackedMethods = .ok interceptor ∧
    ∃ matched : MethodFilterMap (StateM (List ℕ)) Unit Unit,
      matched.Perm (trackedMethods.filter fun e =>
        matchesMethodPattern (js "a.S") (js "M") [e.1]) ∧
      matched.Pairwise (fun e e' => stage e.1 < stage e'.1) ∧
      interceptor.call (fun _ => pure ()) ⟨js "a.S", js "M", ()⟩ =
        (nested (matched.flatMap Prod.snd)).call (fun _ => pure ()) ⟨js "a.S", js "M", ()⟩ :=
  ⟨_, rfl, (methodFilter_nested (by decide) rfl (fun _ => pure ()) ⟨js "a.S", js "M", ()⟩
    (by decide)).1⟩

example : ((createMethodFilterInterceptor trackedMethods).toOption.map fun interceptor =>
    (interceptor.call (fun _ => modify (· ++ [9])) ⟨js "a.S", js "M", ()⟩ []).2) =
      some [1, 2, 3, 4, 5, 9] := by
  decide

end Filter

end Connectum.Interceptors
