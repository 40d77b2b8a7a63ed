import Connectum.Core.CatalogDispatcher
import Connectum.JsMap
import Connectum.Machine

/-! The transport cache of a catalog client over its whole life. -/
namespace Connectum.Core.Catalog
open JsString Machine

variable {Transport E : Type}

/-- What a resolver is asked for. -/
structure ResolverContext where
  typeName : JsString
  endpoint : Option JsString
  deriving DecidableEq

/-- What a resolver returns or throws. -/
inductive Resolution (Transport E : Type) where
  | transport (t : Transport)
  | null
  | throws (cause : E)

def resolveRemoteTransportOrThrow (resolution : Resolution Transport E)
    (ctx : ResolverContext) (caller : JsString := js "ctx.call") :
    Except (CallError E) Transport :=
  match resolution with
  | .throws cause =>
    .error (.connectError .internal (caller ++ js ": the resolver threw while resolving \"" ++
      ctx.typeName ++ js "\".") (some cause))
  | .null =>
    let location := match ctx.endpoint with
      | some endpoint => js " (endpoint \"" ++ endpoint ++ js "\")"
      | none => []
    .error (.connectError .unavailable (caller ++ js ": no route for \"" ++ ctx.typeName ++
      js "\"" ++ location ++ js ": the resolver returned null."))
  | .transport t => .ok t

inductive Surface where
  | call
  | stream

def Surface.caller : Surface → JsString
  | .call => js "catalogClient.call"
  | .stream => js "catalogClient.stream"

/-- The kinds of methods that a surface admits. -/
def Surface.admit (surface : Surface) (method typeName : JsString) (methodKind : MethodKind) :
    Except (CallError E) JsString :=
  match surface with
  | .call =>
    if methodKind = .unary then .ok typeName
    else .error (.connectError .unimplemented (surface.caller ++ js ": \"" ++ method ++
      js "\" is a streaming method — use client.stream instead."))
  | .stream =>
    if methodKind = .unary then
      .error (.connectError .unimplemented (surface.caller ++ js ": \"" ++ method ++
        js "\" is a unary method — use client.call instead."))
    else .ok typeName

/-- The service that a method key leads to. -/
def Surface.target (surface : Surface) (catalog : ServiceCatalog) (method : JsString) :
    Except (CallError E) JsString :=
  match lookupCatalogMethod (some catalog) method surface.caller with
  | .error error => .error error
  | .ok (typeName, descMethod) => surface.admit method typeName descMethod.methodKind

/-- A call, or the opening of a stream; `resolution` is what the resolver answers if it is asked. -/
structure ClientCall (Transport E : Type) where
  surface : Surface
  method : JsString
  endpoint : Option JsString
  resolution : Resolution Transport E

/-- The context that a call asks a transport for, if it gets so far. -/
def ClientCall.context (call : ClientCall Transport E) (catalog : ServiceCatalog) :
    Option ResolverContext :=
  match (call.surface.target catalog call.method : Except (CallError E) JsString) with
  | .ok typeName => some ⟨typeName, call.endpoint⟩
  | .error _ => none

inductive ClientEvent (Transport E : Type) where
  | asked (ctx : ResolverContext) (resolution : Resolution Transport E)
  | used (ctx : ResolverContext) (t : Transport)
  | failed (error : CallError E)

abbrev TransportCache (Transport : Type) := List (JsString × Transport)

def cacheKey (ctx : ResolverContext) : JsString :=
  ctx.typeName ++ js " " ++ ctx.endpoint.getD []

def TransportCache.get (cache : TransportCache Transport) (key : JsString) : Option Transport :=
  (cache.find? fun e => e.1 = key).map Prod.snd

/-- `resolveTransport` of a client, with what is to be seen of it. -/
def resolveTransport (cache : TransportCache Transport) (ctx : ResolverContext)
    (caller : JsString) (resolution : Resolution Transport E) :
    TransportCache Transport × List (ClientEvent Transport E) :=
  match cache.get (cacheKey ctx) with
  | some cached => (cache, [.used ctx cached])
  | none =>
    match resolveRemoteTransportOrThrow resolution ctx caller with
    | .error error => (cache, [.asked ctx resolution, .failed error])
    | .ok t => (JsMap.set cache (cacheKey ctx) t, [.asked ctx resolution, .used ctx t])

/-- Any order of calls, each with its resolution. -/
def clientStep (catalog : ServiceCatalog) : Machine.Step (TransportCache Transport)
    (ClientCall Transport E) (ClientEvent Transport E) := fun cache call =>
  match (call.surface.target catalog call.method : Except (CallError E) JsString) with
  | .error error => some (cache, [.failed error])
  | .ok typeName =>
    some (resolveTransport cache ⟨typeName, call.endpoint⟩ call.surface.caller call.resolution)

/-- A transport is used for a context only after the resolver returned it for this context. -/
def Grounded (log : List (ClientEvent Transport E)) : ClientEvent Transport E → Prop
  | .used ctx t => .asked ctx (.transport t) ∈ log
  | .asked _ _ | .failed _ => True

/-- The contexts that the resolver succeeded for, with its transports, in their order. -/
def resolved (log : List (ClientEvent Transport E)) : List (ResolverContext × Transport) :=
  log.filterMap fun
    | .asked ctx (.transport t) => some (ctx, t)
    | _ => none

/-- Different contexts in one place of the cache. -/
def Collide (ctx ctx' : ResolverContext) : Prop := ctx ≠ ctx' ∧ cacheKey ctx = cacheKey ctx'

/-- The later call is not for a context that collides with that of an earlier one which the
resolver has a transport for. -/
def Apart (catalog : ServiceCatalog) (call later : ClientCall Transport E) : Prop :=
  ∀ ctx ctx' t, call.context catalog = some ctx → call.resolution = .transport t →
    later.context catalog = some ctx' → ¬ Collide ctx ctx'

/-- What a run has left in the cache and in the log. -/
structure Cached (catalog : ServiceCatalog) (calls : List (ClientCall Transport E))
    (cache : TransportCache Transport) (log : List (ClientEvent Transport E)) : Prop where
  entries : cache = (resolved log).map fun e => (cacheKey e.1, e.2)
  nodup : (cache.map Prod.fst).Nodup
  called : ∀ e ∈ resolved log, ∃ call ∈ calls, call.context catalog = some e.1 ∧
    call.resolution = .transport e.2
  served : ∀ call ∈ calls, ∀ ctx t, call.context catalog = some ctx →
    call.resolution = .transport t → ∃ t', ClientEvent.used ctx t' ∈ log

/-- One of the two has no endpoint and the other the empty one. -/
def Twins (ctx ctx' : ResolverContext) : Prop :=
  ctx.typeName = ctx'.typeName ∧ ((ctx.endpoint = none ∧ ctx'.endpoint = some []) ∨
    (ctx.endpoint = some [] ∧ ctx'.endpoint = none))

section Cache

variable {catalog : ServiceCatalog} {calls : List (ClientCall Transport E)}
  {cache cache' : TransportCache Transport} {log out : List (ClientEvent Transport E)}
  {call : ClientCall Transport E} {ctx : ResolverContext} {key : JsString} {t : Transport}

theorem mem_resolved : (ctx, t) ∈ resolved log ↔ ClientEvent.asked ctx (.transport t) ∈ log := by
  unfold resolved
  rw [List.mem_filterMap]
  constructor
  · rintro ⟨event, hevent, heq⟩
    split at heq
    next =>
      cases heq
      exact hevent
    next => cases heq
  · exact fun h => ⟨_, h, rfl⟩

theorem get_eq_none : cache.get key = none ↔ key ∉ cache.map Prod.fst := by
  unfold TransportCache.get
  rw [Option.map_eq_none_iff, List.find?_eq_none]
  constructor
  · intro h hmem
    obtain ⟨e, he, rfl⟩ := List.mem_map.mp hmem
    exact h e he (decide_eq_true rfl)
  · intro h e he heq
    exact h (List.mem_map.mpr ⟨e, he, of_decide_eq_true heq⟩)

theorem mem_of_get (h : cache.get key = some t) : (key, t) ∈ cache := by
  obtain ⟨⟨key', t'⟩, hfind, rfl⟩ := Option.map_eq_some_iff.mp h
  have hkey := List.find?_some hfind
  obtain rfl : key' = key := of_decide_eq_true hkey
  exact List.mem_of_find?_eq_some hfind

/-- A call fails early, is served from the cache, or asks the resolver. -/
theorem clientStep_cases (h : clientStep catalog cache call = some (cache', out)) :
    (call.context catalog = none ∧ cache' = cache ∧ ∃ error, out = [.failed error]) ∨
    ∃ ctx, call.context catalog = some ctx ∧
      ((∃ t, cache.get (cacheKey ctx) = some t ∧ cache' = cache ∧ out = [.used ctx t]) ∨
      (cache.get (cacheKey ctx) = none ∧
        ((∃ t, call.resolution = .transport t ∧ cache' = cache ++ [(cacheKey ctx, t)] ∧
          out = [.asked ctx (.transport t), .used ctx t]) ∨
        ((∀ t, call.resolution ≠ .transport t) ∧ cache' = cache ∧
          ∃ error, out = [.asked ctx call.resolution, .failed error])))) := by
  unfold clientStep at h
  unfold ClientCall.context
  split at h
  next error htarget =>
    cases h
    rw [htarget]
    exact .inl ⟨rfl, rfl, error, rfl⟩
  next typeName htarget =>
    rw [htarget]
    refine .inr ⟨_, rfl, ?_⟩
    have hresolve := Option.some.inj h
    unfold resolveTransport at hresolve
    split at hresolve
    next cached hget =>
      cases hresolve
      exact .inl ⟨cached, hget, rfl, rfl⟩
    next hget =>
      refine .inr ⟨hget, ?_⟩
      unfold resolveRemoteTransportOrThrow at hresolve
      cases hresolution : call.resolution with
      | transport t =>
        rw [hresolution] at hresolve
        cases hresolve
        exact .inl ⟨t, rfl, JsMap.set_of_notMem (get_eq_none.mp hget), rfl⟩
      | null =>
        rw [hresolution] at hresolve
        cases hresolve
        exact .inr ⟨fun t => nofun, rfl, _, rfl⟩
      | throws cause =>
        rw [hresolution] at hresolve
        cases hresolve
        exact .inr ⟨fun t => nofun, rfl, _, rfl⟩

theorem cached_nil (catalog : ServiceCatalog) :
    Cached catalog ([] : List (ClientCall Transport E)) [] [] where
  entries := rfl
  nodup := List.nodup_nil
  called := fun _ he => absurd he List.not_mem_nil
  served := fun _ he => absurd he List.not_mem_nil

theorem resolved_append (log' : List (ClientEvent Transport E)) :
    resolved (log ++ log') = resolved log ++ resolved log' :=
  List.filterMap_append

/-- A call that asks for nothing new leaves what is cached. -/
theorem Cached.extend (h : Cached catalog calls cache log) (hout : resolved out = [])
    (hserved : ∀ ctx t, call.context catalog = some ctx → call.resolution = .transport t →
      ∃ t', ClientEvent.used ctx t' ∈ log ++ out) :
    Cached catalog (calls ++ [call]) cache (log ++ out) where
  entries := by rw [resolved_append, hout, List.append_nil, h.entries]
  nodup := h.nodup
  called := by
    intro e he
    rw [resolved_append, hout, List.append_nil] at he
    obtain ⟨call', hcall, hspec⟩ := h.called e he
    exact ⟨call', List.mem_append_left _ hcall, hspec⟩
  served := by
    intro call' hcall ctx t hctx hresolution
    rcases List.mem_append.mp hcall with hcall | hcall
    · obtain ⟨t', ht'⟩ := h.served call' hcall ctx t hctx hresolution
      exact ⟨t', List.mem_append_left _ ht'⟩
    · obtain rfl := List.mem_singleton.mp hcall
      exact hserved ctx t hctx hresolution

/-- A transport that the resolver returns is stored under a new key. -/
theorem Cached.store (h : Cached catalog calls cache log) (hctx : call.context catalog = some ctx)
    (hresolution : call.resolution = .transport t) (hget : cache.get (cacheKey ctx) = none) :
    Cached catalog (calls ++ [call]) (cache ++ [(cacheKey ctx, t)])
      (log ++ [.asked ctx (.transport t), .used ctx t]) := by
  have hresolved : resolved (log ++ [.asked ctx (.transport t), .used ctx t]) =
      resolved log ++ [(ctx, t)] := resolved_append _
  constructor
  · rw [hresolved, List.map_append, ← h.entries]
    rfl
  · rw [List.map_append, List.map_singleton]
    apply List.nodup_append.mpr ⟨h.nodup, by simp, _⟩
    intro key hkey key' hkey' heq
    rw [heq, List.mem_singleton.mp hkey'] at hkey
    exact get_eq_none.mp hget hkey
  · intro e he
    rw [hresolved] at he
    rcases List.mem_append.mp he with he | he
    · obtain ⟨call', hcall, hspec⟩ := h.called e he
      exact ⟨call', List.mem_append_left _ hcall, hspec⟩
    · obtain rfl := List.mem_singleton.mp he
      exact ⟨call, List.mem_append_right _ (List.mem_singleton_self _), hctx, hresolution⟩
  · intro call' hcall ctx' t' hctx' hresolution'
    rcases List.mem_append.mp hcall with hcall | hcall
    · obtain ⟨t₁, ht₁⟩ := h.served call' hcall ctx' t' hctx' hresolution'
      exact ⟨t₁, List.mem_append_left _ ht₁⟩
    · obtain rfl := List.mem_singleton.mp hcall
      obtain rfl := Option.some.inj (hctx.symm.trans hctx')
      exact ⟨t, by simp⟩

theorem Cached.step (h : Cached catalog calls cache log)
    (hstep : clientStep catalog cache call = some (cache', out)) :
    Cached catalog (calls ++ [call]) cache' (log ++ out) := by
  rcases clientStep_cases hstep with ⟨hnone, rfl, error, rfl⟩ | ⟨ctx, hctx, hcases⟩
  · refine h.extend rfl fun ctx t hctx _ => ?_
    rw [hnone] at hctx
    cases hctx
  · rcases hcases with ⟨t, hget, rfl, rfl⟩ | ⟨hget, ⟨t, hresolution, rfl, rfl⟩ |
      ⟨hresolution, rfl, error, rfl⟩⟩
    · refine h.extend rfl fun ctx' t' hctx' _ => ⟨t, ?_⟩
      obtain rfl := Option.some.inj (hctx.symm.trans hctx')
      simp
    · exact h.store hctx hresolution hget
    · have hnothing : resolved [.asked ctx call.resolution, .failed error] = [] := by
        cases hcall : call.resolution with
        | transport t => exact absurd hcall (hresolution t)
        | null => rfl
        | throws cause => rfl
      exact h.extend hnothing fun ctx' t' _ ht' => absurd ht' (hresolution t')

/-- Once grounded, what the resolver was asked for and has a transport for is resolved. -/
theorem Cached.exists_resolved (h : Cached catalog calls cache log)
    (hgrounded : Justified Grounded log) (hcall : call ∈ calls)
    (hctx : call.context catalog = some ctx) (hresolution : call.resolution = .transport t) :
    ∃ t', (ctx, t') ∈ resolved log := by
  obtain ⟨t', hused⟩ := h.served call hcall ctx t hctx hresolution
  obtain ⟨before, after, rfl⟩ := List.append_of_mem hused
  have hasked : ClientEvent.asked ctx (.transport t') ∈ before := hgrounded before _ after rfl
  exact ⟨t', mem_resolved.mpr (List.mem_append_left _ hasked)⟩

theorem Cached.key_mem (h : Cached catalog calls cache log) (hmem : (ctx, t) ∈ resolved log) :
    (cacheKey ctx, t) ∈ cache := by
  rw [h.entries]
  exact List.mem_map_of_mem (f := fun e : ResolverContext × Transport => (cacheKey e.1, e.2)) hmem

/-- The key of a resolved context tells the context. -/
theorem Cached.eq_of_key (h : Cached catalog calls cache log) {ctx' : ResolverContext}
    {t' : Transport} (hmem : (ctx, t) ∈ resolved log) (hmem' : (ctx', t') ∈ resolved log)
    (hkey : cacheKey ctx = cacheKey ctx') : ctx = ctx' := by
  have hnodup : ((resolved log).map fun e => cacheKey e.1).Nodup := by
    have hkeys := h.nodup
    rwa [h.entries, List.map_map] at hkeys
  exact congrArg Prod.fst (List.inj_on_of_nodup_map hnodup hmem hmem' hkey)

/-- A new key collides with nothing. -/
theorem Cached.apart_of_miss (h : Cached catalog calls cache log)
    (hgrounded : Justified Grounded log) (hctx : call.context catalog = some ctx)
    (hget : cache.get (cacheKey ctx) = none) : ∀ earlier ∈ calls, Apart catalog earlier call := by
  intro earlier hearlier ctx₀ ctx' t hctx₀ hresolution hctx' hcollide
  obtain rfl := Option.some.inj (hctx.symm.trans hctx')
  obtain ⟨t', hresolved⟩ := h.exists_resolved hgrounded hearlier hctx₀ hresolution
  have hkey := h.key_mem hresolved
  rw [hcollide.2] at hkey
  exact get_eq_none.mp hget (List.mem_map_of_mem (f := Prod.fst) hkey)

/-- A transport out of the cache is grounded if and only if nothing collides. -/
theorem Cached.grounded_iff_of_hit (h : Cached catalog calls cache log)
    (hgrounded : Justified Grounded log) (hctx : call.context catalog = some ctx)
    (hget : cache.get (cacheKey ctx) = some t) :
    Grounded log (.used ctx t) ↔ ∀ earlier ∈ calls, Apart catalog earlier call := by
  constructor
  · intro hasked earlier hearlier ctx₀ ctx' t₀ hctx₀ hresolution hctx' hcollide
    obtain rfl := Option.some.inj (hctx.symm.trans hctx')
    obtain ⟨t', hresolved⟩ := h.exists_resolved hgrounded hearlier hctx₀ hresolution
    exact hcollide.1 (h.eq_of_key hresolved (mem_resolved.mpr hasked) hcollide.2)
  · intro hapart
    have hmem := mem_of_get hget
    rw [h.entries] at hmem
    obtain ⟨⟨ctx₀, t₀⟩, hresolved, heq⟩ := List.mem_map.mp hmem
    obtain ⟨hkey, rfl⟩ := Prod.mk.inj heq
    obtain ⟨earlier, hearlier, hctx₀, hresolution⟩ := h.called _ hresolved
    have hsame : ctx₀ = ctx := by
      by_contra hne
      exact hapart earlier hearlier ctx₀ ctx t₀ hctx₀ hresolution hctx ⟨hne, hkey⟩
    rw [hsame] at hresolved
    exact mem_resolved.mp hresolved

/-- What a call adds is grounded if and only if the call is apart from the earlier ones. -/
theorem Cached.grounded_step (h : Cached catalog calls cache log)
    (hstep : clientStep catalog cache call = some (cache', out)) :
    Justified Grounded (log ++ out) ↔ Justified Grounded log ∧
      ∀ earlier ∈ calls, Apart catalog earlier call := by
  rcases clientStep_cases hstep with ⟨hnone, rfl, error, rfl⟩ | ⟨ctx, hctx, hcases⟩
  · rw [justified_concat]
    refine and_congr_right fun _ => iff_of_true trivial ?_
    intro earlier _ ctx₀ ctx' t _ _ hctx'
    rw [hnone] at hctx'
    cases hctx'
  · rcases hcases with ⟨t, hget, rfl, rfl⟩ | ⟨hget, ⟨t, hresolution, rfl, rfl⟩ |
      ⟨hresolution, rfl, error, rfl⟩⟩
    · rw [justified_concat]
      exact and_congr_right fun hgrounded => h.grounded_iff_of_hit hgrounded hctx hget
    · have hlist : log ++ [.asked ctx (.transport t), .used ctx t] =
          (log ++ [ClientEvent.asked ctx (.transport t)]) ++ [.used ctx t] := by simp
      have hused : Grounded (log ++ [ClientEvent.asked ctx (.transport t)]) (.used ctx t) :=
        List.mem_append_right _ (List.mem_singleton_self _)
      rw [hlist, justified_concat, justified_concat, and_assoc]
      exact and_congr_right fun hgrounded => iff_of_true ⟨trivial, hused⟩
        (h.apart_of_miss hgrounded hctx hget)
    · have hlist : log ++ [.asked ctx call.resolution, .failed error] =
          (log ++ [ClientEvent.asked ctx call.resolution]) ++ [.failed error] := by simp
      rw [hlist, justified_concat, justified_concat, and_assoc]
      exact and_congr_right fun hgrounded => iff_of_true ⟨trivial, trivial⟩
        (h.apart_of_miss hgrounded hctx hget)

/-- Every order of calls runs, and its transports are grounded if and only if its calls are apart. -/
theorem cached_run (catalog : ServiceCatalog) (calls : List (ClientCall Transport E)) :
    ∃ cache log, run (clientStep catalog) [] calls = some (cache, log) ∧
      Cached catalog calls cache log ∧
      (Justified Grounded log ↔ calls.Pairwise (Apart catalog)) := by
  induction calls using List.reverseRecOn with
  | nil => exact ⟨[], [], rfl, cached_nil catalog, iff_of_true justified_nil .nil⟩
  | append_singleton calls call ih =>
    obtain ⟨cache, log, hrun, hcached, hgrounded⟩ := ih
    obtain ⟨cache', out, hstep⟩ : ∃ cache' out,
        clientStep catalog cache call = some (cache', out) := by
      unfold clientStep
      split
      next error _ => exact ⟨_, _, rfl⟩
      next typeName _ => exact ⟨_, _, rfl⟩
    refine ⟨cache', log ++ out, ?_, hcached.step hstep, ?_⟩
    · exact run_append.mpr ⟨cache, log, out, hrun, run_singleton.mpr hstep, rfl⟩
    · rw [hcached.grounded_step hstep, hgrounded, List.pairwise_append]
      simp

theorem space_notMem_of_isName {s : JsString} (h : IsName s) : unit ' ' ∉ s := by
  intro hmem
  have hunit := List.all_eq_true.mp h.2 _ hmem
  exact absurd hunit (by decide)

theorem eq_of_admit {surface : Surface} {method found typeName : JsString} {kind : MethodKind}
    (h : surface.admit (E := E) method found kind = .ok typeName) : found = typeName := by
  unfold Surface.admit at h
  split at h <;> split at h <;> cases h <;> rfl

theorem exists_service_of_lookup {method caller typeName : JsString} {descMethod : DescMethod}
    (h : lookupCatalogMethod (E := E) (some catalog) method caller = .ok (typeName, descMethod)) :
    ∃ service, catalog.get typeName = .service service := by
  unfold lookupCatalogMethod at h
  split at h
  next => cases h
  next =>
    dsimp only at h
    split at h
    next => cases h
    next => cases h
    next service hget =>
      split at h
      next => cases h
      next =>
        cases h
        exact ⟨service, hget⟩

/-- The services that are found have names without a space. -/
theorem space_notMem_of_service (hkeyed : Keyed catalog) {service : DescService}
    (h : catalog.get key = .service service) : unit ' ' ∉ key := by
  by_cases hkey : key ∈ catalog.keys
  · obtain ⟨⟨key, service'⟩, hmem, rfl⟩ := List.mem_map.mp hkey
    have htypeName : key = service'.typeName := hkeyed.typeName _ hmem
    rw [htypeName]
    exact space_notMem_of_isName service'.named
  · rw [get_of_notMem hkey] at h
    split at h
    next => split at h <;> cases h
    next =>
      split at h
      next hproto =>
        rw [hproto]
        decide
      next => split at h <;> cases h

theorem space_notMem_of_context (hkeyed : Keyed catalog) (hctx : call.context catalog = some ctx) :
    unit ' ' ∉ ctx.typeName := by
  unfold ClientCall.context at hctx
  split at hctx
  next typeName htarget =>
    cases hctx
    unfold Surface.target at htarget
    split at htarget
    next => cases htarget
    next found descMethod hlookup =>
      obtain ⟨service, hget⟩ := exists_service_of_lookup hlookup
      rw [← eq_of_admit htarget]
      exact space_notMem_of_service hkeyed hget
  next => cases hctx

theorem takeWhile_append_space {before : JsString} (h : unit ' ' ∉ before) (after : JsString) :
    (before ++ unit ' ' :: after).takeWhile (fun c => c ≠ unit ' ') = before := by
  rw [List.takeWhile_append_of_pos]
  · simp
  · intro c hc
    exact decide_eq_true fun heq => h (heq ▸ hc)

/-- A key without a space in the name of the service does not tell whether an empty endpoint is
there, and tells everything else. -/
theorem collide_iff {ctx ctx' : ResolverContext} (h : unit ' ' ∉ ctx.typeName)
    (h' : unit ' ' ∉ ctx'.typeName) : Collide ctx ctx' ↔ Twins ctx ctx' := by
  have hkey : cacheKey ctx = cacheKey ctx' ↔ ctx.typeName = ctx'.typeName ∧
      ctx.endpoint.getD [] = ctx'.endpoint.getD [] := by
    have hform : ∀ ctx : ResolverContext,
        cacheKey ctx = ctx.typeName ++ unit ' ' :: ctx.endpoint.getD [] := by
      intro ctx
      rw [cacheKey, List.append_assoc]
      rfl
    rw [hform, hform]
    constructor
    · intro heq
      have hname := congrArg (List.takeWhile fun c => c ≠ unit ' ') heq
      rw [takeWhile_append_space h, takeWhile_append_space h'] at hname
      rw [hname] at heq
      exact ⟨hname, (List.cons.inj (List.append_cancel_left heq)).2⟩
    · rintro ⟨hname, hendpoint⟩
      rw [hname, hendpoint]
  obtain ⟨typeName, endpoint⟩ := ctx
  obtain ⟨typeName', endpoint'⟩ := ctx'
  unfold Collide Twins
  rw [hkey]
  cases endpoint <;> cases endpoint' <;> simp [eq_comm]

/-- In every order of calls the resolver succeeds once for a context, and the transports are those
that it returned for their contexts if and only if no call collides with an earlier one that got a
transport. Under the names of services the only collision is an absent endpoint with an empty
one. -/
theorem transportCache_coherent_iff (catalog : ServiceCatalog)
    (calls : List (ClientCall Transport E)) :
    ∃ cache log, run (clientStep catalog) [] calls = some (cache, log) ∧
      ((resolved log).map Prod.fst).Nodup ∧
      (Justified Grounded log ↔ calls.Pairwise (Apart catalog)) ∧
      (Keyed catalog → ∀ call ∈ calls, ∀ call' ∈ calls, ∀ ctx ctx',
        call.context catalog = some ctx → call'.context catalog = some ctx' →
          (Collide ctx ctx' ↔ Twins ctx ctx')) := by
  obtain ⟨cache, log, hrun, hcached, hgrounded⟩ := cached_run catalog calls
  refine ⟨cache, log, hrun, ?_, hgrounded, ?_⟩
  · have hkeys := hcached.nodup
    rw [hcached.entries, List.map_map] at hkeys
    have hcomp : (Prod.fst ∘ fun e : ResolverContext × Transport => (cacheKey e.1, e.2)) =
        cacheKey ∘ Prod.fst := rfl
    rw [hcomp, ← List.map_map] at hkeys
    exact List.Nodup.of_map cacheKey hkeys
  · intro hkeyed call _ call' _ ctx ctx' hctx hctx'
    exact collide_iff (space_notMem_of_context hkeyed hctx) (space_notMem_of_context hkeyed hctx')

/-- Two calls of one method: without an endpoint, and with the empty one. -/
def twinCalls : List (ClientCall ℕ Unit) :=
  [⟨.call, js "orders.v1.OrdersService/GetOrder", none, .transport 0⟩,
    ⟨.call, js "orders.v1.OrdersService/GetOrder", some [], .transport 1⟩]

/-- The second call is served with the transport of the first one, for which the resolver was not
asked. -/
theorem empty_endpoint_misrouted : ∃ cache log,
    run (clientStep ordersCatalog) [] twinCalls = some (cache, log) ∧
      log = [.asked ⟨orders.typeName, none⟩ (.transport 0), .used ⟨orders.typeName, none⟩ 0,
        .used ⟨orders.typeName, some []⟩ 0] ∧
      ¬ Justified Grounded log := by
  refine ⟨_, _, rfl, rfl, fun h => ?_⟩
  have hasked := h [_, _] _ [] rfl
  simp [Grounded] at hasked

end Cache

end Connectum.Core.Catalog
