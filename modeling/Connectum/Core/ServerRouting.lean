import Connectum.Core.CatalogClient
import Connectum.Core.ServerContents

/-! Where the clients of a server and the catalog calls of its handlers go: to the handlers of this
server, or to a transport of the resolver. -/
namespace Connectum.Core.Routing
open JsString Machine Catalog
open ShutdownManager (HookOutcome)
open Server (Contents CreateServerOptions Fault LocalTransport)

/-- `registered` are the names that `router.service` has got in so many runs of the routes. -/
structure Options (Service Protocol Interceptor : Type) where
  server : CreateServerOptions Service Protocol Interceptor
  catalog : Option ServiceCatalog := none
  remoteResolver : Bool := false
  registered : Contents Service Protocol Interceptor → ℕ → List JsString
  grows : ∀ contents n, registered contents n ⊆ registered contents (n + 1)

/-- A server with what its dispatcher reads; `runs` counts the runs of the routes. -/
structure State (Service Protocol Interceptor Transport : Type) where
  server : Server.State Service Protocol Interceptor
  runs : ℕ := 0
  remoteTransports : TransportCache Transport := []

/-- Who needs a transport: `server.client`, or `ctx.call` and `ctx.stream`. -/
inductive Caller where
  | client
  | context
  deriving DecidableEq

/-- What is thrown besides the errors of calls: what the routes throw, a `CatalogConfigError`, and
what the resolver throws. -/
inductive Failure (E : Type) where
  | fault (fault : Fault)
  | config (message : CatalogConfigError)
  | thrown (cause : E)

inductive Event (Service Protocol Interceptor Transport E : Type) where
  | server (event : Server.Event)
  | has (typeName : JsString) (isLocal : Bool)
  | usedLocal (caller : Caller) (typeName : JsString)
      (transport : LocalTransport Service Protocol Interceptor)
  | remote (event : ClientEvent Transport E)
  | failed (failure : Failure E)

/-- The calls, each with what the resolver answers if it is asked; the resolver calls nothing of the
server itself. A stream is opened when it is first read or closed. -/
inductive Action (Service Protocol Interceptor Transport E : Type) where
  | server (a : Server.Action Service Protocol Interceptor)
  | createLocalTransport
  | hasService (service : Catalog.DescService)
  | client (service : Catalog.DescService) (endpoint : Option JsString)
      (resolution : Resolution Transport E)
  | context (surface : Surface) (method : JsString) (endpoint : Option JsString)
      (resolution : Resolution Transport E)

variable {Service Protocol Interceptor Transport E : Type}

def Caller.interceptors (options : CreateServerOptions Service Protocol Interceptor) :
    Caller → List Interceptor
  | .client => []
  | .context => options.outgoingInterceptors

/-- Where a caller keeps its in-process transport. -/
def Caller.transport (server : Server.State Service Protocol Interceptor) :
    Caller → Option (LocalTransport Service Protocol Interceptor)
  | .client => server.localTransport
  | .context => server.catalogLocalTransport

/-- `localClient` up to its client, and `getLocalTransport` of the dispatcher's host. -/
def Caller.access (options : CreateServerOptions Service Protocol Interceptor)
    (server : Server.State Service Protocol Interceptor) :
    Caller → Server.State Service Protocol Interceptor × List Server.Event
  | .client => Server.localClient options server
  | .context => Server.getCatalogLocalTransport options server

/-- How often the routes have run when the server has come to `t`: once for the network handler, and
once for each in-process transport. -/
def State.runsAt (s : State Service Protocol Interceptor Transport)
    (t : Server.State Service Protocol Interceptor) : ℕ :=
  (if s.server.builtRoutes.isNone ∧ t.builtRoutes.isSome then 1 else s.runs) +
    (if s.server.localTransport.isNone ∧ t.localTransport.isSome then 1 else 0) +
    (if s.server.catalogLocalTransport.isNone ∧ t.catalogLocalTransport.isSome then 1 else 0)

def State.withServer (s : State Service Protocol Interceptor Transport)
    (t : Server.State Service Protocol Interceptor) :
    State Service Protocol Interceptor Transport :=
  { s with server := t, runs := s.runsAt t }

section Calls

variable (options : Options Service Protocol Interceptor)
  (s : State Service Protocol Interceptor Transport)

/-- `_getRegisteredServiceTypeNames().has(typeName)`. -/
def isLocal (typeName : JsString) :
    Except Fault (State Service Protocol Interceptor Transport × Bool) :=
  match Server.ensureRoutesBuilt options.server s.server with
  | .error fault => .error fault
  | .ok (server, built) =>
    .ok (s.withServer server, decide (typeName ∈ options.registered built (s.runsAt server)))

/-- The call of `createLocalTransport` on the server from outside. -/
def createLocalTransport : State Service Protocol Interceptor Transport ×
    List (Event Service Protocol Interceptor Transport E) :=
  match Server.createLocalTransport options.server s.server [] with
  | .error fault => (s, [.failed (.fault fault)])
  | .ok (server, _) => ({ s.withServer server with runs := s.runsAt server + 1 }, [])

def useLocal (caller : Caller) (typeName : JsString) :
    State Service Protocol Interceptor Transport ×
      List (Event Service Protocol Interceptor Transport E) :=
  let (server, events) := caller.access options.server s.server
  match caller.transport server with
  | some transport => (s.withServer server, [.usedLocal caller typeName transport])
  | none => (s.withServer server, events.map .server)

/-- `_resolveRemoteTransport`, with what is to be seen of it. -/
def resolveRemoteTransport (ctx : ResolverContext) (resolution : Resolution Transport E) :
    State Service Protocol Interceptor Transport ×
      List (Event Service Protocol Interceptor Transport E) × Resolution Transport E :=
  match s.remoteTransports.get (cacheKey ctx) with
  | some cached => (s, [], .transport cached)
  | none =>
    if options.remoteResolver then
      match resolution with
      | .transport t =>
        ({ s with remoteTransports := JsMap.set s.remoteTransports (cacheKey ctx) t },
          [.remote (.asked ctx resolution)], resolution)
      | _ => (s, [.remote (.asked ctx resolution)], resolution)
    else (s, [], .null)

/-- What `client` throws where it gets no transport: what the resolver has thrown, or its own
error. -/
def clientFailure (ctx : ResolverContext) :
    Option E → Event Service Protocol Interceptor Transport E
  | some cause => .failed (.thrown cause)
  | none =>
    let location := match ctx.endpoint with
      | none | some [] => []
      | some endpoint => js " (endpoint \"" ++ endpoint ++ js "\")"
    .remote (.failed (.connectError .unavailable (js "No route for service \"" ++ ctx.typeName ++
      js "\"" ++ location ++ js ": the resolver returned null.")))

/-- What `_resolveTransport` throws where it gets no transport. -/
def contextFailure (ctx : ResolverContext) :
    Option E → Event Service Protocol Interceptor Transport E
  | some cause =>
    .remote (.failed (.connectError .internal
      (js "ctx.call: the remoteResolver threw while resolving \"" ++ ctx.typeName ++ js "\".")
      (some cause)))
  | none =>
    let location := match ctx.endpoint with
      | some endpoint => js " (endpoint \"" ++ endpoint ++ js "\")"
      | none => []
    .remote (.failed (.connectError .unavailable (js "ctx.call: no route for \"" ++ ctx.typeName ++
      js "\"" ++ location ++ js ": the resolver returned null.")))

def useRemote (ctx : ResolverContext) (resolution : Resolution Transport E)
    (failure : Option E → Event Service Protocol Interceptor Transport E) :
    State Service Protocol Interceptor Transport ×
      List (Event Service Protocol Interceptor Transport E) :=
  match resolveRemoteTransport options s ctx resolution with
  | (s, asked, .transport t) => (s, asked ++ [.remote (.used ctx t)])
  | (s, asked, .null) => (s, asked ++ [failure none])
  | (s, asked, .throws cause) => (s, asked ++ [failure (some cause)])

def notMounted (typeName : JsString) : CatalogConfigError :=
  js "Cannot create a client for \"" ++ typeName ++
    js "\": it is not mounted locally and no remoteResolver is configured. " ++
    js "Mount it locally (createServer(\x7b services \x7d)) or configure " ++
    js "createServer(\x7b remoteResolver \x7d)."

/-- `server.client`. -/
def client (service : Catalog.DescService) (endpoint : Option JsString)
    (resolution : Resolution Transport E) : State Service Protocol Interceptor Transport ×
      List (Event Service Protocol Interceptor Transport E) :=
  match isLocal options s service.typeName with
  | .error fault => (s, [.failed (.fault fault)])
  | .ok (s, true) =>
    let (s, events) := useLocal options s .client service.typeName
    (s, .has service.typeName true :: events)
  | .ok (s, false) =>
    if options.remoteResolver then
      let ctx := ⟨service.typeName, endpoint⟩
      let (s, events) := useRemote options s ctx resolution (clientFailure ctx)
      (s, .has service.typeName false :: events)
    else
      (s, [.has service.typeName false, .failed (.config (notMounted service.typeName))])

/-- `_resolveTransport`. -/
def resolveTransport (typeName : JsString) (endpoint : Option JsString)
    (resolution : Resolution Transport E) : State Service Protocol Interceptor Transport ×
      List (Event Service Protocol Interceptor Transport E) :=
  match isLocal options s typeName with
  | .error fault => (s, [.failed (.fault fault)])
  | .ok (s, true) =>
    let (s, events) := useLocal options s .context typeName
    (s, .has typeName true :: events)
  | .ok (s, false) =>
    let ctx := ⟨typeName, endpoint⟩
    let (s, events) := useRemote options s ctx resolution (contextFailure ctx)
    (s, .has typeName false :: events)

/-- The checks of `ctx.call` and `ctx.stream` on the kind of a method. -/
def admitContext (surface : Surface) (method : JsString) (methodKind : MethodKind) :
    Option (CallError E) :=
  match surface with
  | .call =>
    if methodKind = .unary then none
    else some (.connectError .unimplemented (js "ctx.call: \"" ++ method ++
      js "\" is a streaming method — use ctx.stream instead."))
  | .stream =>
    if methodKind = .unary then
      some (.connectError .unimplemented (js "ctx.stream: \"" ++ method ++
        js "\" is a unary method — use ctx.call instead."))
    else none

/-- `ctx.call` and `ctx.stream` up to their transport. -/
def context (surface : Surface) (method : JsString) (endpoint : Option JsString)
    (resolution : Resolution Transport E) : State Service Protocol Interceptor Transport ×
      List (Event Service Protocol Interceptor Transport E) :=
  match lookupCatalogMethod options.catalog method with
  | .error error => (s, [.remote (.failed error)])
  | .ok (typeName, descMethod) =>
    match admitContext surface method descMethod.methodKind with
    | some error => (s, [.remote (.failed error)])
    | none => resolveTransport options s typeName endpoint resolution

end Calls

/-- Any order of the calls, among all that happens to the server. -/
def step (options : Options Service Protocol Interceptor) (outcome : String → ℕ → HookOutcome)
    (depth : ℕ) : Machine.Step (State Service Protocol Interceptor Transport)
    (Action Service Protocol Interceptor Transport E)
    (Event Service Protocol Interceptor Transport E)
  | s, .server a =>
    (Server.step options.server outcome depth s.server a).map fun (server, events) =>
      (s.withServer server, events.map .server)
  | s, .createLocalTransport => some (createLocalTransport options s)
  | s, .hasService service =>
    match isLocal options s service.typeName with
    | .error fault => some (s, [.failed (.fault fault)])
    | .ok (s, isLocal) => some (s, [.has service.typeName isLocal])
  | s, .client service endpoint resolution => some (client options s service endpoint resolution)
  | s, .context surface method endpoint resolution =>
    some (context options s surface method endpoint resolution)

def init (contents : Contents Service Protocol Interceptor) :
    State Service Protocol Interceptor Transport := { server := Server.init contents }

section Steps

variable {options : Options Service Protocol Interceptor} {outcome : String → ℕ → HookOutcome}
  {depth : ℕ} {s t u : State Service Protocol Interceptor Transport}
  {server : Server.State Service Protocol Interceptor}
  {built : Contents Service Protocol Interceptor} {typeName : JsString} {found : Bool}
  {ctx : ResolverContext} {transport : Transport} {resolution : Resolution Transport E}
  {out : List (Event Service Protocol Interceptor Transport E)}

/-- What every call keeps. -/
structure Later (options : Options Service Protocol Interceptor)
    (s t : State Service Protocol Interceptor Transport) : Prop where
  frozen : Server.Frozen options.server s.server → Server.Frozen options.server t.server
  built : ∀ built, s.server.builtRoutes = some built →
    t.server.contents = s.server.contents ∧ t.server.builtRoutes = some built
  runs : s.server.builtRoutes.isSome → s.runs ≤ t.runs
  positive : (s.server.builtRoutes.isSome → 1 ≤ s.runs) → t.server.builtRoutes.isSome → 1 ≤ t.runs

theorem Later.refl (s : State Service Protocol Interceptor Transport) : Later options s s :=
  ⟨id, fun _ h => ⟨rfl, h⟩, fun _ => le_rfl, id⟩

theorem Later.isSome (h : Later options s t) (hs : s.server.builtRoutes.isSome) :
    t.server.builtRoutes.isSome := by
  obtain ⟨built, hbuilt⟩ := Option.isSome_iff_exists.mp hs
  rw [(h.built built hbuilt).2]
  rfl

theorem Later.contents (h : Later options s t) (hs : s.server.builtRoutes.isSome) :
    t.server.contents = s.server.contents := by
  obtain ⟨built, hbuilt⟩ := Option.isSome_iff_exists.mp hs
  exact (h.built built hbuilt).1

theorem Later.trans (h : Later options s t) (h' : Later options t u) : Later options s u where
  frozen := h'.frozen ∘ h.frozen
  built built hbuilt := by
    obtain ⟨hcontents, hnext⟩ := h.built built hbuilt
    obtain ⟨hcontents', hlast⟩ := h'.built built hnext
    exact ⟨hcontents'.trans hcontents, hlast⟩
  runs hs := (h.runs hs).trans (h'.runs (h.isSome hs))
  positive := h'.positive ∘ h.positive

theorem le_runsAt (hs : s.server.builtRoutes.isSome) : s.runs ≤ s.runsAt server := by
  have hbuilt : ¬ (s.server.builtRoutes.isNone ∧ server.builtRoutes.isSome) := by
    intro h
    simp [Option.isNone_iff_eq_none.mp h.1] at hs
  rw [State.runsAt, if_neg hbuilt]
  omega

theorem one_le_runsAt (hs : s.server.builtRoutes.isSome → 1 ≤ s.runs)
    (hserver : server.builtRoutes.isSome) : 1 ≤ s.runsAt server := by
  cases hbuilt : s.server.builtRoutes with
  | some built =>
    have hruns := hs (by simp [hbuilt])
    have hle : s.runs ≤ s.runsAt server := le_runsAt (by simp [hbuilt])
    omega
  | none =>
    rw [State.runsAt, if_pos (by simp [hbuilt, hserver])]
    omega

theorem later_withServer
    (hfrozen : Server.Frozen options.server s.server → Server.Frozen options.server server)
    (hbuilt : ∀ built, s.server.builtRoutes = some built →
      server.contents = s.server.contents ∧ server.builtRoutes = some built) :
    Later options s (s.withServer server) where
  frozen := hfrozen
  built := hbuilt
  runs := le_runsAt
  positive := one_le_runsAt

theorem later_step {a : Server.Action Service Protocol Interceptor} {events : List Server.Event}
    (h : Server.step options.server outcome depth s.server a = some (server, events)) :
    Later options s (s.withServer server) :=
  later_withServer (fun hfrozen => hfrozen.step h) fun _ hbuilt => Server.contents_step hbuilt h

theorem later_ensureRoutesBuilt
    (h : Server.ensureRoutesBuilt options.server s.server = .ok (server, built)) :
    Later options s (s.withServer server) ∧ server.builtRoutes = some built := by
  rcases Server.ensureRoutesBuilt_cases options.server s.server with ⟨fault, herror⟩ |
    ⟨built', hroutes, hok⟩
  · rw [h] at herror
    cases herror
  · rw [h] at hok
    cases hok
    refine ⟨later_withServer (fun hfrozen => ?_) fun b hb => ⟨rfl, ?_⟩, rfl⟩
    · exact hfrozen.grow rfl hroutes rfl rfl rfl fun b hat =>
        (hfrozen.routesOf hroutes).2 b (hfrozen.starting b hat)
    · rcases hroutes with hsame | ⟨hnone, -⟩
      · exact hsame.trans hb
      · rw [hnone] at hb
        cases hb

/-- Neither the answer to a lookup nor the use of a transport. -/
def Event.isQuiet : Event Service Protocol Interceptor Transport E → Bool
  | .server _ | .failed _ | .remote (.failed _) => true
  | .has _ _ | .usedLocal _ _ _ | .remote (.asked _ _) | .remote (.used _ _) => false

/-- What a lookup finds of a service. -/
def State.Has (options : Options Service Protocol Interceptor)
    (s : State Service Protocol Interceptor Transport) (typeName : JsString) (found : Bool) :
    Prop :=
  s.server.builtRoutes.isSome ∧
    found = decide (typeName ∈ options.registered s.server.contents s.runs)

theorem has_isLocal (hfrozen : Server.Frozen options.server s.server)
    (h : isLocal options s typeName = .ok (t, found)) :
    Later options s t ∧ t.remoteTransports = s.remoteTransports ∧
      t.Has options typeName found := by
  unfold isLocal at h
  split at h
  next => cases h
  next server built hbuilt =>
    cases h
    obtain ⟨hlater, hroutes⟩ := later_ensureRoutesBuilt hbuilt
    have hcontents : built = server.contents := (hlater.frozen hfrozen).routes built hroutes
    refine ⟨hlater, rfl, ?_, ?_⟩
    · show server.builtRoutes.isSome
      rw [hroutes]
      rfl
    · rw [hcontents]
      rfl

theorem registered_mono (contents : Contents Service Protocol Interceptor) {m n : ℕ}
    (h : m ≤ n) : options.registered contents m ⊆ options.registered contents n := by
  induction n, h using Nat.le_induction with
  | base => exact List.Subset.refl _
  | succ n _ ih => exact List.Subset.trans ih (options.grows contents n)

/-- A service that is served here stays here. -/
theorem State.Has.later (h : s.Has options typeName true) (hlater : Later options s t) :
    t.Has options typeName true := by
  refine ⟨hlater.isSome h.1, ?_⟩
  have hmem : typeName ∈ options.registered s.server.contents s.runs := of_decide_eq_true h.2.symm
  rw [hlater.contents h.1]
  exact (decide_eq_true (registered_mono _ (hlater.runs h.1) hmem)).symm

theorem later_access {caller : Caller} {events : List Server.Event}
    (h : caller.access options.server s.server = (server, events)) :
    Later options s (s.withServer server) := by
  cases caller with
  | client =>
    have hstep : Server.step options.server (fun _ _ => HookOutcome.resolves) 0 s.server
        .localClient = some (server, events) := congrArg some h
    exact later_step hstep
  | context =>
    have hstep : Server.step options.server (fun _ _ => HookOutcome.resolves) 0 s.server
        .catalogTransport = some (server, events) := congrArg some h
    exact later_step hstep

/-- A caller gets the in-process transport with the contents of the server. -/
theorem later_useLocal {caller : Caller} (hfrozen : Server.Frozen options.server s.server)
    (h : useLocal options s caller typeName = (t, out)) :
    Later options s t ∧ t.remoteTransports = s.remoteTransports ∧
      ((∀ e ∈ out, e.isQuiet = true) ∨ out = [.usedLocal caller typeName
        ⟨t.server.contents, caller.interceptors options.server⟩]) := by
  unfold useLocal at h
  cases haccess : caller.access options.server s.server with
  | mk server events =>
    have hlater : Later options s (s.withServer server) := later_access haccess
    have hparity := (hlater.frozen hfrozen).parity
    simp only [haccess] at h
    split at h
    next transport htransport =>
      cases h
      refine ⟨hlater, rfl, .inr ?_⟩
      cases caller with
      | client =>
        rw [hparity.localClient transport htransport]
        rfl
      | context =>
        rw [hparity.catalog transport htransport]
        rfl
    next =>
      cases h
      refine ⟨hlater, rfl, .inl fun e he => ?_⟩
      obtain ⟨event, -, rfl⟩ := List.mem_map.mp he
      rfl

/-- A transport out of the cache, one that the resolver returns, or a failure. -/
theorem useRemote_cases {failure : Option E → Event Service Protocol Interceptor Transport E}
    (hquiet : ∀ cause, (failure cause).isQuiet = true)
    (h : useRemote options s ctx resolution failure = (t, out)) :
    (∃ transport, s.remoteTransports.get (cacheKey ctx) = some transport ∧ t = s ∧
      out = [.remote (.used ctx transport)]) ∨
    (s.remoteTransports.get (cacheKey ctx) = none ∧
      ((∃ transport, t = { s with
          remoteTransports := s.remoteTransports ++ [(cacheKey ctx, transport)] } ∧
        out = [.remote (.asked ctx (.transport transport)), .remote (.used ctx transport)]) ∨
      ((∀ transport, resolution ≠ .transport transport) ∧ t = s ∧ ∃ e, e.isQuiet = true ∧
        out = [.remote (.asked ctx resolution), e]))) ∨
    (t = s ∧ ∃ e, e.isQuiet = true ∧ out = [e]) := by
  unfold useRemote resolveRemoteTransport at h
  cases hget : s.remoteTransports.get (cacheKey ctx) with
  | some cached =>
    rw [hget] at h
    cases h
    exact .inl ⟨cached, rfl, rfl, rfl⟩
  | none =>
    rw [hget] at h
    by_cases hresolver : options.remoteResolver = true
    · refine .inr (.inl ⟨rfl, ?_⟩)
      cases resolution with
      | transport transport =>
        simp only [hresolver, if_true] at h
        cases h
        refine .inl ⟨transport, ?_, rfl⟩
        rw [JsMap.set_of_notMem (get_eq_none.mp hget)]
      | null =>
        simp only [hresolver, if_true] at h
        cases h
        exact .inr ⟨nofun, rfl, _, hquiet none, rfl⟩
      | throws cause =>
        simp only [hresolver, if_true] at h
        cases h
        exact .inr ⟨nofun, rfl, _, hquiet (some cause), rfl⟩
    · simp only [hresolver] at h
      cases h
      exact .inr (.inr ⟨rfl, _, hquiet none, rfl⟩)

/-- All that a call can do. -/
inductive Stepped (options : Options Service Protocol Interceptor)
    (s t : State Service Protocol Interceptor Transport) :
    List (Event Service Protocol Interceptor Transport E) → Prop
  | quiet {events : List (Event Service Protocol Interceptor Transport E)}
      (hlater : Later options s t) (hcache : t.remoteTransports = s.remoteTransports)
      (hquiet : ∀ e ∈ events, e.isQuiet = true) : Stepped options s t events
  | has {events : List (Event Service Protocol Interceptor Transport E)} {name : JsString}
      {found : Bool} (hlater : Later options s t)
      (hcache : t.remoteTransports = s.remoteTransports) (hhas : t.Has options name found)
      (hquiet : ∀ e ∈ events, e.isQuiet = true) : Stepped options s t (.has name found :: events)
  | usedLocal {caller : Caller} {name : JsString} (hlater : Later options s t)
      (hcache : t.remoteTransports = s.remoteTransports) (hhas : t.Has options name true) :
      Stepped options s t [.has name true, .usedLocal caller name
        ⟨t.server.contents, caller.interceptors options.server⟩]
  | cached {ctx : ResolverContext} {transport : Transport} (hlater : Later options s t)
      (hcache : t.remoteTransports = s.remoteTransports) (hhas : t.Has options ctx.typeName false)
      (hname : unit ' ' ∉ ctx.typeName)
      (hget : s.remoteTransports.get (cacheKey ctx) = some transport) :
      Stepped options s t [.has ctx.typeName false, .remote (.used ctx transport)]
  | resolved {ctx : ResolverContext} {transport : Transport} (hlater : Later options s t)
      (hcache : t.remoteTransports = s.remoteTransports ++ [(cacheKey ctx, transport)])
      (hhas : t.Has options ctx.typeName false) (hname : unit ' ' ∉ ctx.typeName)
      (hget : s.remoteTransports.get (cacheKey ctx) = none) :
      Stepped options s t [.has ctx.typeName false, .remote (.asked ctx (.transport transport)),
        .remote (.used ctx transport)]
  | refused {ctx : ResolverContext} {e : Event Service Protocol Interceptor Transport E}
      {resolution : Resolution Transport E} (hlater : Later options s t)
      (hcache : t.remoteTransports = s.remoteTransports) (hhas : t.Has options ctx.typeName false)
      (hresolution : ∀ transport, resolution ≠ .transport transport) (he : e.isQuiet = true) :
      Stepped options s t [.has ctx.typeName false, .remote (.asked ctx resolution), e]

theorem stepped_useLocal {caller : Caller} (hfrozen : Server.Frozen options.server s.server)
    (hlater : Later options s u) (hcache : u.remoteTransports = s.remoteTransports)
    (hhas : u.Has options typeName true) (h : useLocal options u caller typeName = (t, out)) :
    Stepped options s t (.has typeName true :: out) := by
  obtain ⟨hlater', hcache', hout⟩ := later_useLocal (hlater.frozen hfrozen) h
  rcases hout with hquiet | rfl
  · exact .has (hlater.trans hlater') (hcache'.trans hcache) (hhas.later hlater') hquiet
  · exact .usedLocal (hlater.trans hlater') (hcache'.trans hcache) (hhas.later hlater')

theorem stepped_useRemote {failure : Option E → Event Service Protocol Interceptor Transport E}
    (hquiet : ∀ cause, (failure cause).isQuiet = true) (hlater : Later options s u)
    (hcache : u.remoteTransports = s.remoteTransports) (hhas : u.Has options ctx.typeName false)
    (hname : unit ' ' ∉ ctx.typeName)
    (h : useRemote options u ctx resolution failure = (t, out)) :
    Stepped options s t (.has ctx.typeName false :: out) := by
  rcases useRemote_cases hquiet h with ⟨transport, hget, rfl, rfl⟩ | ⟨hget, ⟨transport, rfl, rfl⟩ |
    ⟨hresolution, rfl, e, he, rfl⟩⟩ | ⟨rfl, e, he, rfl⟩
  · rw [hcache] at hget
    exact .cached hlater hcache hhas hname hget
  · rw [hcache] at hget
    refine .resolved ?_ (congrArg (· ++ [(cacheKey ctx, transport)]) hcache) hhas hname hget
    exact ⟨hlater.frozen, hlater.built, hlater.runs, hlater.positive⟩
  · exact .refused hlater hcache hhas hresolution he
  · refine .has hlater hcache hhas fun e' he' => ?_
    obtain rfl := List.mem_singleton.mp he'
    exact he

theorem isQuiet_clientFailure (cause : Option E) :
    (clientFailure ctx cause : Event Service Protocol Interceptor Transport E).isQuiet = true := by
  cases cause <;> rfl

theorem isQuiet_contextFailure (cause : Option E) :
    (contextFailure ctx cause : Event Service Protocol Interceptor Transport E).isQuiet = true := by
  cases cause <;> rfl

theorem stepped_failed {e : Event Service Protocol Interceptor Transport E}
    (he : e.isQuiet = true) : Stepped options s s [e] := by
  refine .quiet (.refl s) rfl fun e' he' => ?_
  obtain rfl := List.mem_singleton.mp he'
  exact he

theorem stepped_client {service : Catalog.DescService} {endpoint : Option JsString}
    (hfrozen : Server.Frozen options.server s.server)
    (h : client options s service endpoint resolution = (t, out)) : Stepped options s t out := by
  unfold client at h
  split at h
  next =>
    cases h
    exact stepped_failed rfl
  next u hlocal =>
    obtain ⟨hlater, hcache, hhas⟩ := has_isLocal hfrozen hlocal
    rcases huse : useLocal (E := E) options u .client service.typeName with ⟨v, events⟩
    rw [huse] at h
    cases h
    exact stepped_useLocal hfrozen hlater hcache hhas huse
  next u hlocal =>
    obtain ⟨hlater, hcache, hhas⟩ := has_isLocal hfrozen hlocal
    split at h
    next =>
      rcases huse : useRemote options u ⟨service.typeName, endpoint⟩ resolution
        (clientFailure ⟨service.typeName, endpoint⟩) with ⟨v, events⟩
      simp only [huse] at h
      cases h
      have hname := space_notMem_of_isName service.named
      exact stepped_useRemote isQuiet_clientFailure hlater hcache hhas hname huse
    next =>
      cases h
      refine .has hlater hcache hhas fun e he => ?_
      obtain rfl := List.mem_singleton.mp he
      rfl

theorem stepped_resolveTransport {endpoint : Option JsString} (hname : unit ' ' ∉ typeName)
    (hfrozen : Server.Frozen options.server s.server)
    (h : resolveTransport options s typeName endpoint resolution = (t, out)) :
    Stepped options s t out := by
  unfold resolveTransport at h
  split at h
  next =>
    cases h
    exact stepped_failed rfl
  next u hlocal =>
    obtain ⟨hlater, hcache, hhas⟩ := has_isLocal hfrozen hlocal
    rcases huse : useLocal (E := E) options u .context typeName with ⟨v, events⟩
    rw [huse] at h
    cases h
    exact stepped_useLocal hfrozen hlater hcache hhas huse
  next u hlocal =>
    obtain ⟨hlater, hcache, hhas⟩ := has_isLocal hfrozen hlocal
    rcases huse : useRemote options u ⟨typeName, endpoint⟩ resolution
      (contextFailure ⟨typeName, endpoint⟩) with ⟨v, events⟩
    simp only [huse] at h
    cases h
    exact stepped_useRemote isQuiet_contextFailure hlater hcache hhas hname huse

theorem space_notMem_of_lookup {descMethod : Catalog.DescMethod} {method : JsString}
    (hkeyed : ∀ catalog ∈ options.catalog, Keyed catalog)
    (h : lookupCatalogMethod (E := E) options.catalog method = .ok (typeName, descMethod)) :
    unit ' ' ∉ typeName := by
  cases hcatalog : options.catalog with
  | none =>
    rw [hcatalog] at h
    unfold lookupCatalogMethod at h
    split at h <;> cases h
  | some catalog =>
    rw [hcatalog] at h
    obtain ⟨service, hget⟩ := exists_service_of_lookup h
    exact space_notMem_of_service (hkeyed catalog hcatalog) hget

theorem step_cases {a : Action Service Protocol Interceptor Transport E}
    (hkeyed : ∀ catalog ∈ options.catalog, Keyed catalog)
    (hfrozen : Server.Frozen options.server s.server)
    (h : step options outcome depth s a = some (t, out)) : Stepped options s t out := by
  cases a with
  | server a =>
    obtain ⟨⟨server, events⟩, hstep, heq⟩ := Option.map_eq_some_iff.mp h
    cases heq
    refine .quiet (later_step hstep) rfl fun e he => ?_
    obtain ⟨event, -, rfl⟩ := List.mem_map.mp he
    rfl
  | createLocalTransport =>
    have hcall := Option.some.inj h
    unfold createLocalTransport Server.createLocalTransport at hcall
    cases hbuilt : Server.ensureRoutesBuilt options.server s.server with
    | error fault =>
      rw [hbuilt] at hcall
      cases hcall
      exact stepped_failed rfl
    | ok p =>
      rw [hbuilt] at hcall
      cases hcall
      obtain ⟨hlater, -⟩ := later_ensureRoutesBuilt hbuilt
      refine .quiet ?_ rfl (by simp)
      exact ⟨hlater.frozen, hlater.built, fun hs => (hlater.runs hs).trans (Nat.le_succ _),
        fun hs ht => (hlater.positive hs ht).trans (Nat.le_succ _)⟩
  | hasService service =>
    simp only [step] at h
    split at h
    next =>
      cases h
      exact stepped_failed rfl
    next u found hlocal =>
      cases h
      obtain ⟨hlater, hcache, hhas⟩ := has_isLocal hfrozen hlocal
      exact .has hlater hcache hhas (by simp)
  | client service endpoint resolution => exact stepped_client hfrozen (Option.some.inj h)
  | context surface method endpoint resolution =>
    have hcall := Option.some.inj h
    unfold context at hcall
    split at hcall
    next =>
      cases hcall
      exact stepped_failed rfl
    next typeName descMethod hlookup =>
      split at hcall
      next =>
        cases hcall
        exact stepped_failed rfl
      next =>
        exact stepped_resolveTransport (space_notMem_of_lookup hkeyed hlookup) hfrozen hcall

end Steps

end Connectum.Core.Routing
