import Connectum.Core.ServerRouting

/-! What holds of the calls of a server's clients and handlers over its whole life. -/
namespace Connectum.Core.Routing
open JsString Machine Catalog
open ShutdownManager (HookOutcome)
open Server (Contents)

variable {Service Protocol Interceptor Transport E : Type}

/-- What there is of the resolver in a log. -/
def remotes (log : List (Event Service Protocol Interceptor Transport E)) :
    List (ClientEvent Transport E) :=
  log.filterMap fun
    | .remote event => some event
    | _ => none

/-- What may follow `before`: once a service has been found here, it is used here only; and a
transport is used that the resolver has returned for this context, or for the one which differs in
having an empty endpoint or none. -/
def Settled (before : List (Event Service Protocol Interceptor Transport E)) :
    Event Service Protocol Interceptor Transport E → Prop
  | .has typeName false => .has typeName true ∉ before
  | .usedLocal _ typeName _ => .has typeName true ∈ before
  | .remote (.asked ctx _) => .has ctx.typeName true ∉ before
  | .remote (.used ctx transport) => .has ctx.typeName true ∉ before ∧
      ∃ ctx', (ctx' = ctx ∨ Twins ctx' ctx) ∧ .remote (.asked ctx' (.transport transport)) ∈ before
  | .has _ true | .server _ | .failed _ | .remote (.failed _) => True

/-- What a run leaves. -/
structure Inv (options : Options Service Protocol Interceptor)
    (s : State Service Protocol Interceptor Transport)
    (log : List (Event Service Protocol Interceptor Transport E)) : Prop where
  frozen : Server.Frozen options.server s.server
  positive : s.server.builtRoutes.isSome → 1 ≤ s.runs
  served : ∀ name, .has name true ∈ log → s.Has options name true
  missed : ∀ name, .has name false ∈ log → s.server.builtRoutes.isSome ∧
    ∃ n, 1 ≤ n ∧ name ∉ options.registered s.server.contents n
  mounted : ∀ caller name transport, .usedLocal caller name transport ∈ log →
    s.server.builtRoutes.isSome ∧
      transport = ⟨s.server.contents, caller.interceptors options.server⟩
  entries : s.remoteTransports =
    (resolved (remotes log)).map fun e => (cacheKey e.1, e.2)
  nodup : (s.remoteTransports.map Prod.fst).Nodup
  named : ∀ e ∈ resolved (remotes log), unit ' ' ∉ e.1.typeName
  used : ∀ ctx transport, .remote (.used ctx transport) ∈ log →
    unit ' ' ∉ ctx.typeName ∧ (cacheKey ctx, transport) ∈ s.remoteTransports
  settled : Justified Settled log

section Runs

variable {options : Options Service Protocol Interceptor} {outcome : String → ℕ → HookOutcome}
  {depth : ℕ} {s t : State Service Protocol Interceptor Transport} {name : JsString}
  {ctx : ResolverContext} {transport : Transport} {resolution : Resolution Transport E}
  {e : Event Service Protocol Interceptor Transport E}
  {log out : List (Event Service Protocol Interceptor Transport E)}

theorem remotes_append (log out : List (Event Service Protocol Interceptor Transport E)) :
    remotes (log ++ out) = remotes log ++ remotes out :=
  List.filterMap_append

theorem mem_remotes {event : ClientEvent Transport E} :
    event ∈ remotes log ↔ .remote event ∈ log := by
  unfold remotes
  rw [List.mem_filterMap]
  constructor
  · rintro ⟨e, he, heq⟩
    split at heq
    next =>
      cases heq
      exact he
    next => cases heq
  · exact fun h => ⟨_, h, rfl⟩

theorem inv_init (contents : Contents Service Protocol Interceptor) :
    Inv options (init contents : State Service Protocol Interceptor Transport)
      ([] : List (Event Service Protocol Interceptor Transport E)) where
  frozen := Server.frozen_init contents
  positive h := by cases h
  served _ h := by cases h
  missed _ h := by cases h
  mounted _ _ _ h := by cases h
  entries := rfl
  nodup := List.nodup_nil
  named _ h := by cases h
  used _ _ h := by cases h
  settled := justified_nil

theorem Inv.later (h : Inv options s log) (hlater : Later options s t)
    (hcache : t.remoteTransports = s.remoteTransports) : Inv options t log where
  frozen := hlater.frozen h.frozen
  positive := hlater.positive h.positive
  served name hmem := (h.served name hmem).later hlater
  missed name hmem := by
    obtain ⟨hbuilt, n, hn, hnot⟩ := h.missed name hmem
    rw [hlater.contents hbuilt]
    exact ⟨hlater.isSome hbuilt, n, hn, hnot⟩
  mounted caller name transport hmem := by
    obtain ⟨hbuilt, htransport⟩ := h.mounted caller name transport hmem
    rw [hlater.contents hbuilt]
    exact ⟨hlater.isSome hbuilt, htransport⟩
  entries := hcache.trans h.entries
  nodup := by
    rw [hcache]
    exact h.nodup
  named := h.named
  used := by
    rw [hcache]
    exact h.used
  settled := h.settled

/-- A service that is not found here has never been. -/
theorem Inv.not_served (h : Inv options s log) (hhas : s.Has options name false) :
    .has name true ∉ log := by
  intro hmem
  have hfound := (h.served name hmem).2.trans hhas.2.symm
  cases hfound

/-- What one more event has to meet. -/
theorem Inv.concat (h : Inv options s log)
    (hhas : ∀ name found, e = .has name found → s.Has options name found)
    (hlocal : ∀ caller name transport, e = .usedLocal caller name transport →
      transport = ⟨s.server.contents, caller.interceptors options.server⟩)
    (hasked : ∀ ctx transport, e ≠ .remote (.asked ctx (.transport transport)))
    (hused : ∀ ctx transport, e = .remote (.used ctx transport) →
      unit ' ' ∉ ctx.typeName ∧ (cacheKey ctx, transport) ∈ s.remoteTransports)
    (hsettled : Settled log e) : Inv options s (log ++ [e]) := by
  have hresolved : resolved (remotes (log ++ [e])) = resolved (remotes log) := by
    rw [remotes_append, resolved_append, List.append_right_eq_self]
    refine List.eq_nil_iff_forall_not_mem.mpr fun p hp => hasked p.1 p.2 ?_
    exact (List.mem_singleton.mp (mem_remotes.mp (mem_resolved.mp hp))).symm
  refine ⟨h.frozen, h.positive, ?_, ?_, ?_, ?_, h.nodup, ?_, ?_, ?_⟩
  · intro name hmem
    rcases List.mem_append.mp hmem with hmem | hmem
    · exact h.served name hmem
    · exact hhas name true (List.mem_singleton.mp hmem).symm
  · intro name hmem
    rcases List.mem_append.mp hmem with hmem | hmem
    · exact h.missed name hmem
    · obtain ⟨hbuilt, hnot⟩ := hhas name false (List.mem_singleton.mp hmem).symm
      exact ⟨hbuilt, s.runs, h.positive hbuilt, of_decide_eq_false hnot.symm⟩
  · intro caller name transport hmem
    rcases List.mem_append.mp hmem with hmem | hmem
    · exact h.mounted caller name transport hmem
    · have he := (List.mem_singleton.mp hmem).symm
      refine ⟨?_, hlocal caller name transport he⟩
      rw [he] at hsettled
      exact (h.served name hsettled).1
  · rw [hresolved]
    exact h.entries
  · rw [hresolved]
    exact h.named
  · intro ctx transport hmem
    rcases List.mem_append.mp hmem with hmem | hmem
    · exact h.used ctx transport hmem
    · exact hused ctx transport (List.mem_singleton.mp hmem).symm
  · exact justified_concat.mpr ⟨h.settled, hsettled⟩

theorem Inv.quiet (h : Inv options s log) (hquiet : ∀ e ∈ out, e.isQuiet = true) :
    Inv options s (log ++ out) := by
  induction out generalizing log with
  | nil => simpa using h
  | cons e out ih =>
    obtain ⟨he, hout⟩ := List.forall_mem_cons.mp hquiet
    have hnext : Inv options s (log ++ [e]) := by
      apply h.concat
      · rintro name found rfl
        cases he
      · rintro caller name transport rfl
        cases he
      · rintro ctx transport rfl
        cases he
      · rintro ctx transport rfl
        cases he
      · unfold Event.isQuiet at he
        unfold Settled
        split at he <;> trivial
    have hrest := ih hnext hout
    rwa [List.append_assoc] at hrest

theorem Inv.has {found : Bool} (h : Inv options s log) (hhas : s.Has options name found) :
    Inv options s (log ++ [.has name found]) := by
  apply h.concat
  · rintro name' found' heq
    cases heq
    exact hhas
  · exact fun _ _ _ heq => by cases heq
  · exact fun _ _ heq => by cases heq
  · exact fun _ _ heq => by cases heq
  · cases found with
    | true => trivial
    | false => exact h.not_served hhas

theorem Inv.usedLocal {caller : Caller} (h : Inv options s log) (hmem : .has name true ∈ log) :
    Inv options s (log ++ [.usedLocal caller name
      ⟨s.server.contents, caller.interceptors options.server⟩]) := by
  apply h.concat
  · exact fun _ _ heq => by cases heq
  · rintro caller' name' transport heq
    cases heq
    rfl
  · exact fun _ _ heq => by cases heq
  · exact fun _ _ heq => by cases heq
  · exact hmem

/-- The transport under the key of a context is one that the resolver has returned for it. -/
theorem Inv.exists_asked (h : Inv options s log) (hname : unit ' ' ∉ ctx.typeName)
    (hmem : (cacheKey ctx, transport) ∈ s.remoteTransports) :
    ∃ ctx', (ctx' = ctx ∨ Twins ctx' ctx) ∧
      .remote (.asked ctx' (.transport transport)) ∈ log := by
  rw [h.entries] at hmem
  obtain ⟨⟨ctx', transport'⟩, hresolved, heq⟩ := List.mem_map.mp hmem
  obtain ⟨hkey, rfl⟩ := Prod.mk.inj heq
  refine ⟨ctx', ?_, mem_remotes.mp (mem_resolved.mp hresolved)⟩
  by_cases hsame : ctx' = ctx
  · exact .inl hsame
  · exact .inr ((collide_iff (h.named _ hresolved) hname).mp ⟨hsame, hkey⟩)

theorem Inv.usedRemote (h : Inv options s log) (hhas : s.Has options ctx.typeName false)
    (hname : unit ' ' ∉ ctx.typeName)
    (hmem : (cacheKey ctx, transport) ∈ s.remoteTransports) :
    Inv options s (log ++ [.remote (.used ctx transport)]) := by
  apply h.concat
  · exact fun _ _ heq => by cases heq
  · exact fun _ _ _ heq => by cases heq
  · exact fun _ _ heq => by cases heq
  · rintro ctx' transport' heq
    cases heq
    exact ⟨hname, hmem⟩
  · exact ⟨h.not_served hhas, h.exists_asked hname hmem⟩

theorem Inv.refused (h : Inv options s log) (hhas : s.Has options ctx.typeName false)
    (hresolution : ∀ transport, resolution ≠ .transport transport) :
    Inv options s (log ++ [.remote (.asked ctx resolution)]) := by
  apply h.concat
  · exact fun _ _ heq => by cases heq
  · exact fun _ _ _ heq => by cases heq
  · rintro ctx' transport heq
    cases heq
    exact hresolution transport rfl
  · exact fun _ _ heq => by cases heq
  · exact h.not_served hhas

/-- A transport that the resolver returns is stored under a new key. -/
theorem Inv.resolved (h : Inv options s log) (hhas : s.Has options ctx.typeName false)
    (hname : unit ' ' ∉ ctx.typeName) (hget : s.remoteTransports.get (cacheKey ctx) = none) :
    Inv options { s with remoteTransports := s.remoteTransports ++ [(cacheKey ctx, transport)] }
      (log ++ [.remote (.asked ctx (.transport transport))]) := by
  have hresolved : Catalog.resolved (remotes (log ++
      [(.remote (.asked ctx (.transport transport)) :
        Event Service Protocol Interceptor Transport E)])) =
      Catalog.resolved (remotes log) ++ [(ctx, transport)] := by
    rw [remotes_append, resolved_append]
    rfl
  have hold {e : Event Service Protocol Interceptor Transport E}
      (he : ∀ ctx resolution, e ≠ .remote (.asked ctx resolution))
      (hmem : e ∈ log ++ [.remote (.asked ctx (.transport transport))]) : e ∈ log := by
    rcases List.mem_append.mp hmem with hmem | hmem
    · exact hmem
    · exact absurd (List.mem_singleton.mp hmem) (he _ _)
  refine ⟨h.frozen, h.positive, ?_, ?_, ?_, ?_, ?_, ?_, ?_, ?_⟩
  · exact fun name hmem => h.served name (hold (fun _ _ heq => by cases heq) hmem)
  · exact fun name hmem => h.missed name (hold (fun _ _ heq => by cases heq) hmem)
  · exact fun caller name transport hmem =>
      h.mounted caller name transport (hold (fun _ _ heq => by cases heq) hmem)
  · rw [hresolved, List.map_append, ← h.entries]
    rfl
  · show (List.map Prod.fst (s.remoteTransports ++ [(cacheKey ctx, transport)])).Nodup
    rw [List.map_append, List.map_singleton]
    apply List.nodup_append.mpr ⟨h.nodup, by simp, _⟩
    intro key hkey key' hkey' heq
    rw [heq, List.mem_singleton.mp hkey'] at hkey
    exact get_eq_none.mp hget hkey
  · rw [hresolved]
    intro p hp
    rcases List.mem_append.mp hp with hp | hp
    · exact h.named p hp
    · obtain rfl := List.mem_singleton.mp hp
      exact hname
  · intro ctx' transport' hmem
    obtain ⟨hname', hmem⟩ := h.used ctx' transport' (hold (fun _ _ heq => by cases heq) hmem)
    exact ⟨hname', List.mem_append_left _ hmem⟩
  · exact justified_concat.mpr ⟨h.settled, h.not_served hhas⟩

theorem Inv.step {a : Action Service Protocol Interceptor Transport E}
    (hkeyed : ∀ catalog ∈ options.catalog, Keyed catalog) (h : Inv options s log)
    (hstep : Routing.step options outcome depth s a = some (t, out)) :
    Inv options t (log ++ out) := by
  cases step_cases hkeyed h.frozen hstep with
  | quiet hlater hcache hquiet => exact (h.later hlater hcache).quiet hquiet
  | has hlater hcache hhas hquiet =>
    have hnext := ((h.later hlater hcache).has hhas).quiet hquiet
    rwa [List.append_assoc] at hnext
  | @usedLocal caller name hlater hcache hhas =>
    have hnext : Inv options t (log ++ [.has name true] ++ [.usedLocal caller name
        ⟨t.server.contents, caller.interceptors options.server⟩]) :=
      ((h.later hlater hcache).has hhas).usedLocal
        (List.mem_append_right _ (List.mem_singleton_self _))
    rwa [List.append_assoc] at hnext
  | cached hlater hcache hhas hname hget =>
    have hmem := mem_of_get hget
    rw [← hcache] at hmem
    have hnext := ((h.later hlater hcache).has hhas).usedRemote hhas hname hmem
    rwa [List.append_assoc] at hnext
  | @resolved ctx transport hlater hcache hhas hname hget =>
    have hfound : Inv options { t with remoteTransports := s.remoteTransports } log :=
      h.later ⟨hlater.frozen, hlater.built, hlater.runs, hlater.positive⟩ rfl
    have hstored : Inv options
        { t with remoteTransports := s.remoteTransports ++ [(cacheKey ctx, transport)] }
        (log ++ [.has ctx.typeName false] ++ [.remote (.asked ctx (.transport transport))]) :=
      (hfound.has hhas).resolved hhas hname hget
    rw [← hcache] at hstored
    have hmem : (cacheKey ctx, transport) ∈ t.remoteTransports := by simp [hcache]
    have hnext := hstored.usedRemote hhas hname hmem
    simpa using hnext
  | refused hlater hcache hhas hresolution he =>
    have hnext := (((h.later hlater hcache).has hhas).refused hhas hresolution).quiet
      (List.forall_mem_singleton.mpr he)
    simpa using hnext

theorem inv_run {contents : Contents Service Protocol Interceptor}
    {actions : List (Action Service Protocol Interceptor Transport E)}
    (hkeyed : ∀ catalog ∈ options.catalog, Keyed catalog)
    (hrun : run (Routing.step options outcome depth) (init contents) actions = some (s, log)) :
    Inv options s log :=
  run_invariant (l := []) (fun _ _ _ _ _ h hstep => h.step hkeyed hstep) (inv_init contents) hrun

theorem Inv.nodup_resolved (h : Inv options s log) :
    ((Catalog.resolved (remotes log)).map Prod.fst).Nodup := by
  have hkeys := h.nodup
  rw [h.entries, List.map_map] at hkeys
  have hcomp : (Prod.fst ∘ fun e : ResolverContext × Transport => (cacheKey e.1, e.2)) =
      cacheKey ∘ Prod.fst := rfl
  rw [hcomp, ← List.map_map] at hkeys
  exact List.Nodup.of_map cacheKey hkeys

/-- The key of a context has one transport. -/
theorem Inv.eq_of_key (h : Inv options s log) {key : JsString} {transport' : Transport}
    (hmem : (key, transport) ∈ s.remoteTransports)
    (hmem' : (key, transport') ∈ s.remoteTransports) : transport = transport' := by
  have hsame := List.inj_on_of_nodup_map h.nodup hmem hmem' rfl
  exact congrArg Prod.snd hsame

theorem registered_first (hrepeats : ∀ contents n, 1 ≤ n →
      options.registered contents (n + 1) ⊆ options.registered contents n)
    (contents : Contents Service Protocol Interceptor) {n : ℕ} (hn : 1 ≤ n) :
    options.registered contents n ⊆ options.registered contents 1 := by
  induction n, hn using Nat.le_induction with
  | base => exact List.Subset.refl _
  | succ n hn ih => exact List.Subset.trans (hrepeats contents n hn) ih

/-- Where the calls of a run go. -/
structure Routed (options : Options Service Protocol Interceptor)
    (s : State Service Protocol Interceptor Transport)
    (log : List (Event Service Protocol Interceptor Transport E)) : Prop where
  settled : Justified Settled log
  mounted : ∀ caller name transport, .usedLocal caller name transport ∈ log →
    transport = ⟨s.server.contents, caller.interceptors options.server⟩
  once : ((resolved (remotes log)).map Prod.fst).Nodup
  shared : ∀ ctx ctx' transport transport', .remote (.used ctx transport) ∈ log →
    .remote (.used ctx' transport') ∈ log → ctx = ctx' ∨ Twins ctx ctx' → transport = transport'
  fixed : (∀ contents n, 1 ≤ n →
      options.registered contents (n + 1) ⊆ options.registered contents n) →
    ∀ name, .has name false ∈ log → .has name true ∉ log

/-- However the calls of a server's clients and handlers are ordered, before and after its start and
in any phase of its life: a service that has once been found here is never asked for or used
elsewhere, and nothing is used here that was not found here; all calls served here reach the
contents that the server shows. The resolver returns a transport for a context once, whoever
asks, and all callers share it. If the routes always register the same, no service is ever
found both here and elsewhere. -/
theorem calls_routed {contents : Contents Service Protocol Interceptor}
    {actions : List (Action Service Protocol Interceptor Transport E)}
    (hkeyed : ∀ catalog ∈ options.catalog, Keyed catalog)
    (hrun : run (step options outcome depth) (init contents) actions = some (s, log)) :
    Routed options s log := by
  have h := inv_run hkeyed hrun
  refine ⟨h.settled, ?_, h.nodup_resolved, ?_, ?_⟩
  · intro caller name transport hmem
    exact (h.mounted caller name transport hmem).2
  · intro ctx ctx' transport transport' hmem hmem' hsame
    obtain ⟨hname, hentry⟩ := h.used ctx transport hmem
    obtain ⟨hname', hentry'⟩ := h.used ctx' transport' hmem'
    have hkey : cacheKey ctx = cacheKey ctx' := by
      rcases hsame with rfl | htwins
      · rfl
      · exact ((collide_iff hname hname').mpr htwins).2
    rw [hkey] at hentry
    exact h.eq_of_key hentry hentry'
  · intro hrepeats name hmissed hserved
    obtain ⟨hbuilt, n, hn, hnot⟩ := h.missed name hmissed
    have hfound : name ∈ options.registered s.server.contents s.runs :=
      of_decide_eq_true (h.served name hserved).2.symm
    apply hnot
    apply registered_mono s.server.contents hn
    exact registered_first hrepeats s.server.contents (h.positive hbuilt) hfound

end Runs

def users : Catalog.DescService where
  typeName := js "users.v1.UsersService"
  methods := [{ name := js "GetUser" }]

/-- A server with the users, which reaches the orders through its resolver. -/
def usersOptions : Options ℕ ℕ ℕ where
  server := Server.busOptions
  catalog := some ordersCatalog
  remoteResolver := true
  registered contents _ := contents.services.map fun _ => users.typeName
  grows _ _ := List.Subset.refl _

/-- A client of the orders, then the start and calls of both services. -/
def usersCalls : List (Action ℕ ℕ ℕ ℕ Unit) :=
  [.client orders none (.transport 7), .server .start, .client users none .null,
    .context .call (js "orders.v1.OrdersService/GetOrder") none .null]

/-- The client and a handler share the transport of the orders. -/
theorem calls_routed_users : ∃ s log,
    run (step usersOptions (fun _ _ => .resolves) 3) (init ⟨[0], [], []⟩) usersCalls =
      some (s, log) ∧
    resolved (remotes log) = [(⟨orders.typeName, none⟩, 7)] ∧ (remotes log).length = 3 ∧
    s.server.localTransport = some ⟨⟨[0], [], []⟩, []⟩ ∧ Routed usersOptions s log := by
  have hkeyed : ∀ catalog ∈ usersOptions.catalog, Keyed catalog := by
    rintro catalog ⟨⟩
    exact ⟨List.nodup_singleton _, by simp [ordersCatalog]⟩
  have hvalues : (run (step usersOptions (fun _ _ => .resolves) 3) (init ⟨[0], [], []⟩)
      usersCalls).map (fun p => (resolved (remotes p.2), (remotes p.2).length,
        p.1.server.localTransport)) =
      some ([(⟨orders.typeName, none⟩, 7)], 3, some ⟨⟨[0], [], []⟩, []⟩) := by
    decide +kernel
  obtain ⟨⟨s, log⟩, hrun, heq⟩ := Option.map_eq_some_iff.mp hvalues
  obtain ⟨hresolved, hlength, hlocal⟩ : _ ∧ _ ∧ _ := by simpa only [Prod.mk.injEq] using heq
  exact ⟨s, log, hrun, hresolved, hlength, hlocal, calls_routed hkeyed hrun⟩

end Connectum.Core.Routing
