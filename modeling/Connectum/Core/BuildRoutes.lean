import Connectum.Healthcheck.HealthcheckManager
import Mathlib.Logic.Function.Basic

/-! The `routes` callback, and what it leaves when it runs a second time. -/
namespace Connectum.Core
open Healthcheck

inductive MethodKind where
  | unary
  | serverStreaming
  | clientStreaming
  | bidiStreaming
  deriving DecidableEq, Repr

structure DescMethod where
  name : String
  methodKind : MethodKind
  deriving DecidableEq, Repr

structure ServiceType where
  typeName : String
  methods : List DescMethod := []
  deriving DecidableEq, Repr

/-- A file descriptor; `ref` is the identity of the object. -/
structure DescFile where
  ref : ℕ
  services : List ServiceType
  deriving DecidableEq, Repr

structure DescService where
  file : DescFile
  type : ServiceType
  mem : type ∈ file.services

def DescService.typeName (service : DescService) : String := service.type.typeName

def Health : DescService where
  file := {
    ref := 0
    services := [⟨"grpc.health.v1.Health",
      [⟨"Check", .unary⟩, ⟨"List", .unary⟩, ⟨"Watch", .serverStreaming⟩]⟩] }
  type := ⟨"grpc.health.v1.Health",
    [⟨"Check", .unary⟩, ⟨"List", .unary⟩, ⟨"Watch", .serverStreaming⟩]⟩
  mem := List.mem_singleton_self _

/-- A `Healthcheck()` over one of the health managers, or a protocol that mounts services which may
depend on the registry it is shown. -/
inductive ProtocolRegistration (Manager : Type*) where
  | healthcheck (manager : Manager)
  | other (services : List DescFile → List DescService)

structure BuildRoutesOptions (Manager : Type*) where
  services : List DescService
  protocols : List (ProtocolRegistration Manager)
  enabledServices : Option (List String) := none

/-- What the calls of `routes` share. -/
structure RoutesState (Manager : Type*) where
  registry : List DescFile := []
  registeredServiceTypeNames : List String := []
  userFileCount : ℕ := 0
  managers : Manager → HealthcheckManager

def serviceNames (registry : List DescFile) : List String :=
  registry.flatMap fun file => file.services.map ServiceType.typeName

namespace RoutesState
variable {Manager : Type*}

/-- The intercepted `router.service(service, …)`. -/
def service (s : RoutesState Manager) (service : DescService) : RoutesState Manager :=
  { s with
    registry := if service.file ∈ s.registry then s.registry else s.registry ++ [service.file]
    registeredServiceTypeNames :=
      if service.typeName ∈ s.registeredServiceTypeNames then s.registeredServiceTypeNames
      else s.registeredServiceTypeNames ++ [service.typeName] }

variable {s t u : RoutesState Manager} {d : DescService} {services : List DescService}

/-- `t` has all that is registered in `s`. -/
structure Grows (s t : RoutesState Manager) : Prop where
  registry : s.registry <+: t.registry
  names : s.registeredServiceTypeNames <+: t.registeredServiceTypeNames

def Mounted (s : RoutesState Manager) (d : DescService) : Prop :=
  d.file ∈ s.registry ∧ d.typeName ∈ s.registeredServiceTypeNames

theorem Grows.refl (s : RoutesState Manager) : Grows s s := ⟨List.prefix_rfl, List.prefix_rfl⟩

theorem Grows.trans (h : Grows s t) (h' : Grows t u) : Grows s u :=
  ⟨h.registry.trans h'.registry, h.names.trans h'.names⟩

theorem Mounted.grows (h : Mounted s d) (hgrows : Grows s t) : Mounted t d :=
  ⟨hgrows.registry.subset h.1, hgrows.names.subset h.2⟩

theorem Grows.serviceNames (hgrows : Grows s t) :
    serviceNames s.registry ⊆ serviceNames t.registry := by
  intro name hname
  obtain ⟨file, hfile, hservice⟩ := List.mem_flatMap.mp hname
  exact List.mem_flatMap.mpr ⟨file, hgrows.registry.subset hfile, hservice⟩

theorem grows_service (s : RoutesState Manager) (d : DescService) : Grows s (s.service d) := by
  unfold service
  constructor
  · dsimp only
    split
    · exact List.prefix_rfl
    · exact List.prefix_append _ _
  · dsimp only
    split
    · exact List.prefix_rfl
    · exact List.prefix_append _ _

theorem mounted_service (s : RoutesState Manager) (d : DescService) : Mounted (s.service d) d := by
  unfold service
  constructor
  · dsimp only
    split
    next h => exact h
    next => simp
  · dsimp only
    split
    next h => exact h
    next => simp

theorem service_of_mounted (h : Mounted s d) : s.service d = s := by
  rw [service, if_pos h.1, if_pos h.2]

theorem grows_foldl_service (services : List DescService) (s : RoutesState Manager) :
    Grows s (services.foldl service s) := by
  induction services generalizing s with
  | nil => exact .refl s
  | cons d services ih => exact (grows_service s d).trans (ih _)

theorem mounted_foldl_service (hd : d ∈ services) (s : RoutesState Manager) :
    Mounted (services.foldl service s) d := by
  induction services generalizing s with
  | nil => cases hd
  | cons first services ih =>
    rcases List.mem_cons.mp hd with rfl | hd
    · exact (mounted_service s d).grows (grows_foldl_service services _)
    · exact ih hd _

theorem foldl_service_of_mounted (h : ∀ d ∈ services, Mounted s d) :
    services.foldl service s = s := by
  induction services with
  | nil => rfl
  | cons d services ih =>
    obtain ⟨hd, hservices⟩ := List.forall_mem_cons.mp h
    rw [List.foldl_cons, service_of_mounted hd, ih hservices]

theorem managers_foldl_service (services : List DescService) (s : RoutesState Manager) :
    (services.foldl service s).managers = s.managers := by
  induction services generalizing s with
  | nil => rfl
  | cons d services ih => exact ih _

/-- The user services that are mounted here, and the count of their files. -/
def registerServices (options : BuildRoutesOptions Manager) (s : RoutesState Manager) :
    RoutesState Manager :=
  let s := (options.services.filter fun definition => match options.enabledServices with
    | none => true
    | some enabled => definition.typeName ∈ enabled).foldl service s
  { s with userFileCount := s.registry.length }

variable {options : BuildRoutesOptions Manager}

theorem grows_registerServices (options : BuildRoutesOptions Manager) (s : RoutesState Manager) :
    Grows s (registerServices options s) :=
  ⟨(grows_foldl_service _ s).registry, (grows_foldl_service _ s).names⟩

theorem managers_registerServices : (registerServices options s).managers = s.managers :=
  managers_foldl_service _ s

/-- Only the count changes when the user services are registered again. -/
theorem registerServices_of_grows (h : Grows (registerServices options s) t) :
    registerServices options t = { t with userFileCount := t.registry.length } := by
  have hmounted : (options.services.filter fun definition => match options.enabledServices with
      | none => true
      | some enabled => definition.typeName ∈ enabled).foldl service t = t := by
    refine foldl_service_of_mounted fun d hd => ?_
    have hfirst : Mounted (registerServices options s) d := mounted_foldl_service hd s
    exact hfirst.grows h
  rw [registerServices, hmounted]

section
variable [DecidableEq Manager]

/-- `protocol.register(router, { registry })`. -/
def register (s : RoutesState Manager) : ProtocolRegistration Manager → RoutesState Manager
  | .healthcheck manager =>
    service { s with
      managers := Function.update s.managers manager
        ((s.managers manager).initializeServices (serviceNames s.registry)) } Health
  | .other services => (services s.registry).foldl service s

/-- The callback, without the router that it is given. -/
def routes (options : BuildRoutesOptions Manager) (s : RoutesState Manager) : RoutesState Manager :=
  options.protocols.foldl register (registerServices options s)

variable {protocols : List (ProtocolRegistration Manager)}
  {p : ProtocolRegistration Manager} {manager : Manager}

theorem grows_register (s : RoutesState Manager) (p : ProtocolRegistration Manager) :
    Grows s (s.register p) := by
  cases p with
  | healthcheck manager => exact ⟨(grows_service _ _).registry, (grows_service _ _).names⟩
  | other services => exact grows_foldl_service _ s

theorem grows_foldl_register (protocols : List (ProtocolRegistration Manager))
    (s : RoutesState Manager) : Grows s (protocols.foldl register s) := by
  induction protocols generalizing s with
  | nil => exact .refl s
  | cons p protocols ih => exact (grows_register s p).trans (ih _)

theorem managers_register_of_ne (h : p ≠ .healthcheck manager) :
    (s.register p).managers manager = s.managers manager := by
  cases p with
  | healthcheck other =>
    refine Function.update_of_ne ?_ _ _
    rintro rfl
    exact h rfl
  | other services => rw [register, managers_foldl_service]

theorem managers_register (s : RoutesState Manager) (manager : Manager) :
    (s.register (.healthcheck manager)).managers manager =
      (s.managers manager).initializeServices (serviceNames s.registry) :=
  Function.update_self _ _ _

theorem managers_foldl_register (h : .healthcheck manager ∉ protocols) (s : RoutesState Manager) :
    (protocols.foldl register s).managers manager = s.managers manager := by
  induction protocols generalizing s with
  | nil => rfl
  | cons p protocols ih =>
    obtain ⟨hp, hprotocols⟩ := not_or.mp fun hmem => h (List.mem_cons.mpr hmem)
    rw [List.foldl_cons, ih hprotocols, managers_register_of_ne (Ne.symm hp)]

theorem mem_components_foldl_register {name : String} :
    name ∈ ((protocols.foldl register s).managers manager).components ↔
      name ∈ (s.managers manager).components := by
  induction protocols generalizing s with
  | nil => exact Iff.rfl
  | cons p protocols ih =>
    rw [List.foldl_cons, ih]
    by_cases hp : p = .healthcheck manager
    · rw [hp, managers_register, HealthcheckManager.mem_components_initializeServices]
    · rw [managers_register_of_ne hp]

theorem exists_last {α : Type*} {l : List α} {a : α} (h : a ∈ l) :
    ∃ before after, l = before ++ a :: after ∧ a ∉ after := by
  obtain ⟨after, before, hl, hnot⟩ := List.eq_append_cons_of_mem (List.mem_reverse.mpr h)
  refine ⟨before.reverse, after.reverse, ?_, fun hmem => hnot (List.mem_reverse.mp hmem)⟩
  rw [← List.reverse_reverse l, hl]
  simp

/-- What the last `Healthcheck()` over a manager has seen is what the manager is left with. -/
theorem managers_routes {before after : List (ProtocolRegistration Manager)}
    (hprotocols : options.protocols = before ++ .healthcheck manager :: after)
    (hlast : .healthcheck manager ∉ after) :
    (routes options s).managers manager =
      ((before.foldl register (registerServices options s)).managers manager).initializeServices
        (serviceNames (before.foldl register (registerServices options s)).registry) := by
  rw [routes, hprotocols, List.foldl_append, List.foldl_cons, managers_foldl_register hlast,
    managers_register]

theorem mem_names_routes {before after : List (ProtocolRegistration Manager)} {name : String}
    (hprotocols : options.protocols = before ++ .healthcheck manager :: after)
    (hlast : .healthcheck manager ∉ after) :
    name ∈ ((routes options s).managers manager).names ↔
      name ∈ serviceNames (before.foldl register (registerServices options s)).registry ∨
        name ∈ (s.managers manager).components := by
  rw [managers_routes hprotocols hlast, HealthcheckManager.mem_names_initializeServices,
    mem_components_foldl_register, managers_registerServices]

theorem grows_routes {before after : List (ProtocolRegistration Manager)}
    (hprotocols : options.protocols = before ++ after) (s : RoutesState Manager) :
    Grows (before.foldl register (registerServices options s)) (routes options s) := by
  rw [routes, hprotocols, List.foldl_append]
  exact grows_foldl_register after _

/-- No protocol but `Healthcheck()` mounts anything new over the completed registry. -/
def Repeatable (options : BuildRoutesOptions Manager) (first : RoutesState Manager) : Prop :=
  ∀ services, .other services ∈ options.protocols → ∀ d ∈ services first.registry, Mounted first d

/-- Every service of the completed registry was there when the last `Healthcheck()` over a manager
was registered, or has the name of a component. -/
def Covered (options : BuildRoutesOptions Manager) (s : RoutesState Manager) : Prop :=
  ∀ before manager after, options.protocols = before ++ .healthcheck manager :: after →
    .healthcheck manager ∉ after → ∀ name ∈ serviceNames (routes options s).registry,
      name ∈ serviceNames (routes { options with protocols := before } s).registry ∨
        name ∈ (s.managers manager).components

theorem mounted_health {before after : List (ProtocolRegistration Manager)}
    (hprotocols : options.protocols = before ++ .healthcheck manager :: after) :
    Mounted (routes options s) Health := by
  rw [routes, hprotocols, List.foldl_append, List.foldl_cons]
  exact (mounted_service _ Health).grows (grows_foldl_register after _)

/-- The manager has nothing to add for the completed registry. -/
theorem initializeServices_routes (hcovered : Covered options s)
    (hp : .healthcheck manager ∈ options.protocols) :
    ((routes options s).managers manager).initializeServices
      (serviceNames (routes options s).registry) = (routes options s).managers manager := by
  obtain ⟨before, after, hprotocols, hlast⟩ := exists_last hp
  refine HealthcheckManager.initializeServices_eq_self ?_ ?_
  · intro name hname
    exact (mem_names_routes hprotocols hlast).mpr
      (hcovered before manager after hprotocols hlast name hname)
  · intro e he hkind
    rw [managers_routes hprotocols hlast] at he
    have hseen : e.1 ∈
        serviceNames (before.foldl register (registerServices options s)).registry := by
      rcases HealthcheckManager.mem_initializeServices.mp he with ⟨-, hservice⟩ | ⟨hname, -⟩
      · exact hservice hkind
      · exact hname
    exact (grows_routes hprotocols s).serviceNames hseen

/-- Registering a protocol again changes nothing. -/
theorem register_routes (hrepeatable : Repeatable options (routes options s))
    (hcovered : Covered options s) (hp : p ∈ options.protocols) (count : ℕ) :
    register { routes options s with userFileCount := count } p =
      { routes options s with userFileCount := count } := by
  cases p with
  | healthcheck manager =>
    obtain ⟨before, after, hprotocols, -⟩ := exists_last hp
    have hinit := initializeServices_routes hcovered hp
    simp only [register, hinit, Function.update_eq_self]
    exact service_of_mounted (mounted_health hprotocols)
  | other services => exact foldl_service_of_mounted (hrepeatable services hp)

theorem foldl_register_routes (hrepeatable : Repeatable options (routes options s))
    (hcovered : Covered options s) (count : ℕ) (hsub : protocols ⊆ options.protocols) :
    protocols.foldl register { routes options s with userFileCount := count } =
      { routes options s with userFileCount := count } := by
  induction protocols with
  | nil => rfl
  | cons p protocols ih =>
    rw [List.foldl_cons, register_routes hrepeatable hcovered (hsub List.mem_cons_self)]
    exact ih fun p hp => hsub (List.mem_cons_of_mem _ hp)

theorem routes_routes (hrepeatable : Repeatable options (routes options s))
    (hcovered : Covered options s) :
    routes options (routes options s) = { routes options s with
      userFileCount := (routes options s).registry.length } := by
  have hgrows : Grows (registerServices options s) (routes options s) := grows_foldl_register _ _
  conv_lhs => rw [routes, registerServices_of_grows hgrows]
  exact foldl_register_routes hrepeatable hcovered _ (List.Subset.refl _)

/-- In a second pass that registers nothing, a protocol is shown the completed registry. -/
theorem registry_between {before after : List (ProtocolRegistration Manager)}
    (hprotocols : options.protocols = before ++ after)
    (hregistry : (routes options t).registry = t.registry) :
    (before.foldl register (registerServices options t)).registry = t.registry := by
  have hfirst : Grows t (before.foldl register (registerServices options t)) :=
    (grows_registerServices options t).trans (grows_foldl_register before _)
  have hsecond := (grows_routes hprotocols t).registry
  rw [hregistry] at hsecond
  exact (hfirst.registry.eq_of_length
    (Nat.le_antisymm hfirst.registry.length_le hsecond.length_le)).symm

theorem repeatable_of_routes (hregistry : (routes options t).registry = t.registry)
    (hnames : (routes options t).registeredServiceTypeNames = t.registeredServiceTypeNames) :
    Repeatable options t := by
  intro services hp d hd
  obtain ⟨before, after, hprotocols, -⟩ := exists_last hp
  have hbetween := registry_between hprotocols hregistry
  have hmounted : Mounted (routes options t) d := by
    rw [routes, hprotocols, List.foldl_append, List.foldl_cons]
    rw [← hbetween] at hd
    exact (mounted_foldl_service hd _).grows (grows_foldl_register after _)
  exact ⟨hregistry ▸ hmounted.1, hnames ▸ hmounted.2⟩

theorem covered_of_routes
    (hregistry : (routes options (routes options s)).registry = (routes options s).registry)
    (hmanagers : ∀ manager, (routes options (routes options s)).managers manager =
      (routes options s).managers manager) : Covered options s := by
  intro before manager after hprotocols hlast name hname
  have hsecond : name ∈ ((routes options (routes options s)).managers manager).names := by
    rw [mem_names_routes hprotocols hlast, registry_between hprotocols hregistry]
    exact .inl hname
  rw [hmanagers] at hsecond
  exact (mem_names_routes hprotocols hlast).mp hsecond

/-- A second call of `routes` leaves the registry, the registered names and the health managers as
the first has left them if and only if no other protocol mounts anything new over the completed
registry, and every service of that registry was there when the last `Healthcheck()` over a manager
was registered, or has the name of a component. -/
theorem routes_again_iff (options : BuildRoutesOptions Manager)
    (managers : Manager → HealthcheckManager) :
    let first := routes options { managers }
    let second := routes options first
    (second.registry = first.registry ∧
      second.registeredServiceTypeNames = first.registeredServiceTypeNames ∧
      ∀ manager, second.managers manager = first.managers manager ∧
        (second.managers manager).areAllHealthy = (first.managers manager).areAllHealthy) ↔
    Repeatable options first ∧ Covered options { managers } := by
  intro first second
  constructor
  · rintro ⟨hregistry, hnames, hmanagers⟩
    exact ⟨repeatable_of_routes hregistry hnames,
      covered_of_routes hregistry fun manager => (hmanagers manager).1⟩
  · rintro ⟨hrepeatable, hcovered⟩
    have hsecond : second = { first with userFileCount := first.registry.length } :=
      routes_routes hrepeatable hcovered
    rw [hsecond]
    exact ⟨rfl, rfl, fun manager => ⟨rfl, rfl⟩⟩

def Greeter : DescService where
  file := { ref := 1, services := [⟨"greet.v1.Greeter", [⟨"SayHello", .unary⟩]⟩] }
  type := ⟨"greet.v1.Greeter", [⟨"SayHello", .unary⟩]⟩
  mem := List.mem_singleton_self _

/-- The second call adds the health service itself, and the server is no longer healthy. -/
theorem health_added_by_second :
    ¬ ∀ (options : BuildRoutesOptions Unit) (managers : Unit → HealthcheckManager),
        .healthcheck () ∈ options.protocols →
        let first := routes options { managers }
        let second := routes options first
        second.registry = first.registry ∧
          second.registeredServiceTypeNames = first.registeredServiceTypeNames ∧
          ∀ manager, second.managers manager = first.managers manager ∧
            (second.managers manager).areAllHealthy = (first.managers manager).areAllHealthy := by
  intro hagain
  obtain ⟨-, -, hmanagers⟩ := hagain
    { services := [Greeter], protocols := [.healthcheck ()] }
    (fun _ => { entries := [("greet.v1.Greeter", ⟨.serving, .service⟩)] }) (by simp)
  exact absurd (hmanagers ()).2 (by decide)

end

end RoutesState
end Connectum.Core
