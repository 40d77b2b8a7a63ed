import Connectum.JsMap

/-! The health of services and components. -/
namespace Connectum.Healthcheck

inductive ServingStatus where
  | unknown
  | serving
  | notServing
  | serviceUnknown
  deriving DecidableEq, Repr

inductive EntryKind where
  | service
  | component
  deriving DecidableEq, Repr

structure HealthEntry where
  status : ServingStatus
  kind : EntryKind
  deriving DecidableEq, Repr

structure HealthcheckManager where
  entries : List (String × HealthEntry) := []
  deriving DecidableEq, Repr

namespace HealthcheckManager

def areAllHealthy (manager : HealthcheckManager) : Bool :=
  manager.entries ≠ [] && manager.entries.all fun e => e.2.status = .serving

/-- A service that is new starts as `unknown`. -/
def addService (entries : List (String × HealthEntry)) (name : String) :
    List (String × HealthEntry) :=
  match entries.lookup name with
  | none => JsMap.set entries name ⟨.unknown, .service⟩
  | some _ => entries

/-- `initialize(serviceNames)`. -/
def initializeServices (manager : HealthcheckManager) (serviceNames : List String) :
    HealthcheckManager :=
  { entries := serviceNames.foldl addService
      (manager.entries.filter fun e => ¬ (e.2.kind = .service ∧ e.1 ∉ serviceNames)) }

def names (manager : HealthcheckManager) : List String := manager.entries.map Prod.fst

def assertValidComponentName (component : String) : Except String Unit :=
  if component = "" then .error "Component name must not be empty"
  else if '.' ∈ component.toList then
    .error ("Component name '" ++ component ++
      "' must not contain dots: dotted names are reserved for RPC service typeNames")
  else .ok ()

def assertNoService (component : String) (existing : Option HealthEntry) : Except String Unit :=
  if existing.map HealthEntry.kind = some .service then
    .error ("Name '" ++ component ++ "' is a registered RPC service, not a component")
  else .ok ()

/-- The assertions of a method, which may throw, and the registry that it writes after them. -/
def checked (manager : HealthcheckManager) (assertions : Except String Unit)
    (written : HealthcheckManager) : Except String Unit × HealthcheckManager :=
  match assertions with
  | .error error => (.error error, manager)
  | .ok _ => (.ok (), written)

def update (manager : HealthcheckManager) (status : ServingStatus) :
    Option String → Except String Unit × HealthcheckManager
  | none => (.ok (), { entries := manager.entries.map fun e => (e.1, ⟨status, e.2.kind⟩) })
  | some service =>
    match manager.entries.lookup service with
    | none => (.error ("Unknown service '" ++ service ++ "'. Registered services: " ++
        ", ".intercalate manager.names), manager)
    | some existing =>
      (.ok (), { entries := JsMap.set manager.entries service ⟨status, existing.kind⟩ })

/-- A component that is there keeps its status. -/
def register (manager : HealthcheckManager) (component : String)
    (initialStatus : ServingStatus := .unknown) : Except String Unit × HealthcheckManager :=
  let existing := manager.entries.lookup component
  manager.checked (do assertValidComponentName component; assertNoService component existing) <|
    match existing with
    | some _ => manager
    | none => { entries := JsMap.set manager.entries component ⟨initialStatus, .component⟩ }

def set (manager : HealthcheckManager) (component : String) (status : ServingStatus) :
    Except String Unit × HealthcheckManager :=
  manager.checked
    (do assertValidComponentName component
        assertNoService component (manager.entries.lookup component))
    { entries := JsMap.set manager.entries component ⟨status, .component⟩ }

def unregister (manager : HealthcheckManager) (component : String) :
    Except String Unit × HealthcheckManager :=
  manager.checked (assertNoService component (manager.entries.lookup component))
    { entries := JsMap.delete manager.entries component }

def getStatus (manager : HealthcheckManager) (service : String) : Option ServingStatus :=
  (manager.entries.lookup service).map HealthEntry.status

def components (manager : HealthcheckManager) : List String :=
  (manager.entries.filter fun e => e.2.kind = .component).map Prod.fst

variable {manager : HealthcheckManager} {entries : List (String × HealthEntry)}
  {serviceNames : List String} {name : String} {e : String × HealthEntry}

theorem addService_of_mem (h : name ∈ entries.map Prod.fst) :
    addService entries name = entries := by
  obtain ⟨⟨_, entry⟩, hentry, rfl⟩ := List.mem_map.mp h
  obtain ⟨found, hfound⟩ := JsMap.exists_lookup hentry
  rw [addService, hfound]

theorem addService_of_not_mem (h : name ∉ entries.map Prod.fst) :
    addService entries name = entries ++ [(name, ⟨.unknown, .service⟩)] := by
  rw [addService, JsMap.lookup_eq_none h, JsMap.set, if_neg h]

theorem mem_addServices :
    e ∈ serviceNames.foldl addService entries ↔ e ∈ entries ∨
      (e.1 ∈ serviceNames ∧ e.1 ∉ entries.map Prod.fst ∧ e.2 = ⟨.unknown, .service⟩) := by
  induction serviceNames generalizing entries with
  | nil => simp
  | cons name serviceNames ih =>
    rw [List.foldl_cons]
    by_cases hname : name ∈ entries.map Prod.fst
    · rw [addService_of_mem hname, ih]
      constructor
      · rintro (he | ⟨hmem, hnew⟩)
        · exact .inl he
        · exact .inr ⟨List.mem_cons_of_mem _ hmem, hnew⟩
      · rintro (he | ⟨hmem, hnot, hnew⟩)
        · exact .inl he
        · rcases List.mem_cons.mp hmem with heq | hmem
          · exact absurd (heq ▸ hname) hnot
          · exact .inr ⟨hmem, hnot, hnew⟩
    · rw [addService_of_not_mem hname, ih, List.mem_append, List.mem_singleton, List.map_append,
        List.map_singleton, List.mem_append, List.mem_singleton]
      constructor
      · rintro ((he | rfl) | ⟨hmem, hnot, hnew⟩)
        · exact .inl he
        · exact .inr ⟨List.mem_cons_self, hname, rfl⟩
        · exact .inr ⟨List.mem_cons_of_mem _ hmem, fun h => hnot (.inl h), hnew⟩
      · rintro (he | ⟨hmem, hnot, hnew⟩)
        · exact .inl (.inl he)
        · by_cases heq : e.1 = name
          · exact .inl (.inr (Prod.ext heq hnew))
          · exact .inr ⟨(List.mem_cons.mp hmem).resolve_left heq, fun h => h.elim hnot heq, hnew⟩

/-- The services that are gone are removed, and the new ones added. -/
theorem mem_initializeServices :
    e ∈ (manager.initializeServices serviceNames).entries ↔
      (e ∈ manager.entries ∧ (e.2.kind = .service → e.1 ∈ serviceNames)) ∨
      (e.1 ∈ serviceNames ∧ e.1 ∉ manager.names ∧ e.2 = ⟨.unknown, .service⟩) := by
  have hkept : ∀ e', e' ∈ manager.entries.filter
      (fun e => ¬ (e.2.kind = .service ∧ e.1 ∉ serviceNames)) ↔
      e' ∈ manager.entries ∧ (e'.2.kind = .service → e'.1 ∈ serviceNames) := by
    intro e'
    rw [List.mem_filter, decide_eq_true_iff, not_and_not_right]
  rw [initializeServices, mem_addServices, hkept]
  refine or_congr_right (and_congr_right fun hname => and_congr_left fun _ => not_congr ?_)
  rw [names, List.mem_map, List.mem_map]
  constructor
  · rintro ⟨e', he', heq⟩
    exact ⟨e', ((hkept e').mp he').1, heq⟩
  · rintro ⟨e', he', heq⟩
    exact ⟨e', (hkept e').mpr ⟨he', fun _ => heq ▸ hname⟩, heq⟩

theorem mem_components :
    name ∈ manager.components ↔ ∃ e ∈ manager.entries, e.2.kind = .component ∧ e.1 = name := by
  simp [components, and_assoc]

/-- No component comes or goes. -/
theorem mem_components_initializeServices :
    name ∈ (manager.initializeServices serviceNames).components ↔ name ∈ manager.components := by
  rw [mem_components, mem_components]
  constructor
  · rintro ⟨e, he, hkind, rfl⟩
    rcases mem_initializeServices.mp he with ⟨he, -⟩ | ⟨-, -, hnew⟩
    · exact ⟨e, he, hkind, rfl⟩
    · rw [hnew] at hkind
      cases hkind
  · rintro ⟨e, he, hkind, rfl⟩
    refine ⟨e, mem_initializeServices.mpr (.inl ⟨he, fun hservice => ?_⟩), hkind, rfl⟩
    cases hkind.symm.trans hservice

/-- What has an entry afterwards. -/
theorem mem_names_initializeServices :
    name ∈ (manager.initializeServices serviceNames).names ↔
      name ∈ serviceNames ∨ name ∈ manager.components := by
  rw [mem_components, names, List.mem_map]
  constructor
  · rintro ⟨e, he, rfl⟩
    rcases mem_initializeServices.mp he with ⟨he, hservice⟩ | ⟨hmem, -⟩
    · cases hkind : e.2.kind with
      | service => exact .inl (hservice hkind)
      | component => exact .inr ⟨e, he, hkind, rfl⟩
    · exact .inl hmem
  · rintro (hmem | ⟨e, he, hkind, rfl⟩)
    · by_cases hname : name ∈ manager.names
      · obtain ⟨e, he, rfl⟩ := List.mem_map.mp hname
        exact ⟨e, mem_initializeServices.mpr (.inl ⟨he, fun _ => hmem⟩), rfl⟩
      · exact ⟨(name, ⟨.unknown, .service⟩),
          mem_initializeServices.mpr (.inr ⟨hmem, hname, rfl⟩), rfl⟩
    · refine ⟨e, mem_initializeServices.mpr (.inl ⟨he, fun hservice => ?_⟩), rfl⟩
      cases hkind.symm.trans hservice

theorem initializeServices_eq_self (hnames : ∀ name ∈ serviceNames, name ∈ manager.names)
    (hservices : ∀ e ∈ manager.entries, e.2.kind = .service → e.1 ∈ serviceNames) :
    manager.initializeServices serviceNames = manager := by
  have hkept : manager.entries.filter (fun e => ¬ (e.2.kind = .service ∧ e.1 ∉ serviceNames)) =
      manager.entries := by
    refine List.filter_eq_self.mpr fun e he => decide_eq_true ?_
    rintro ⟨hkind, hnot⟩
    exact hnot (hservices e he hkind)
  rw [initializeServices, hkept]
  congr 1
  clear hservices hkept
  induction serviceNames with
  | nil => rfl
  | cons name serviceNames ih =>
    obtain ⟨hname, hnames⟩ := List.forall_mem_cons.mp hnames
    rw [List.foldl_cons, addService_of_mem hname]
    exact ih hnames

end HealthcheckManager
end Connectum.Healthcheck
