import Connectum.Healthcheck.HealthcheckManager
import Mathlib.Data.List.Nodup

/-! The health registry over whole histories of calls: what belongs to the protocol and what to
the application. -/
namespace Connectum.Healthcheck.HealthcheckManager

inductive Call where
  | update (status : ServingStatus) (service : Option String)
  | register (component : String) (initialStatus : ServingStatus)
  | set (component : String) (status : ServingStatus)
  | unregister (component : String)
  | initializeServices (serviceNames : List String)
  | clear
  deriving DecidableEq, Repr

/-- What a call returns or throws, and the registry after it. -/
def perform (manager : HealthcheckManager) : Call → Except String Unit × HealthcheckManager
  | .update status service => manager.update status service
  | .register component initialStatus => manager.register component initialStatus
  | .set component status => manager.set component status
  | .unregister component => manager.unregister component
  | .initializeServices serviceNames => (.ok (), manager.initializeServices serviceNames)
  -- `clear()`
  | .clear => (.ok (), {})

def after (calls : List Call) : HealthcheckManager :=
  calls.foldl (fun manager call => (manager.perform call).2) {}

def ValidComponentName (component : String) : Prop :=
  component ≠ "" ∧ '.' ∉ component.toList

/-- What a call can do. -/
inductive Performed (manager : HealthcheckManager) :
    Call → Except String Unit → HealthcheckManager → Prop where
  | threw {call : Call} {error : String} : Performed manager call (.error error) manager
  | updatedAll {status : ServingStatus} : Performed manager (.update status none) (.ok ())
      { entries := manager.entries.map fun e => (e.1, ⟨status, e.2.kind⟩) }
  | updated {status : ServingStatus} {service : String} {existing : HealthEntry}
      (h : manager.entries.lookup service = some existing) :
      Performed manager (.update status (some service)) (.ok ())
        { entries := JsMap.set manager.entries service ⟨status, existing.kind⟩ }
  | kept {component : String} {status : ServingStatus} :
      Performed manager (.register component status) (.ok ()) manager
  | registered {component : String} {status : ServingStatus}
      (hname : ValidComponentName component) :
      Performed manager (.register component status) (.ok ())
        { entries := JsMap.set manager.entries component ⟨status, .component⟩ }
  | set {component : String} {status : ServingStatus} (hname : ValidComponentName component) :
      Performed manager (.set component status) (.ok ())
        { entries := JsMap.set manager.entries component ⟨status, .component⟩ }
  | unregistered {component : String} : Performed manager (.unregister component) (.ok ())
      { entries := JsMap.delete manager.entries component }
  | initialized {serviceNames : List String} :
      Performed manager (.initializeServices serviceNames) (.ok ())
        (manager.initializeServices serviceNames)
  | cleared : Performed manager .clear (.ok ()) {}

variable {manager : HealthcheckManager}

theorem validComponentName_of_ok {component : String} {existing : Option HealthEntry}
    (h : (do assertValidComponentName component; assertNoService component existing) = .ok ()) :
    ValidComponentName component := by
  unfold assertValidComponentName at h
  split at h
  · cases h
  next hempty =>
    split at h
    · cases h
    next hdot => exact ⟨hempty, hdot⟩

theorem performed_checked {call : Call} {assertions : Except String Unit}
    {written : HealthcheckManager}
    (h : assertions = .ok () → Performed manager call (.ok ()) written) :
    Performed manager call (manager.checked assertions written).1
      (manager.checked assertions written).2 := by
  unfold checked
  split
  · exact .threw
  · exact h rfl

theorem performed (manager : HealthcheckManager) (call : Call) :
    Performed manager call (manager.perform call).1 (manager.perform call).2 := by
  cases call with
  | update status service =>
    cases service with
    | none => exact .updatedAll
    | some service =>
      simp only [perform, update]
      split
      · exact .threw
      next h => exact .updated h
  | register component status =>
    refine performed_checked fun hassertions => ?_
    split
    · exact .kept
    · exact .registered (validComponentName_of_ok hassertions)
  | set component status =>
    exact performed_checked fun hassertions => .set (validComponentName_of_ok hassertions)
  | unregister component => exact performed_checked fun _ => .unregistered
  | initializeServices serviceNames => exact .initialized
  | clear => exact .cleared

/-- The keys of the map are distinct, and components have names of their own kind. -/
structure Owned (manager : HealthcheckManager) : Prop where
  nodup : manager.names.Nodup
  valid : ∀ name ∈ manager.components, ValidComponentName name

/-- What `initialize(serviceNames)` leaves to the application and to the protocol. -/
structure Initialized (manager : HealthcheckManager) (serviceNames : List String)
    (manager' : HealthcheckManager) : Prop where
  components : ∀ e, e.2.kind = .component → (e ∈ manager'.entries ↔ e ∈ manager.entries)
  services : ∀ name, (∃ e ∈ manager'.entries, e.2.kind = .service ∧ e.1 = name) ↔
    name ∈ serviceNames ∧ name ∉ manager.components
  surviving : ∀ e ∈ manager.entries, e.2.kind = .service → e.1 ∈ serviceNames →
    e ∈ manager'.entries
  fresh : ∀ e ∈ manager'.entries, e.1 ∉ manager.names → e.2 = ⟨.unknown, .service⟩

theorem nodup_addServices {entries : List (String × HealthEntry)} {serviceNames : List String}
    (h : (entries.map Prod.fst).Nodup) :
    ((serviceNames.foldl addService entries).map Prod.fst).Nodup := by
  induction serviceNames generalizing entries with
  | nil => exact h
  | cons name serviceNames ih =>
    apply ih
    unfold addService
    split
    · exact JsMap.nodup_set h
    · exact h

/-- A written entry replaces what has its name. -/
theorem mem_components_set {name key : String} {entry : HealthEntry} :
    name ∈ ({ entries := JsMap.set manager.entries key entry } : HealthcheckManager).components ↔
      (entry.kind = .component ∧ name = key) ∨ (name ∈ manager.components ∧ name ≠ key) := by
  rw [mem_components, mem_components]
  constructor
  · rintro ⟨e, he, hkind, rfl⟩
    rcases JsMap.mem_set.mp he with rfl | ⟨he, hne⟩
    · exact .inl ⟨hkind, rfl⟩
    · exact .inr ⟨⟨e, he, hkind, rfl⟩, hne⟩
  · rintro (⟨hkind, rfl⟩ | ⟨⟨e, he, hkind, rfl⟩, hne⟩)
    · exact ⟨_, JsMap.mem_set.mpr (.inl rfl), hkind, rfl⟩
    · exact ⟨e, JsMap.mem_set.mpr (.inr ⟨he, hne⟩), hkind, rfl⟩

theorem Performed.eq_of_error {call : Call} {error : String} {manager' : HealthcheckManager}
    (h : Performed manager call (.error error) manager') : manager' = manager := by
  cases h
  rfl

/-- Only `register` and `set` make components, and only under valid names. -/
theorem Performed.created {call : Call} {result : Except String Unit}
    {manager' : HealthcheckManager} (h : Performed manager call result manager') {name : String}
    (hname : name ∈ manager'.components) :
    name ∈ manager.components ∨ (ValidComponentName name ∧
      ∃ status, call = .register name status ∨ call = .set name status) := by
  cases h with
  | threw => exact .inl hname
  | updatedAll =>
    obtain ⟨e, he, hkind, rfl⟩ := mem_components.mp hname
    obtain ⟨e', he', rfl⟩ := List.mem_map.mp he
    exact .inl (mem_components.mpr ⟨e', he', hkind, rfl⟩)
  | @updated status service existing hlookup =>
    rcases mem_components_set.mp hname with ⟨hkind, rfl⟩ | ⟨hold, -⟩
    · exact .inl (mem_components.mpr ⟨_, JsMap.mem_of_lookup hlookup, hkind, rfl⟩)
    · exact .inl hold
  | kept => exact .inl hname
  | @registered component status hvalid =>
    rcases mem_components_set.mp hname with ⟨-, rfl⟩ | ⟨hold, -⟩
    · exact .inr ⟨hvalid, status, .inl rfl⟩
    · exact .inl hold
  | @set component status hvalid =>
    rcases mem_components_set.mp hname with ⟨-, rfl⟩ | ⟨hold, -⟩
    · exact .inr ⟨hvalid, status, .inr rfl⟩
    · exact .inl hold
  | unregistered =>
    obtain ⟨e, he, hkind, rfl⟩ := mem_components.mp hname
    exact .inl (mem_components.mpr ⟨e, (JsMap.mem_delete.mp he).1, hkind, rfl⟩)
  | initialized => exact .inl (mem_components_initializeServices.mp hname)
  | cleared => cases hname

theorem Performed.nodup {call : Call} {result : Except String Unit}
    {manager' : HealthcheckManager} (h : Performed manager call result manager')
    (hnodup : manager.names.Nodup) : manager'.names.Nodup := by
  cases h with
  | threw => exact hnodup
  | updatedAll =>
    rw [names, List.map_map]
    exact hnodup
  | updated => exact JsMap.nodup_set hnodup
  | kept => exact hnodup
  | registered => exact JsMap.nodup_set hnodup
  | set => exact JsMap.nodup_set hnodup
  | unregistered => exact hnodup.sublist (List.filter_sublist.map _)
  | initialized => exact nodup_addServices (hnodup.sublist (List.filter_sublist.map _))
  | cleared => exact List.nodup_nil

theorem Owned.perform (h : Owned manager) (call : Call) : Owned (manager.perform call).2 where
  nodup := (performed manager call).nodup h.nodup
  valid name hname := by
    rcases (performed manager call).created hname with hold | ⟨hvalid, -⟩
    · exact h.valid name hold
    · exact hvalid

theorem owned_after (calls : List Call) : Owned (after calls) := by
  have hfold (manager : HealthcheckManager) (h : Owned manager) :
      Owned (calls.foldl (fun manager call => (manager.perform call).2) manager) := by
    induction calls generalizing manager with
    | nil => exact h
    | cons call calls ih => exact ih _ (h.perform call)
  exact hfold {} ⟨List.nodup_nil, by simp [components]⟩

/-- A name is that of one entry. -/
theorem Owned.eq_of_name (h : Owned manager) {e e' : String × HealthEntry}
    (he : e ∈ manager.entries) (he' : e' ∈ manager.entries) (heq : e.1 = e'.1) : e = e' :=
  List.inj_on_of_nodup_map h.nodup he he' heq

theorem Owned.initialized (h : Owned manager) (serviceNames : List String) :
    Initialized manager serviceNames (manager.initializeServices serviceNames) where
  components e hkind := by
    rw [mem_initializeServices]
    constructor
    · rintro (⟨he, -⟩ | ⟨-, -, hnew⟩)
      · exact he
      · rw [hnew] at hkind
        cases hkind
    · intro he
      exact .inl ⟨he, fun hservice => nomatch hkind.symm.trans hservice⟩
  services name := by
    rw [mem_components]
    constructor
    · rintro ⟨e, he, hkind, rfl⟩
      rcases mem_initializeServices.mp he with ⟨he, hmem⟩ | ⟨hmem, hnot, -⟩
      · refine ⟨hmem hkind, ?_⟩
        rintro ⟨e', he', hcomponent, heq⟩
        rw [h.eq_of_name he' he heq, hkind] at hcomponent
        cases hcomponent
      · refine ⟨hmem, ?_⟩
        rintro ⟨e', he', -, heq⟩
        exact hnot (List.mem_map.mpr ⟨e', he', heq⟩)
    · rintro ⟨hmem, hnot⟩
      by_cases hname : name ∈ manager.names
      · obtain ⟨e, he, rfl⟩ := List.mem_map.mp hname
        have hkind : e.2.kind = .service := by
          cases hkind : e.2.kind with
          | service => rfl
          | component => exact absurd ⟨e, he, hkind, rfl⟩ hnot
        exact ⟨e, mem_initializeServices.mpr (.inl ⟨he, fun _ => hmem⟩), hkind, rfl⟩
      · exact ⟨(name, ⟨.unknown, .service⟩),
          mem_initializeServices.mpr (.inr ⟨hmem, hname, rfl⟩), rfl, rfl⟩
  surviving e he _ hmem := mem_initializeServices.mpr (.inl ⟨he, fun _ => hmem⟩)
  fresh e he hnot := by
    rcases mem_initializeServices.mp he with ⟨hold, -⟩ | ⟨-, -, hnew⟩
    · exact absurd (List.mem_map.mpr ⟨e, hold, rfl⟩) hnot
    · exact hnew

theorem areAllHealthy_iff :
    manager.areAllHealthy = true ↔
      manager.entries ≠ [] ∧ ∀ e ∈ manager.entries, e.2.status = .serving := by
  simp [areAllHealthy]

/-- What a call keeps. -/
structure Lawful (manager : HealthcheckManager) (call : Call) (result : Except String Unit)
    (manager' : HealthcheckManager) : Prop where
  thrown : ∀ error, result = .error error → manager' = manager
  created : ∀ name ∈ manager'.components, name ∉ manager.components →
    ValidComponentName name ∧ ∃ status, call = .register name status ∨ call = .set name status
  initialized : ∀ serviceNames, call = .initializeServices serviceNames →
    result = .ok () ∧ Initialized manager serviceNames manager'

/-- After any history of calls the registry keeps protocol and application apart, and every
further call keeps to it. -/
theorem registry_invariant (calls : List Call) :
    Owned (after calls) ∧
      ((after calls).areAllHealthy = true ↔
        (after calls).entries ≠ [] ∧ ∀ e ∈ (after calls).entries, e.2.status = .serving) ∧
      ∀ call, Lawful (after calls) call ((after calls).perform call).1
        ((after calls).perform call).2 := by
  have howned := owned_after calls
  refine ⟨howned, areAllHealthy_iff, fun call => ⟨?_, ?_, ?_⟩⟩
  · intro error herror
    have hperformed := performed (after calls) call
    rw [herror] at hperformed
    exact hperformed.eq_of_error
  · intro name hname hnew
    exact ((performed (after calls) call).created hname).resolve_left hnew
  · rintro serviceNames rfl
    exact ⟨rfl, howned.initialized serviceNames⟩

end Connectum.Healthcheck.HealthcheckManager
