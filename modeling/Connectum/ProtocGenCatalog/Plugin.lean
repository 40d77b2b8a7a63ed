import Connectum.Core.CatalogClient

/-! The generator of catalogs, and what the runtime makes of the files that it emits. -/
namespace Connectum.ProtocGenCatalog
open JsString
open Connectum.Core (MethodKind)
open Connectum.Core.Catalog

structure CatalogOptions where
  outputFile : JsString := js "catalog.gen.ts"
  deriving DecidableEq, Repr

/-- `STREAM_KIND`. -/
def streamKind : MethodKind → Option JsString
  | .unary => none
  | .serverStreaming => some (js "server-stream")
  | .clientStreaming => some (js "client-stream")
  | .bidiStreaming => some (js "bidi")

structure DescFile where
  services : List DescService

/-- A member of `ConnectumCallMap` or of `ConnectumStreamMap`, with the method that its shapes come
from. -/
structure Member where
  key : JsString
  method : DescMethod
  kind : Option JsString := none

/-- What is printed: the literal `serviceCatalog`, and the members of both interfaces. -/
structure GeneratedFile where
  name : JsString
  serviceCatalog : List (JsString × DescService) := []
  callMap : List Member := []
  streamMap : List Member := []

def servicesToGenerate (files : List DescFile) : List DescService :=
  files.flatMap DescFile.services

def methodKey (service : DescService) (method : DescMethod) : JsString :=
  service.typeName ++ unit '/' :: method.name

/-- The members that come from a service. -/
def members (pick : DescMethod → Option (Option JsString)) (service : DescService) : List Member :=
  service.methods.filterMap fun method =>
    (pick method).map fun kind => { key := methodKey service method, method, kind }

/-- The methods of `ConnectumCallMap`. -/
def pickUnary (method : DescMethod) : Option (Option JsString) :=
  if method.methodKind = .unary then some none else none

/-- The methods of `ConnectumStreamMap`, with their kinds. -/
def pickStream (method : DescMethod) : Option (Option JsString) :=
  (streamKind method.methodKind).map some

def generateCatalog (options : CatalogOptions) (files : List DescFile) : GeneratedFile :=
  let services := servicesToGenerate files
  if services.length = 0 then { name := options.outputFile }
  else
    { name := options.outputFile
      serviceCatalog := services.map fun service => (service.typeName, service)
      callMap := services.flatMap (members pickUnary)
      streamMap := services.flatMap (members pickStream) }

/-- A property of an object literal; `__proto__` sets the prototype, and a key that comes again
keeps its place. -/
def defineProperty (object : ServiceCatalog) (e : JsString × DescService) : ServiceCatalog :=
  if e.1 = js "__proto__" then { object with prototype := some e.2 }
  else { object with entries := JsMap.set object.entries e.1 e.2 }

/-- The value of the literal. -/
def GeneratedFile.evaluate (file : GeneratedFile) : ServiceCatalog :=
  file.serviceCatalog.foldl defineProperty {}

def typeNames (files : List DescFile) : List JsString :=
  (servicesToGenerate files).map DescService.typeName

variable {options : CatalogOptions} {files : List DescFile} {services : List DescService}
  {service : DescService} {method key caller typeName : JsString} {descMethod : DescMethod}
  {E : Type}

theorem generateCatalog_eq : generateCatalog options files =
    { name := options.outputFile
      serviceCatalog := (servicesToGenerate files).map fun service => (service.typeName, service)
      callMap := (servicesToGenerate files).flatMap (members pickUnary)
      streamMap := (servicesToGenerate files).flatMap (members pickStream) } := by
  unfold generateCatalog
  dsimp only
  split
  next hempty =>
    rw [List.length_eq_zero_iff.mp hempty]
    rfl
  next => rfl

/-- The entries that the literal has itself. -/
def ownEntries (services : List DescService) : List (JsString × DescService) :=
  (services.filter fun service => service.typeName ≠ js "__proto__").map fun service =>
    (service.typeName, service)

theorem mem_ownEntries {e : JsString × DescService} : e ∈ ownEntries services ↔
    e.2 ∈ services ∧ e.1 = e.2.typeName ∧ e.1 ≠ js "__proto__" := by
  rw [ownEntries, List.mem_map]
  constructor
  · rintro ⟨service, hmem, rfl⟩
    obtain ⟨hservice, hproto⟩ := List.mem_filter.mp hmem
    exact ⟨hservice, rfl, by simpa using hproto⟩
  · obtain ⟨key, service⟩ := e
    rintro ⟨hservice, hname, hproto⟩
    obtain rfl : key = service.typeName := hname
    exact ⟨service, List.mem_filter.mpr ⟨hservice, by simpa using hproto⟩, rfl⟩

theorem foldl_defineProperty (hnodup : (services.map DescService.typeName).Nodup) :
    (services.map fun service => (service.typeName, service)).foldl defineProperty {} =
      { entries := ownEntries services
        prototype := services.find? fun service => service.typeName = js "__proto__" } := by
  induction services using List.reverseRecOn with
  | nil => rfl
  | append_singleton services service ih =>
    rw [List.map_append, List.nodup_append] at hnodup
    obtain ⟨hnodup, -, hdisjoint⟩ := hnodup
    have hnew : ∀ other ∈ services, other.typeName ≠ service.typeName := fun other hother =>
      hdisjoint _ (List.mem_map_of_mem hother) _ (List.mem_singleton_self _)
    rw [List.map_append, List.foldl_append, ih hnodup, List.map_singleton, List.foldl_cons,
      List.foldl_nil, defineProperty, List.find?_append]
    unfold ownEntries
    rw [List.filter_append, List.map_append]
    split
    next hproto =>
      have hnone : services.find? (fun service => service.typeName = js "__proto__") = none := by
        refine List.find?_eq_none.mpr fun other hother => ?_
        rw [decide_eq_true_iff, ← hproto]
        exact hnew other hother
      change service.typeName = js "__proto__" at hproto
      rw [hnone]
      simp [hproto]
    next hproto =>
      change service.typeName ≠ js "__proto__" at hproto
      rw [JsMap.set_of_notMem]
      · simp [hproto]
      · intro hmem
        obtain ⟨e, he, heq⟩ := List.mem_map.mp hmem
        obtain ⟨other, hother, rfl⟩ := List.mem_map.mp he
        exact hnew other (List.mem_filter.mp hother).1 heq

/-- The value of what is generated, where no two services share a name. -/
theorem evaluate_generateCatalog (hnodup : (typeNames files).Nodup) :
    (generateCatalog options files).evaluate =
      { entries := ownEntries (servicesToGenerate files)
        prototype := (servicesToGenerate files).find? fun service =>
          service.typeName = js "__proto__" } := by
  rw [generateCatalog_eq]
  exact foldl_defineProperty hnodup

theorem nodup_ownEntries (hnodup : (services.map DescService.typeName).Nodup) :
    ((ownEntries services).map Prod.fst).Nodup := by
  rw [ownEntries, List.map_map]
  exact hnodup.sublist (List.filter_sublist.map _)

/-- Under every name of a service, and no other, the literal has that service. -/
theorem get_evaluate_iff (hnodup : (typeNames files).Nodup) :
    (generateCatalog options files).evaluate.get key = .service service ↔
      service ∈ servicesToGenerate files ∧ service.typeName = key := by
  have heq {other : DescService} (hmem : service ∈ servicesToGenerate files)
      (hother : other ∈ servicesToGenerate files) (hname : service.typeName = other.typeName) :
      service = other := List.inj_on_of_nodup_map hnodup hmem hother hname
  rw [evaluate_generateCatalog hnodup, ServiceCatalog.get]
  dsimp only
  cases hfind : (ownEntries (servicesToGenerate files)).find? fun e => e.1 = key with
  | some e =>
    obtain ⟨hmem, hname, -⟩ := mem_ownEntries.mp (List.mem_of_find?_eq_some hfind)
    have hkey : e.1 = key := by simpa using List.find?_some hfind
    dsimp only
    rw [Property.service.injEq]
    constructor
    · rintro rfl
      exact ⟨hmem, hname.symm.trans hkey⟩
    · rintro ⟨hservice, rfl⟩
      exact (heq hservice hmem (hkey.symm.trans hname)).symm
  | none =>
    have hown (hmem : service ∈ servicesToGenerate files) (hkey : service.typeName = key) :
        key = js "__proto__" := by
      by_contra hproto
      have he : (key, service) ∈ ownEntries (servicesToGenerate files) :=
        mem_ownEntries.mpr ⟨hmem, hkey.symm, hproto⟩
      exact List.find?_eq_none.mp hfind _ he (decide_eq_true rfl)
    cases hproto : (servicesToGenerate files).find? fun service =>
        service.typeName = js "__proto__" with
    | none =>
      have hnone (hmem : service ∈ servicesToGenerate files) :
          service.typeName ≠ js "__proto__" := by
        simpa using List.find?_eq_none.mp hproto service hmem
      dsimp only
      refine iff_of_false ?_ fun h => hnone h.1 (h.2.trans (hown h.1 h.2))
      split <;> exact Property.noConfusion
    | some descriptor =>
      have hmem := List.mem_of_find?_eq_some hproto
      have hname : descriptor.typeName = js "__proto__" := by simpa using List.find?_some hproto
      dsimp only
      split
      next hkey =>
        rw [Property.service.injEq]
        constructor
        · rintro rfl
          exact ⟨hmem, hname.trans hkey.symm⟩
        · rintro ⟨hservice, rfl⟩
          exact (heq hservice hmem (hkey.trans hname.symm)).symm
      next hkey =>
        refine iff_of_false ?_ fun h => hkey (hown h.1 h.2)
        split <;> exact Property.noConfusion

theorem slash_notMem_of_isName {s : JsString} (h : IsName s) : unit '/' ∉ s := by
  intro hmem
  have hunit := List.all_eq_true.mp h.2 _ hmem
  exact absurd hunit (by decide)

/-- The keys that are printed split into the names that they are made of. -/
theorem splitMethodKey_methodKey (service : DescService) (descMethod : DescMethod) :
    splitMethodKey (methodKey service descMethod) =
      some (service.typeName, descMethod.name) :=
  splitMethodKey_eq_some.mpr ⟨⟨rfl, slash_notMem_of_isName descMethod.named⟩, service.named.1,
    descMethod.named.1⟩

theorem lookup_eq_ok_iff {c : ServiceCatalog} :
    lookupCatalogMethod (E := E) (some c) method caller = .ok (typeName, descMethod) ↔
      ∃ service, c.get typeName = .service service ∧ descMethod ∈ service.methods ∧
        splitMethodKey method = some (typeName, descMethod.name) := by
  constructor
  · intro h
    obtain ⟨service, hget⟩ := exists_service_of_lookup h
    cases hsplit : splitMethodKey method with
    | none =>
      rw [lookupCatalogMethod, hsplit] at h
      cases h
    | some parts =>
      obtain ⟨key, name⟩ := parts
      have hkey : key = typeName := by
        unfold lookupCatalogMethod at h
        rw [hsplit] at h
        dsimp only at h
        split at h
        next => cases h
        next => cases h
        next =>
          split at h
          next => cases h
          next =>
            cases h
            rfl
      subst hkey
      rcases lookup_service (E := E) caller hsplit hget with
        ⟨found, hmem, rfl, hfound⟩ | ⟨-, message, hfound⟩
      · rw [hfound] at h
        cases h
        exact ⟨service, hget, hmem, rfl⟩
      · rw [hfound] at h
        cases h
  · rintro ⟨service, hget, hmem, hsplit⟩
    rw [lookupCatalogMethod, hsplit]
    dsimp only
    rw [hget]
    dsimp only
    rw [find?_of_mem service.nodup hmem]

/-- A method key is found in the value of the literal if and only if it is that of a method of a
service. -/
theorem lookup_evaluate_iff (hnodup : (typeNames files).Nodup) :
    lookupCatalogMethod (E := E) (some (generateCatalog options files).evaluate) method caller =
        .ok (typeName, descMethod) ↔
      ∃ service ∈ servicesToGenerate files, descMethod ∈ service.methods ∧
        method = methodKey service descMethod ∧ typeName = service.typeName := by
  rw [lookup_eq_ok_iff]
  constructor
  · rintro ⟨service, hget, hmem, hsplit⟩
    obtain ⟨hservice, rfl⟩ := (get_evaluate_iff hnodup).mp hget
    exact ⟨service, hservice, hmem, (splitMethodKey_eq_some.mp hsplit).1.1, rfl⟩
  · rintro ⟨service, hservice, hmem, rfl, rfl⟩
    exact ⟨service, (get_evaluate_iff hnodup).mpr ⟨hservice, rfl⟩, hmem,
      splitMethodKey_methodKey service descMethod⟩

theorem mem_members {pick : DescMethod → Option (Option JsString)} {m : Member} :
    m ∈ members pick service ↔ m.method ∈ service.methods ∧ m.key = methodKey service m.method ∧
      pick m.method = some m.kind := by
  rw [members, List.mem_filterMap]
  constructor
  · rintro ⟨descMethod, hmem, hm⟩
    obtain ⟨kind, hkind, rfl⟩ := Option.map_eq_some_iff.mp hm
    exact ⟨hmem, rfl, hkind⟩
  · obtain ⟨key, descMethod, kind⟩ := m
    rintro ⟨hmem, hkey, hkind⟩
    obtain rfl : key = methodKey service descMethod := hkey
    exact ⟨descMethod, hmem, Option.map_eq_some_iff.mpr ⟨kind, hkind, rfl⟩⟩

/-- The members of an interface are the lookups that succeed, of the methods that it takes. -/
theorem mem_interface_iff {pick : DescMethod → Option (Option JsString)} {m : Member}
    (hnodup : (typeNames files).Nodup) :
    m ∈ (servicesToGenerate files).flatMap (members pick) ↔
      (∃ typeName, lookupCatalogMethod (E := E) (some (generateCatalog options files).evaluate)
        m.key caller = .ok (typeName, m.method)) ∧ pick m.method = some m.kind := by
  rw [List.mem_flatMap]
  constructor
  · rintro ⟨service, hservice, hm⟩
    obtain ⟨hmem, hkey, hpick⟩ := mem_members.mp hm
    exact ⟨⟨service.typeName, (lookup_evaluate_iff hnodup).mpr
      ⟨service, hservice, hmem, hkey, rfl⟩⟩, hpick⟩
  · rintro ⟨⟨typeName, hlookup⟩, hpick⟩
    obtain ⟨service, hservice, hmem, hkey, -⟩ := (lookup_evaluate_iff hnodup).mp hlookup
    exact ⟨service, hservice, mem_members.mpr ⟨hmem, hkey, hpick⟩⟩

theorem methods_members_sublist (pick : DescMethod → Option (Option JsString))
    (service : DescService) :
    ((members pick service).map Member.method).Sublist service.methods := by
  unfold members
  generalize service.methods = methods
  induction methods with
  | nil => exact List.Sublist.slnil
  | cons descMethod methods ih =>
    rw [List.filterMap_cons]
    cases pick descMethod with
    | none => exact ih.cons descMethod
    | some kind => exact ih.cons_cons descMethod

theorem methodKey_injective (service : DescService) {first second : DescMethod}
    (h : methodKey service first = methodKey service second) : first.name = second.name := by
  have hsplit := splitMethodKey_methodKey service first
  rw [h, splitMethodKey_methodKey] at hsplit
  exact (Prod.mk.inj (Option.some.inj hsplit)).2.symm

theorem keys_members (pick : DescMethod → Option (Option JsString)) (service : DescService) :
    (members pick service).map Member.key =
      ((members pick service).map Member.method).map (methodKey service) := by
  rw [List.map_map]
  refine List.map_congr_left fun m hm => ?_
  exact (mem_members.mp hm).2.1

theorem nodup_keys (pick : DescMethod → Option (Option JsString))
    (hnodup : (services.map DescService.typeName).Nodup) :
    ((services.flatMap (members pick)).map Member.key).Nodup := by
  rw [List.map_flatMap, List.nodup_flatMap]
  constructor
  · intro service _
    have hnames := service.nodup.sublist ((methods_members_sublist pick service).map _)
    rw [keys_members]
    refine (List.nodup_map_iff_inj_on hnames.of_map).mpr fun first hfirst second hsecond heq => ?_
    exact List.inj_on_of_nodup_map hnames hfirst hsecond (methodKey_injective service heq)
  · refine (List.pairwise_map.mp hnodup).imp fun {first second} hne => ?_
    intro key hfirst hsecond
    obtain ⟨m, hm, rfl⟩ := List.mem_map.mp hfirst
    obtain ⟨m', hm', heq⟩ := List.mem_map.mp hsecond
    have hsplit := splitMethodKey_methodKey first m.method
    rw [← (mem_members.mp hm).2.1, ← heq, (mem_members.mp hm').2.1,
      splitMethodKey_methodKey] at hsplit
    exact hne (Prod.mk.inj (Option.some.inj hsplit)).1.symm

theorem pickUnary_iff {kind : Option JsString} :
    pickUnary descMethod = some kind ↔ descMethod.methodKind = .unary ∧ kind = none := by
  unfold pickUnary
  split
  next h => simp [h, eq_comm]
  next h => simp [h]

theorem pickStream_iff {kind : Option JsString} : pickStream descMethod = some kind ↔
    descMethod.methodKind ≠ .unary ∧ kind = streamKind descMethod.methodKind := by
  unfold pickStream
  cases descMethod.methodKind <;> simp [streamKind, eq_comm]

theorem admit_call_iff {found : JsString} {kind : MethodKind} :
    Surface.call.admit (E := E) method found kind = .ok typeName ↔
      kind = .unary ∧ found = typeName := by
  unfold Surface.admit
  dsimp only
  split
  next h => simp [h]
  next h => simp [h]

theorem admit_stream_iff {found : JsString} {kind : MethodKind} :
    Surface.stream.admit (E := E) method found kind = .ok typeName ↔
      kind ≠ .unary ∧ found = typeName := by
  unfold Surface.admit
  dsimp only
  split
  next h => simp [h]
  next h => simp [h]

theorem target_eq_ok_iff {surface : Surface} {c : ServiceCatalog} :
    surface.target (E := E) c method = .ok typeName ↔ ∃ found descMethod,
      lookupCatalogMethod (E := E) (some c) method surface.caller = .ok (found, descMethod) ∧
        surface.admit (E := E) method found descMethod.methodKind = .ok typeName := by
  unfold Surface.target
  cases lookupCatalogMethod (E := E) (some c) method surface.caller with
  | error error => simp
  | ok parts =>
    obtain ⟨found, descMethod⟩ := parts
    simp

/-- Where the services of the files have names of their own, the generated types say exactly what
the runtime does with the generated literal: the members of the call map are the unary methods that
a lookup finds, those of the stream map the others with their kinds, no key comes twice, and a
surface of the client admits a key if and only if it is in its map. -/
theorem generated_exact (options : CatalogOptions) (files : List DescFile)
    (hnodup : (typeNames files).Nodup) :
    let file := generateCatalog options files
    let finds := fun key descMethod => ∃ typeName,
      lookupCatalogMethod (E := E) (some file.evaluate) key = .ok (typeName, descMethod)
    (∀ m, m ∈ file.callMap ↔
      finds m.key m.method ∧ m.method.methodKind = .unary ∧ m.kind = none) ∧
    (∀ m, m ∈ file.streamMap ↔ finds m.key m.method ∧ m.method.methodKind ≠ .unary ∧
      m.kind = streamKind m.method.methodKind) ∧
    ((file.callMap ++ file.streamMap).map Member.key).Nodup ∧
    (∀ key, key ∈ file.callMap.map Member.key ↔
      ∃ typeName, Surface.call.target (E := E) file.evaluate key = .ok typeName) ∧
    ∀ key, key ∈ file.streamMap.map Member.key ↔
      ∃ typeName, Surface.stream.target (E := E) file.evaluate key = .ok typeName := by
  intro file finds
  have hcall (caller : JsString) (m : Member) : m ∈ file.callMap ↔
      (∃ typeName, lookupCatalogMethod (E := E) (some file.evaluate) m.key caller =
        .ok (typeName, m.method)) ∧ m.method.methodKind = .unary ∧ m.kind = none := by
    rw [← pickUnary_iff, ← mem_interface_iff hnodup]
    exact iff_of_eq (congrArg (m ∈ GeneratedFile.callMap ·) generateCatalog_eq)
  have hstream (caller : JsString) (m : Member) : m ∈ file.streamMap ↔
      (∃ typeName, lookupCatalogMethod (E := E) (some file.evaluate) m.key caller =
        .ok (typeName, m.method)) ∧ m.method.methodKind ≠ .unary ∧
          m.kind = streamKind m.method.methodKind := by
    rw [← pickStream_iff, ← mem_interface_iff hnodup]
    exact iff_of_eq (congrArg (m ∈ GeneratedFile.streamMap ·) generateCatalog_eq)
  refine ⟨hcall _, hstream _, ?_, fun key => ?_, fun key => ?_⟩
  · rw [List.map_append]
    refine List.Nodup.append ?_ ?_ fun key hunary hstreaming => ?_
    · exact congrArg GeneratedFile.callMap generateCatalog_eq ▸ nodup_keys pickUnary hnodup
    · exact congrArg GeneratedFile.streamMap generateCatalog_eq ▸ nodup_keys pickStream hnodup
    · obtain ⟨m, hm, rfl⟩ := List.mem_map.mp hunary
      obtain ⟨m', hm', heq⟩ := List.mem_map.mp hstreaming
      obtain ⟨⟨typeName, hlookup⟩, hkind, -⟩ := (hcall (js "ctx") m).mp hm
      obtain ⟨⟨typeName', hlookup'⟩, hkind', -⟩ := (hstream (js "ctx") m').mp hm'
      rw [heq, hlookup] at hlookup'
      obtain ⟨-, hmethod⟩ := Prod.mk.inj (Except.ok.inj hlookup')
      exact hkind' (hmethod ▸ hkind)
  · simp only [target_eq_ok_iff, admit_call_iff]
    constructor
    · intro hkey
      obtain ⟨m, hm, rfl⟩ := List.mem_map.mp hkey
      obtain ⟨⟨typeName, hlookup⟩, hkind, -⟩ := (hcall _ m).mp hm
      exact ⟨typeName, typeName, m.method, hlookup, hkind, rfl⟩
    · rintro ⟨-, found, descMethod, hlookup, hkind, rfl⟩
      exact List.mem_map.mpr ⟨⟨key, descMethod, none⟩, (hcall _ _).mpr ⟨⟨_, hlookup⟩, hkind, rfl⟩, rfl⟩
  · simp only [target_eq_ok_iff, admit_stream_iff]
    constructor
    · intro hkey
      obtain ⟨m, hm, rfl⟩ := List.mem_map.mp hkey
      obtain ⟨⟨typeName, hlookup⟩, hkind, -⟩ := (hstream _ m).mp hm
      exact ⟨typeName, typeName, m.method, hlookup, hkind, rfl⟩
    · rintro ⟨-, found, descMethod, hlookup, hkind, rfl⟩
      exact List.mem_map.mpr ⟨⟨key, descMethod, streamKind descMethod.methodKind⟩,
        (hstream _ _).mpr ⟨⟨_, hlookup⟩, hkind, rfl⟩, rfl⟩

def ordersFile : DescFile := ⟨[orders]⟩

def echo : DescService where
  typeName := js "echo.v1.EchoService"
  methods := [⟨js "Echo", .unary, by decide⟩, ⟨js "Chat", .bidiStreaming, by decide⟩]

theorem generated_exact_orders :
    js "orders.v1.OrdersService/GetOrder" ∈
        (generateCatalog {} [ordersFile, ⟨[echo]⟩]).callMap.map Member.key ∧
      ∃ typeName, Surface.call.target (E := Unit)
        (generateCatalog {} [ordersFile, ⟨[echo]⟩]).evaluate
        (js "orders.v1.OrdersService/GetOrder") = .ok typeName := by
  have hkey : js "orders.v1.OrdersService/GetOrder" ∈
      (generateCatalog {} [ordersFile, ⟨[echo]⟩]).callMap.map Member.key := by decide
  exact ⟨hkey, ((generated_exact {} [ordersFile, ⟨[echo]⟩] (by decide)).2.2.2.1 _).mp hkey⟩

/-- Entries under names of their own are merged if no key comes twice. -/
theorem foldlM_mergeEntry_eq_ok {entries : List (JsString × DescService)}
    (hentries : ∀ e ∈ entries, e.1 = e.2.typeName ∧ e.1 ≠ js "__proto__") {merged c : ServiceCatalog}
    (hmerged : merged.keys.Nodup) :
    entries.foldlM mergeEntry merged = .ok c ↔
      (merged.keys ++ entries.map Prod.fst).Nodup ∧
        c = { merged with entries := merged.entries ++ entries } := by
  induction entries generalizing merged with
  | nil => simp [hmerged, pure, Except.pure, eq_comm]
  | cons e entries ih =>
    obtain ⟨⟨hname, hproto⟩, hrest⟩ := List.forall_mem_cons.mp hentries
    rw [Loop.foldlM_cons_ok]
    have hentry (next : ServiceCatalog) : mergeEntry merged e = .ok next ↔
        e.1 ∉ merged.keys ∧ next = { merged with entries := merged.entries ++ [e] } := by
      unfold mergeEntry
      rw [if_neg (not_not_intro hname)]
      split
      next hmem => simp [hmem]
      next hmem => simp [hmem, ServiceCatalog.assign, hproto, eq_comm]
    have hkeys (next : ServiceCatalog)
        (hnext : next = { merged with entries := merged.entries ++ [e] }) :
        next.keys = merged.keys ++ [e.1] := by
      rw [hnext, ServiceCatalog.keys, List.map_append]
      rfl
    constructor
    · rintro ⟨next, hnext, hfold⟩
      obtain ⟨hnew, rfl⟩ := (hentry next).mp hnext
      have hnodup :
          ({ merged with entries := merged.entries ++ [e] } : ServiceCatalog).keys.Nodup := by
        rw [hkeys _ rfl]
        refine List.nodup_append.mpr ⟨hmerged, List.nodup_singleton _, ?_⟩
        rintro a ha b hb rfl
        exact hnew (List.mem_singleton.mp hb ▸ ha)
      obtain ⟨hall, rfl⟩ := (ih hrest hnodup).mp hfold
      rw [hkeys _ rfl] at hall
      simpa using hall
    · rintro ⟨hall, rfl⟩
      have hsplit : merged.keys ++ (e :: entries).map Prod.fst =
          merged.keys ++ [e.1] ++ entries.map Prod.fst := by simp
      rw [hsplit] at hall
      have hnodup := (List.nodup_append.mp hall).1
      have hnew : e.1 ∉ merged.keys := fun hmem =>
        (List.nodup_append.mp hnodup).2.2 _ hmem _ (List.mem_singleton_self _) rfl
      refine ⟨_, (hentry _).mpr ⟨hnew, rfl⟩, (ih hrest ?_).mpr ⟨?_, ?_⟩⟩
      · rwa [hkeys _ rfl]
      · rwa [hkeys _ rfl]
      · simp

theorem foldlM_flatMap_entries (catalogs : List ServiceCatalog) (merged : ServiceCatalog) :
    catalogs.foldlM (fun merged catalog => catalog.entries.foldlM mergeEntry merged) merged =
      (catalogs.flatMap ServiceCatalog.entries).foldlM mergeEntry merged := by
  induction catalogs generalizing merged with
  | nil => rfl
  | cons catalog catalogs ih =>
    rw [List.flatMap_cons, List.foldlM_append, List.foldlM_cons]
    exact bind_congr fun next => ih next

theorem ownEntries_flatten (modules : List (List DescFile)) :
    modules.flatMap (fun files => ownEntries (servicesToGenerate files)) =
      ownEntries (servicesToGenerate modules.flatten) := by
  induction modules with
  | nil => rfl
  | cons files modules ih =>
    rw [List.flatMap_cons, ih, List.flatten_cons]
    simp [ownEntries, servicesToGenerate]

/-- Generation module by module and a merge come to one generation, but for a service that is named
`__proto__`, which gets lost. The merge fails exactly if a name comes from two modules. -/
theorem merge_generated (options : CatalogOptions) (modules : List (List DescFile))
    (hnodup : ∀ files ∈ modules, (typeNames files).Nodup) (c : ServiceCatalog) :
    (mergeCatalogs (modules.map fun files => (generateCatalog options files).evaluate) = .ok c ↔
      ((ownEntries (servicesToGenerate modules.flatten)).map Prod.fst).Nodup ∧
        c = { entries := ownEntries (servicesToGenerate modules.flatten) }) ∧
    (js "__proto__" ∉ typeNames modules.flatten →
      (mergeCatalogs (modules.map fun files => (generateCatalog options files).evaluate) = .ok c ↔
        (typeNames modules.flatten).Nodup ∧
          c = (generateCatalog options modules.flatten).evaluate)) := by
  have hflat : (modules.map fun files => (generateCatalog options files).evaluate).flatMap
      ServiceCatalog.entries = ownEntries (servicesToGenerate modules.flatten) := by
    rw [List.flatMap_map, ← ownEntries_flatten]
    refine List.flatMap_congr fun files hfiles => ?_
    rw [evaluate_generateCatalog (hnodup files hfiles)]
  have hmerge : mergeCatalogs (modules.map fun files =>
      (generateCatalog options files).evaluate) = .ok c ↔
      ((ownEntries (servicesToGenerate modules.flatten)).map Prod.fst).Nodup ∧
        c = { entries := ownEntries (servicesToGenerate modules.flatten) } := by
    rw [mergeCatalogs, foldlM_flatMap_entries, hflat,
      foldlM_mergeEntry_eq_ok (fun e he => (mem_ownEntries.mp he).2) keyed_empty.nodup]
    rfl
  refine ⟨hmerge, fun hproto => ?_⟩
  have hall : (servicesToGenerate modules.flatten).filter (fun service =>
      service.typeName ≠ js "__proto__") = servicesToGenerate modules.flatten := by
    refine List.filter_eq_self.mpr fun service hservice => decide_eq_true fun hname => ?_
    exact hproto (hname ▸ List.mem_map_of_mem hservice)
  have hkeys : (ownEntries (servicesToGenerate modules.flatten)).map Prod.fst =
      typeNames modules.flatten := by
    rw [ownEntries, hall, List.map_map]
    rfl
  rw [hmerge, hkeys]
  refine and_congr_right fun hdistinct => ?_
  have hnone : (servicesToGenerate modules.flatten).find? (fun service =>
      service.typeName = js "__proto__") = none := by
    refine List.find?_eq_none.mpr fun service hservice hname => ?_
    exact hproto (of_decide_eq_true hname ▸ List.mem_map_of_mem hservice)
  rw [evaluate_generateCatalog hdistinct, hnone]

theorem merge_generated_orders :
    mergeCatalogs ([[ordersFile], [⟨[echo]⟩]].map fun files =>
      (generateCatalog {} files).evaluate) =
      .ok (generateCatalog {} [ordersFile, ⟨[echo]⟩]).evaluate :=
  ((merge_generated {} [[ordersFile], [⟨[echo]⟩]] (by decide) _).2 (by decide)).mpr
    ⟨by decide, rfl⟩

end Connectum.ProtocGenCatalog
