import Connectum.Core.BuildRoutes
import Connectum.JsString
import Connectum.Loop

/-! Service catalogs as objects of the source language: their own keys, and what they inherit. -/
namespace Connectum.Core.Catalog
open JsString

/-- Letters, digits, underscores, and the dots of qualified names. -/
def isNameUnit (c : UInt16) : Bool :=
  isLetter c || isDigit c || c == unit '_' || c == unit '.'

/-- The names that the schema language admits. -/
def IsName (s : JsString) : Prop := s ≠ [] ∧ s.all isNameUnit = true

instance (s : JsString) : Decidable (IsName s) := inferInstanceAs (Decidable (_ ∧ _))

structure DescMethod where
  name : JsString
  methodKind : MethodKind := .unary
  named : IsName name := by decide

structure DescService where
  typeName : JsString
  methods : List DescMethod
  named : IsName typeName := by decide
  nodup : (methods.map DescMethod.name).Nodup := by decide

/-- The own properties of a catalog, whose keys are distinct, and the descriptor that stands in the
place of `Object.prototype`, if any. -/
structure ServiceCatalog where
  entries : List (JsString × DescService) := []
  prototype : Option DescService := none

def ServiceCatalog.keys (catalog : ServiceCatalog) : List JsString := catalog.entries.map Prod.fst

/-- The names of the properties of `Object.prototype`. -/
def objectPrototype : List JsString :=
  [js "constructor", js "__defineGetter__", js "__defineSetter__", js "hasOwnProperty",
    js "__lookupGetter__", js "__lookupSetter__", js "isPrototypeOf", js "propertyIsEnumerable",
    js "toString", js "valueOf", js "__proto__", js "toLocaleString"]

/-- The names of the properties of a service descriptor. -/
def descServiceFields : List JsString :=
  [js "kind", js "typeName", js "name", js "file", js "deprecated", js "methods", js "method",
    js "proto", js "toString"]

/-- The value of a property; `other` is one that has no array `methods`. -/
inductive Property where
  | undefined
  | service (descriptor : DescService)
  | other

/-- `catalog[key]`. -/
def ServiceCatalog.get (catalog : ServiceCatalog) (key : JsString) : Property :=
  match catalog.entries.find? fun e => e.1 = key with
  | some e => .service e.2
  | none =>
    match catalog.prototype with
    | none => if key ∈ objectPrototype then .other else .undefined
    | some descriptor =>
      if key = js "__proto__" then .service descriptor
      else if key ∈ descServiceFields ∨ key ∈ objectPrototype then .other
      else .undefined

/-- The message of a `CatalogConfigError`. -/
abbrev CatalogConfigError := JsString

def mismatch (origin : String) (key typeName : JsString) : CatalogConfigError :=
  js origin ++ js ": key \"" ++ key ++ js "\" must match descriptor.typeName \"" ++ typeName ++
    js "\"."

def defineCatalog (record : List (JsString × DescService)) :
    Except CatalogConfigError ServiceCatalog :=
  match record.find? fun e => e.1 ≠ e.2.typeName with
  | some e => .error (mismatch "defineCatalog" e.1 e.2.typeName)
  | none => .ok { entries := record }

/-- `merged[key] = descriptor`, where `__proto__` is a setter of the prototype. -/
def ServiceCatalog.assign (merged : ServiceCatalog) (key : JsString) (descriptor : DescService) :
    ServiceCatalog :=
  if key = js "__proto__" then { merged with prototype := some descriptor }
  else { merged with entries := merged.entries ++ [(key, descriptor)] }

/-- One turn of the inner loop of `mergeCatalogs`. -/
def mergeEntry (merged : ServiceCatalog) (e : JsString × DescService) :
    Except CatalogConfigError ServiceCatalog :=
  if e.1 ≠ e.2.typeName then .error (mismatch "mergeCatalogs" e.1 e.2.typeName)
  else if e.1 ∈ merged.keys then
    .error (js "mergeCatalogs: duplicate typeName: \"" ++ e.1 ++ js "\"")
  else .ok (merged.assign e.1 e.2)

def mergeCatalogs (catalogs : List ServiceCatalog) : Except CatalogConfigError ServiceCatalog :=
  catalogs.foldlM (fun merged catalog => catalog.entries.foldlM mergeEntry merged) {}

/-- The catalogs that the two functions build. -/
def Built (catalog : ServiceCatalog) : Prop :=
  (∃ record : List (JsString × DescService),
    (record.map Prod.fst).Nodup ∧ defineCatalog record = .ok catalog) ∨
  ∃ catalogs, mergeCatalogs catalogs = .ok catalog

/-- Distinct keys, each the name of its service. -/
structure Keyed (catalog : ServiceCatalog) : Prop where
  nodup : catalog.keys.Nodup
  typeName : ∀ e ∈ catalog.entries, e.1 = e.2.typeName

theorem keyed_empty : Keyed {} := ⟨List.nodup_nil, fun _ he => absurd he List.not_mem_nil⟩

theorem Keyed.mergeEntry {merged merged' : ServiceCatalog} {e : JsString × DescService}
    (h : Keyed merged) (hmerge : mergeEntry merged e = .ok merged') : Keyed merged' := by
  unfold Catalog.mergeEntry at hmerge
  split at hmerge
  next => cases hmerge
  next hkey =>
    split at hmerge
    next => cases hmerge
    next hnew =>
      obtain rfl := Except.ok.inj hmerge
      unfold ServiceCatalog.assign
      split
      next => exact ⟨h.nodup, h.typeName⟩
      next =>
        constructor
        · show ((merged.entries ++ [(e.1, e.2)]).map Prod.fst).Nodup
          rw [List.map_append, List.map_singleton]
          apply List.nodup_append.mpr ⟨h.nodup, by simp, _⟩
          intro key hkey key' hkey' heq
          rw [heq, List.mem_singleton.mp hkey'] at hkey
          exact hnew hkey
        · intro e' he'
          rcases List.mem_append.mp he' with he' | he'
          · exact h.typeName e' he'
          · obtain rfl := List.mem_singleton.mp he'
            exact not_not.mp hkey

theorem Built.keyed {catalog : ServiceCatalog} (h : Built catalog) : Keyed catalog := by
  rcases h with ⟨record, hnodup, hdefine⟩ | ⟨catalogs, hmerge⟩
  · unfold defineCatalog at hdefine
    split at hdefine
    next => cases hdefine
    next hnone =>
      obtain rfl := Except.ok.inj hdefine
      refine ⟨hnodup, fun e he => ?_⟩
      have hkey := List.find?_eq_none.mp hnone e he
      simpa using hkey
  · refine Loop.foldlM_invariant (fun merged catalog merged' hkeyed hfold => ?_) keyed_empty hmerge
    exact Loop.foldlM_invariant (fun _ _ _ h hone => h.mergeEntry hone) hkeyed hfold

/-- Among distinct values, the element that is found is the one that has the value. -/
theorem find?_of_mem {α β : Type} [DecidableEq β] {f : α → β} {l : List α} {a : α}
    (hnodup : (l.map f).Nodup) (h : a ∈ l) : l.find? (fun x => f x = f a) = some a := by
  induction l with
  | nil => exact absurd h List.not_mem_nil
  | cons x l ih =>
    obtain ⟨hnot, hnodup⟩ := List.nodup_cons.mp hnodup
    rcases List.mem_cons.mp h with rfl | hmem
    · exact List.find?_cons_of_pos (decide_eq_true rfl)
    · have hne : f x ≠ f a := fun heq => hnot (heq ▸ List.mem_map_of_mem hmem)
      rw [List.find?_cons_of_neg (by simpa using hne)]
      exact ih hnodup hmem

theorem Keyed.get_of_mem {catalog : ServiceCatalog} (h : Keyed catalog) {key : JsString}
    {descriptor : DescService} (hmem : (key, descriptor) ∈ catalog.entries) :
    catalog.get key = .service descriptor := by
  have hfind := find?_of_mem h.nodup hmem
  rw [ServiceCatalog.get, hfind]

theorem get_of_notMem {catalog : ServiceCatalog} {key : JsString} (h : key ∉ catalog.keys) :
    catalog.get key = match catalog.prototype with
      | none => if key ∈ objectPrototype then .other else .undefined
      | some descriptor =>
        if key = js "__proto__" then .service descriptor
        else if key ∈ descServiceFields ∨ key ∈ objectPrototype then .other
        else .undefined := by
  have hfind : catalog.entries.find? (fun e => e.1 = key) = none := by
    rw [List.find?_eq_none]
    intro e he heq
    exact h (List.mem_map.mpr ⟨e, he, of_decide_eq_true heq⟩)
  rw [ServiceCatalog.get, hfind]

end Connectum.Core.Catalog
