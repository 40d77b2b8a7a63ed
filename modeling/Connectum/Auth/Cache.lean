import Connectum.JsMap
import Connectum.JsString
import Mathlib.Algebra.Order.Ring.Rat
import Mathlib.Data.List.Nodup

/-! The LRU cache with a time to live. Time is in milliseconds. -/
namespace Connectum.Auth

structure CacheEntry (V : Type) where
  value : V
  expiresAt : ℚ
  deriving DecidableEq, Repr

/-- The entries stand in the order of insertion, the least recently used one first. -/
structure LruCache (V : Type) where
  maxSize : ℕ
  ttl : ℚ
  entries : List (JsString × CacheEntry V)
  nodup : (entries.map Prod.fst).Nodup

namespace LruCache
variable {V : Type}

/-- `new LruCache(options)`; `none` is the `RangeError`. -/
def create (ttl : ℚ) (maxSize : Option ℕ) : Option (LruCache V) :=
  if ttl ≤ 0 then none else some ⟨maxSize.getD 1000, ttl, [], List.nodup_nil⟩

def erase (entries : List (JsString × CacheEntry V)) (key : JsString) :
    List (JsString × CacheEntry V) :=
  entries.filter fun e => decide (e.1 ≠ key)

theorem mem_erase {entries : List (JsString × CacheEntry V)} {key : JsString}
    {e : JsString × CacheEntry V} : e ∈ erase entries key ↔ e ∈ entries ∧ e.1 ≠ key := by
  simp [erase]

theorem nodup_erase {entries : List (JsString × CacheEntry V)} (key : JsString)
    (h : (entries.map Prod.fst).Nodup) : ((erase entries key).map Prod.fst).Nodup :=
  h.sublist (List.Sublist.map Prod.fst List.filter_sublist)

theorem nodup_insert {entries : List (JsString × CacheEntry V)} {key : JsString}
    (entry : CacheEntry V) (h : (entries.map Prod.fst).Nodup)
    (hkey : key ∉ entries.map Prod.fst) :
    ((entries ++ [(key, entry)]).map Prod.fst).Nodup := by
  rw [List.map_append]
  exact List.Nodup.append h (List.nodup_singleton key) (List.disjoint_singleton.mpr hkey)

theorem notMem_erase (entries : List (JsString × CacheEntry V)) (key : JsString) :
    key ∉ (erase entries key).map Prod.fst := by
  intro hmem
  obtain ⟨e, he, rfl⟩ := List.mem_map.mp hmem
  exact (mem_erase.mp he).2 rfl

def get (cache : LruCache V) (now : ℚ) (key : JsString) : LruCache V × Option V :=
  match cache.entries.lookup key with
  | none => (cache, none)
  | some entry =>
    if entry.expiresAt ≤ now then
      ({ cache with
        entries := erase cache.entries key
        nodup := nodup_erase key cache.nodup }, none)
    else
      ({ cache with
          entries := erase cache.entries key ++ [(key, entry)]
          nodup := nodup_insert entry (nodup_erase key cache.nodup) (notMem_erase _ _) },
        some entry.value)

/-- The entries that remain when room is made for one more. -/
def makeRoom (maxSize : ℕ) (entries : List (JsString × CacheEntry V)) :
    List (JsString × CacheEntry V) :=
  if maxSize ≤ entries.length then entries.tail else entries

theorem makeRoom_sublist (maxSize : ℕ) (entries : List (JsString × CacheEntry V)) :
    (makeRoom maxSize entries).Sublist entries := by
  unfold makeRoom
  split
  · exact List.tail_sublist entries
  · exact List.Sublist.refl entries

theorem notMem_makeRoom_erase (cache : LruCache V) (key : JsString) :
    key ∉ (makeRoom cache.maxSize (erase cache.entries key)).map Prod.fst := fun hmem =>
  notMem_erase cache.entries key (((makeRoom_sublist _ _).map Prod.fst).subset hmem)

def set (cache : LruCache V) (now : ℚ) (key : JsString) (value : V) : LruCache V :=
  { cache with
    entries := makeRoom cache.maxSize (erase cache.entries key) ++
      [(key, ⟨value, now + cache.ttl⟩)]
    nodup := nodup_insert _
      ((nodup_erase key cache.nodup).sublist ((makeRoom_sublist _ _).map Prod.fst))
      (notMem_makeRoom_erase cache key) }

def clear (cache : LruCache V) : LruCache V := { cache with entries := [], nodup := List.nodup_nil }

variable {cache : LruCache V} {now : ℚ} {key : JsString} {value : V}
  {e : JsString × CacheEntry V}

@[simp] theorem get_ttl : (cache.get now key).1.ttl = cache.ttl := by
  unfold get
  split
  next => rfl
  next => split <;> rfl

@[simp] theorem set_ttl : (cache.set now key value).ttl = cache.ttl := rfl

theorem mem_of_lookup {entries : List (JsString × CacheEntry V)} {entry : CacheEntry V}
    (h : entries.lookup key = some entry) : (key, entry) ∈ entries := by
  obtain ⟨before, after, rfl, -⟩ := List.lookup_eq_some_iff.mp h
  exact List.mem_append_right _ List.mem_cons_self

/-- A `get` only removes and moves entries. -/
theorem mem_of_mem_get (h : e ∈ (cache.get now key).1.entries) : e ∈ cache.entries := by
  unfold get at h
  split at h
  next => exact h
  next entry hentry =>
    split at h
    next => exact (mem_erase.mp h).1
    next =>
      rcases List.mem_append.mp h with h | h
      · exact (mem_erase.mp h).1
      · rw [List.mem_singleton.mp h]
        exact mem_of_lookup hentry

/-- A value that is returned has an entry that has not expired. -/
theorem exists_entry_of_get (h : (cache.get now key).2 = some value) :
    ∃ entry, (key, entry) ∈ cache.entries ∧ entry.value = value ∧ now < entry.expiresAt := by
  unfold get at h
  split at h
  next => simp at h
  next entry hentry =>
    split at h
    next => simp at h
    next hlive =>
      exact ⟨entry, mem_of_lookup hentry, Option.some.inj h, not_le.mp hlive⟩

theorem mem_of_mem_set (h : e ∈ (cache.set now key value).entries) :
    e ∈ cache.entries ∨ e = (key, ⟨value, now + cache.ttl⟩) := by
  rcases List.mem_append.mp h with h | h
  · have herase := (makeRoom_sublist _ _).subset h
    exact .inl (mem_erase.mp herase).1
  · exact .inr (List.mem_singleton.mp h)

/-- The only entry of the key that is set. -/
theorem eq_of_mem_set {entry : CacheEntry V}
    (h : (key, entry) ∈ (cache.set now key value).entries) : entry = ⟨value, now + cache.ttl⟩ := by
  rcases List.mem_append.mp h with h | h
  · exact absurd (List.mem_map_of_mem h) (notMem_makeRoom_erase cache key)
  · exact (Prod.mk.inj (List.mem_singleton.mp h)).2

theorem get_set (httl : 0 < cache.ttl) :
    ((cache.set now key value).get now key).2 = some value := by
  have hlookup : (cache.set now key value).entries.lookup key =
      some ⟨value, now + cache.ttl⟩ := by
    rw [set, List.lookup_append, JsMap.lookup_eq_none (notMem_makeRoom_erase cache key)]
    simp
  simp [get, hlookup, not_le.mpr httl]

end LruCache
end Connectum.Auth
