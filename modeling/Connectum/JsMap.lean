import Mathlib.Algebra.GroupWithZero.Nat
import Mathlib.Data.List.Basic
import Mathlib.Tactic.Common

/-! Maps of the source language, as their entries in the order of insertion. -/
namespace JsMap

theorem lookup_eq_none {K V : Type*} [BEq K] [LawfulBEq K] {map : List (K × V)} {key : K}
    (h : key ∉ map.map Prod.fst) : map.lookup key = none := by
  rw [List.lookup_eq_none_iff]
  intro e he
  exact bne_iff_ne.mpr fun heq => h (List.mem_map.mpr ⟨e, he, heq.symm⟩)

variable {K V : Type*} [DecidableEq K] {map : List (K × V)} {key : K} {value : V}

/-- `map.set(key, value)`. -/
def set (map : List (K × V)) (key : K) (value : V) : List (K × V) :=
  if key ∈ map.map Prod.fst then map.map fun e => if e.1 = key then (key, value) else e
  else map ++ [(key, value)]

/-- `map.delete(key)`. -/
def delete (map : List (K × V)) (key : K) : List (K × V) := map.filter fun e => e.1 ≠ key

theorem mem_set {e : K × V} :
    e ∈ set map key value ↔ e = (key, value) ∨ (e ∈ map ∧ e.1 ≠ key) := by
  unfold set
  split
  next hkey =>
    simp only [List.mem_map]
    constructor
    · rintro ⟨e', he', rfl⟩
      split
      next => exact .inl rfl
      next hne => exact .inr ⟨he', hne⟩
    · rintro (rfl | ⟨he, hne⟩)
      · obtain ⟨e', he', rfl⟩ := List.mem_map.mp hkey
        exact ⟨e', he', if_pos rfl⟩
      · exact ⟨e, he, if_neg hne⟩
  next hkey =>
    have hne : ∀ e ∈ map, e.1 ≠ key := by
      rintro e he rfl
      exact hkey (List.mem_map_of_mem he)
    simp only [List.mem_append, List.mem_singleton]
    constructor
    · rintro (he | rfl)
      · exact .inr ⟨he, hne e he⟩
      · exact .inl rfl
    · rintro (rfl | ⟨he, -⟩)
      · exact .inr rfl
      · exact .inl he

theorem mem_delete {e : K × V} : e ∈ delete map key ↔ e ∈ map ∧ e.1 ≠ key := by
  simp [delete]

theorem mem_of_lookup (h : map.lookup key = some value) : (key, value) ∈ map := by
  obtain ⟨before, after, rfl, -⟩ := List.lookup_eq_some_iff.mp h
  simp

/-- A key that is there is found. -/
theorem exists_lookup (h : (key, value) ∈ map) : ∃ found, map.lookup key = some found := by
  apply Option.isSome_iff_exists.mp
  rw [List.lookup_isSome_iff]
  exact ⟨_, h, beq_self_eq_true key⟩

/-- Among distinct keys an entry is the one that is found. -/
theorem lookup_of_mem (hnodup : (map.map Prod.fst).Nodup) (h : (key, value) ∈ map) :
    map.lookup key = some value := by
  induction map with
  | nil => exact absurd h List.not_mem_nil
  | cons e map ih =>
    obtain ⟨hnot, hnodup⟩ := List.nodup_cons.mp hnodup
    rcases List.mem_cons.mp h with heq | hmem
    · subst heq
      exact List.lookup_cons_self
    · have hne : key ≠ e.1 := fun heq => hnot (heq ▸ List.mem_map_of_mem (f := Prod.fst) hmem)
      rw [List.lookup_cons, beq_false_of_ne hne]
      exact ih hnodup hmem

theorem lookup_set_self : (set map key value).lookup key = some value := by
  have hmem : (key, value) ∈ set map key value := mem_set.mpr (.inl rfl)
  obtain ⟨found, hfound⟩ := exists_lookup hmem
  rcases mem_set.mp (mem_of_lookup hfound) with heq | ⟨-, hne⟩
  · rw [hfound, (Prod.mk.inj heq).2]
  · exact absurd rfl hne

theorem lookup_replace_of_ne {other : K} (hne : other ≠ key) :
    (map.map fun e => if e.1 = key then (key, value) else e).lookup other = map.lookup other := by
  induction map with
  | nil => rfl
  | cons e map ih =>
    rw [List.map_cons]
    by_cases he : e.1 = key
    · have hother : (other == e.1) = false := beq_false_of_ne (he ▸ hne)
      rw [if_pos he, List.lookup_cons, List.lookup_cons, beq_false_of_ne hne, hother, ih]
    · rw [if_neg he, List.lookup_cons, List.lookup_cons, ih]

theorem lookup_set_of_ne {other : K} (hne : other ≠ key) :
    (set map key value).lookup other = map.lookup other := by
  unfold set
  split
  next => exact lookup_replace_of_ne hne
  next =>
    rw [List.lookup_append, List.lookup_cons, beq_false_of_ne hne]
    simp

/-- A key that is not set is not there either. -/
theorem lookup_set_eq_none {other : K} (hne : other ≠ key) (h : map.lookup other = none) :
    (set map key value).lookup other = none := by
  rw [lookup_set_of_ne hne, h]

theorem lookup_delete_self : (delete map key).lookup key = none := by
  refine lookup_eq_none fun h => ?_
  obtain ⟨e, he, heq⟩ := List.mem_map.mp h
  exact (mem_delete.mp he).2 heq

theorem lookup_delete_of_ne {other : K} (hne : other ≠ key) :
    (delete map key).lookup other = map.lookup other := by
  induction map with
  | nil => rfl
  | cons e map ih =>
    rw [delete] at ih ⊢
    by_cases he : e.1 = key
    · have hother : (other == e.1) = false := beq_false_of_ne (he ▸ hne)
      rw [List.filter_cons_of_neg (by simpa using he), ih, List.lookup_cons, hother]
    · rw [List.filter_cons_of_pos (by simpa using he), List.lookup_cons, List.lookup_cons, ih]

theorem map_fst_set : (set map key value).map Prod.fst =
    if key ∈ map.map Prod.fst then map.map Prod.fst else map.map Prod.fst ++ [key] := by
  unfold set
  split
  next =>
    rw [List.map_map]
    apply List.map_congr_left
    intro e _
    by_cases he : e.1 = key <;> simp [he]
  next => simp

theorem nodup_set (h : (map.map Prod.fst).Nodup) : ((set map key value).map Prod.fst).Nodup := by
  rw [map_fst_set]
  split
  next => exact h
  next hkey =>
    refine List.nodup_append.mpr ⟨h, by simp, ?_⟩
    rintro a ha b hb rfl
    exact hkey (List.mem_singleton.mp hb ▸ ha)

theorem set_of_notMem (hkey : key ∉ map.map Prod.fst) : set map key value = map ++ [(key, value)] :=
  if_neg hkey

/-- Entries with new and distinct keys are appended in their order. -/
theorem foldl_set {entries : List (K × V)} (hnodup : ((map ++ entries).map Prod.fst).Nodup) :
    entries.foldl (fun map e => set map e.1 e.2) map = map ++ entries := by
  induction entries generalizing map with
  | nil => simp
  | cons e entries ih =>
    have hkey : e.1 ∉ map.map Prod.fst := by
      rw [List.map_append] at hnodup
      have hdisjoint := (List.nodup_append.mp hnodup).2.2
      exact fun hmem => hdisjoint e.1 hmem e.1 List.mem_cons_self rfl
    rw [List.foldl_cons, set_of_notMem hkey]
    have hcons : map ++ e :: entries = (map ++ [(e.1, e.2)]) ++ entries := by simp
    rw [hcons] at hnodup ⊢
    exact ih hnodup

/-- Where the key is filtered out, setting it makes no difference. -/
theorem filter_set {p : K → Bool} (hkey : p key = false) :
    (set map key value).filter (fun e => p e.1) = map.filter fun e => p e.1 := by
  unfold set
  split
  next =>
    clear * - hkey
    induction map with
    | nil => rfl
    | cons e map ih =>
      rw [List.map_cons]
      by_cases he : e.1 = key
      · rw [if_pos he, List.filter_cons_of_neg (by simp [hkey]),
          List.filter_cons_of_neg (by simp [he, hkey]), ih]
      · rw [if_neg he, List.filter_cons, List.filter_cons, ih]
  next => simp [List.filter_append, hkey]

/-- A change of all values goes through `set`. -/
theorem set_map {W : Type*} (f : V → W) :
    set (map.map (Prod.map id f)) key (f value) = (set map key value).map (Prod.map id f) := by
  have hkeys : (map.map (Prod.map id f)).map Prod.fst = map.map Prod.fst := by
    rw [List.map_map]
    rfl
  unfold set
  rw [hkeys]
  split
  next =>
    rw [List.map_map, List.map_map]
    apply List.map_congr_left
    intro e _
    by_cases he : e.1 = key <;> simp [he]
  next => simp

/-- What a sum over the entries loses and gains when a value is replaced. -/
theorem sum_set {old : V} {w : K × V → ℕ} (hnodup : (map.map Prod.fst).Nodup)
    (h : map.lookup key = some old) :
    ((set map key value).map w).sum + w (key, old) = (map.map w).sum + w (key, value) := by
  have hkey : key ∈ map.map Prod.fst := List.mem_map.mpr ⟨_, mem_of_lookup h, rfl⟩
  rw [set, if_pos hkey]
  clear hkey
  induction map with
  | nil => cases h
  | cons e map ih =>
    obtain ⟨k, v⟩ := e
    obtain ⟨hnot, hnodup⟩ := List.nodup_cons.mp hnodup
    rw [List.lookup_cons] at h
    simp only [List.map_cons, List.sum_cons]
    by_cases hk : k = key
    · subst hk
      rw [beq_self_eq_true] at h
      obtain rfl := Option.some.inj h
      have hrest : map.map (fun e => if e.1 = k then (k, value) else e) = map := by
        refine (List.map_congr_left fun e he => if_neg fun heq => hnot ?_).trans (List.map_id map)
        exact heq ▸ List.mem_map.mpr ⟨e, he, rfl⟩
      rw [hrest, if_pos rfl]
      omega
    · rw [beq_false_of_ne (Ne.symm hk)] at h
      have hih := ih hnodup h
      rw [if_neg hk]
      omega

end JsMap
