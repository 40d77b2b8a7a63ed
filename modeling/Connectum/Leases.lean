import Mathlib.Data.List.Basic
import Mathlib.Data.List.Nodup
import Mathlib.Data.List.Count
import Mathlib.Tactic.Common

/-! Queues that hand out each item of a growing list once, and then again until it is released. -/

/-- The items before `position` have been handed out; those still held are kept with the number of
times that they have been. -/
structure Leases (α : Type*) where
  position : ℕ
  held : List (α × ℕ) := []

namespace Leases
variable {α : Type*} {items : List α} {q : Leases α} {a : α} {n start : ℕ}
  {outs released : List α}

/-- The next items, at most `n`. -/
def next (q : Leases α) (items : List α) (n : ℕ) : List α := (items.drop q.position).take n

def take (q : Leases α) (items : List α) (n : ℕ) : Leases α where
  position := q.position + (q.next items n).length
  held := q.held ++ (q.next items n).map fun a => (a, 1)

/-- Held items that satisfy `p`, at most `n`. -/
def again (q : Leases α) (p : α → Bool) (n : ℕ) : List α :=
  ((q.held.map Prod.fst).filter p).take n

def renew [DecidableEq α] (q : Leases α) (as : List α) : Leases α :=
  { q with held := q.held.map fun e => if e.1 ∈ as then (e.1, e.2 + 1) else e }

def release (q : Leases α) (p : α → Bool) : Leases α :=
  { q with held := q.held.filter fun e => !p e.1 }

/-- The accounts of a queue that began at `start`: it has handed out `outs` and released
`released`. -/
structure Ledger [DecidableEq α] (items : List α) (start : ℕ) (q : Leases α)
    (outs released : List α) : Prop where
  start_le : start ≤ q.position
  le_length : q.position ≤ items.length
  nodup : (q.held.map Prod.fst).Nodup
  outs_subset : ∀ a ∈ outs, a ∈ items.take q.position
  kept : ∀ a ∈ (items.take q.position).drop start, a ∈ q.held.map Prod.fst ∨ a ∈ released
  released_subset : ∀ a ∈ released, a ∈ outs
  gone : ∀ a ∈ released, a ∉ q.held.map Prod.fst
  counted : ∀ e ∈ q.held, e.2 = outs.count e.1 ∧ 1 ≤ e.2

theorem length_next_le : (q.next items n).length ≤ items.length - q.position := by
  rw [next, List.length_take, List.length_drop]
  omega

theorem take_position_take :
    items.take (q.take items n).position = items.take q.position ++ q.next items n := by
  show items.take (q.position + (q.next items n).length) = _
  rw [List.take_add, next]
  congr 1
  rw [List.take_eq_take_iff]
  simp

/-- New items have not been handed out. -/
theorem notMem_of_mem_next (hnodup : items.Nodup) (h : a ∈ q.next items n) :
    a ∉ items.take q.position := by
  have hdrop : a ∈ items.drop q.position := List.mem_of_mem_take h
  exact fun htake => List.disjoint_take_drop hnodup (Nat.le_refl _) htake hdrop

theorem nodup_next (hnodup : items.Nodup) : (q.next items n).Nodup :=
  (hnodup.sublist (List.drop_sublist _ _)).sublist (List.take_sublist _ _)

theorem again_subset {p : α → Bool} (ha : a ∈ q.again p n) : a ∈ q.held.map Prod.fst :=
  List.mem_of_mem_filter (List.mem_of_mem_take ha)

variable [DecidableEq α]

theorem ledger_new (items : List α) : Ledger items items.length ⟨items.length, []⟩ [] [] where
  start_le := Nat.le_refl _
  le_length := Nat.le_refl _
  nodup := List.nodup_nil
  outs_subset _ h := absurd h List.not_mem_nil
  kept a h := by simp at h
  released_subset _ h := absurd h List.not_mem_nil
  gone _ h := absurd h List.not_mem_nil
  counted _ h := absurd h List.not_mem_nil

theorem Ledger.held_subset (h : Ledger items start q outs released) (ha : a ∈ q.held.map Prod.fst) :
    a ∈ outs := by
  obtain ⟨e, he, rfl⟩ := List.mem_map.mp ha
  obtain ⟨hcount, hpos⟩ := h.counted e he
  rw [hcount] at hpos
  exact List.count_pos_iff.mp hpos

/-- What is added to the list does not matter to what has been handed out. -/
theorem Ledger.push (h : Ledger items start q outs released) (a : α) :
    Ledger (items ++ [a]) start q outs released := by
  have htake : (items ++ [a]).take q.position = items.take q.position :=
    List.take_append_of_le_length h.le_length
  refine ⟨h.start_le, ?_, h.nodup, ?_, ?_, h.released_subset, h.gone, h.counted⟩
  · have hle := h.le_length
    rw [List.length_append]
    omega
  · rw [htake]
    exact h.outs_subset
  · rw [htake]
    exact h.kept

theorem Ledger.take (h : Ledger items start q outs released) (hnodup : items.Nodup) (n : ℕ) :
    Ledger items start (q.take items n) (outs ++ q.next items n) released := by
  have hnew : ∀ a ∈ q.next items n, a ∉ outs := fun a ha hout =>
    notMem_of_mem_next hnodup ha (h.outs_subset a hout)
  have hposition : items.take (q.take items n).position = items.take q.position ++ q.next items n :=
    take_position_take
  have hfst : (q.take items n).held.map Prod.fst = q.held.map Prod.fst ++ q.next items n := by
    show (q.held ++ (q.next items n).map fun a => (a, 1)).map Prod.fst = _
    rw [List.map_append, List.map_map]
    simp [Function.comp_def]
  refine ⟨?_, ?_, ?_, ?_, ?_, ?_, ?_, ?_⟩
  · exact Nat.le_trans h.start_le (Nat.le_add_right _ _)
  · have hnext : (q.next items n).length ≤ items.length - q.position := length_next_le
    have hle := h.le_length
    show q.position + (q.next items n).length ≤ items.length
    omega
  · rw [hfst]
    apply List.nodup_append.mpr ⟨h.nodup, nodup_next hnodup, _⟩
    rintro a ha b hb rfl
    exact hnew a hb (h.held_subset ha)
  · rw [hposition]
    intro a ha
    rcases List.mem_append.mp ha with ha | ha
    · exact List.mem_append_left _ (h.outs_subset a ha)
    · exact List.mem_append_right _ ha
  · rw [hposition, List.drop_append, hfst]
    intro a ha
    rcases List.mem_append.mp ha with ha | ha
    · rcases h.kept a ha with hheld | hreleased
      · exact .inl (List.mem_append_left _ hheld)
      · exact .inr hreleased
    · exact .inl (List.mem_append_right _ (List.mem_of_mem_drop ha))
  · exact fun a ha => List.mem_append_left _ (h.released_subset a ha)
  · rw [hfst]
    intro a ha hheld
    rcases List.mem_append.mp hheld with hheld | hheld
    · exact h.gone a ha hheld
    · exact hnew a hheld (h.released_subset a ha)
  · intro e he
    rcases List.mem_append.mp he with he | he
    · obtain ⟨hcount, hpos⟩ := h.counted e he
      have hold : e.1 ∉ q.next items n := fun hmem =>
        hnew e.1 hmem (h.held_subset (List.mem_map_of_mem he))
      rw [List.count_append, List.count_eq_zero_of_not_mem hold]
      exact ⟨hcount, hpos⟩
    · obtain ⟨a, ha, rfl⟩ := List.mem_map.mp he
      rw [List.count_append, List.count_eq_zero_of_not_mem (hnew a ha),
        List.count_eq_one_of_mem (nodup_next hnodup) ha]
      exact ⟨rfl, Nat.le_refl _⟩

theorem map_fst_renew (as : List α) : (q.renew as).held.map Prod.fst = q.held.map Prod.fst := by
  show (q.held.map fun e => if e.1 ∈ as then (e.1, e.2 + 1) else e).map Prod.fst = _
  rw [List.map_map]
  apply List.map_congr_left
  intro e _
  simp only [Function.comp_apply]
  split <;> rfl

theorem Ledger.renew (h : Ledger items start q outs released) {as : List α} (hnodup : as.Nodup)
    (has : ∀ a ∈ as, a ∈ q.held.map Prod.fst) :
    Ledger items start (q.renew as) (outs ++ as) released := by
  refine ⟨h.start_le, h.le_length, ?_, ?_, ?_, ?_, ?_, ?_⟩
  · rw [map_fst_renew]
    exact h.nodup
  · intro a ha
    rcases List.mem_append.mp ha with ha | ha
    · exact h.outs_subset a ha
    · exact h.outs_subset a (h.held_subset (has a ha))
  · rw [map_fst_renew]
    exact h.kept
  · exact fun a ha => List.mem_append_left _ (h.released_subset a ha)
  · rw [map_fst_renew]
    exact h.gone
  · intro e he
    obtain ⟨e', he', rfl⟩ := List.mem_map.mp he
    obtain ⟨hcount, hpos⟩ := h.counted e' he'
    rw [List.count_append]
    split
    next hmem =>
      rw [List.count_eq_one_of_mem hnodup hmem]
      dsimp only
      omega
    next hmem =>
      rw [List.count_eq_zero_of_not_mem hmem]
      omega

theorem Ledger.release (h : Ledger items start q outs released) {p : α → Bool} (ha : a ∈ outs)
    (hp : ∀ b ∈ outs, p b = true ↔ b = a) :
    Ledger items start (q.release p) outs (released ++ [a]) := by
  have hsubset : ∀ b ∈ (q.release p).held.map Prod.fst, b ∈ q.held.map Prod.fst ∧ p b = false := by
    intro b hb
    obtain ⟨e, he, rfl⟩ := List.mem_map.mp hb
    obtain ⟨he, hpe⟩ := List.mem_filter.mp he
    exact ⟨List.mem_map_of_mem he, by simpa using hpe⟩
  refine ⟨h.start_le, h.le_length, ?_, h.outs_subset, ?_, ?_, ?_, ?_⟩
  · exact h.nodup.sublist (List.filter_sublist.map Prod.fst)
  · intro b hb
    rcases h.kept b hb with hheld | hreleased
    · cases hpb : p b with
      | true =>
        rw [(hp b (h.held_subset hheld)).mp hpb]
        exact .inr (List.mem_append_right _ (List.mem_singleton_self a))
      | false =>
        obtain ⟨e, he, rfl⟩ := List.mem_map.mp hheld
        exact .inl (List.mem_map_of_mem (List.mem_filter.mpr ⟨he, by simp [hpb]⟩))
    · exact .inr (List.mem_append_left _ hreleased)
  · intro b hb
    rcases List.mem_append.mp hb with hb | hb
    · exact h.released_subset b hb
    · exact List.mem_singleton.mp hb ▸ ha
  · intro b hb hheld
    obtain ⟨hheld, hpb⟩ := hsubset b hheld
    rcases List.mem_append.mp hb with hb | hb
    · exact h.gone b hb hheld
    · rw [(hp b (h.held_subset hheld)).mpr (List.mem_singleton.mp hb)] at hpb
      cases hpb
  · exact fun e he => h.counted e (List.mem_of_mem_filter he)

theorem Ledger.nodup_again (h : Ledger items start q outs released) (p : α → Bool) (n : ℕ) :
    (q.again p n).Nodup :=
  (h.nodup.filter p).sublist (List.take_sublist _ _)

end Leases
