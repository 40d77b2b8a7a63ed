import Mathlib.Data.List.Basic
import Mathlib.Tactic.Common

/-! Patterns with wildcards for arbitrary strings, and the greedy search for a filling: each segment
between two wildcards is taken at its leftmost occurrence. -/
namespace Glob
variable {α : Type*} {segment final s : List α} {segments : List (List α)}

/-- The segments in order, with anything between them. -/
def Joins : List (List α) → List α → Prop
  | [], _ => False
  | [segment], s => s = segment
  | segment :: segments, s => ∃ filling rest, s = segment ++ (filling ++ rest) ∧ Joins segments rest

/-- Anything, and then the segments. -/
def Follows (segments : List (List α)) (s : List α) : Prop :=
  ∃ filling rest, s = filling ++ rest ∧ Joins segments rest

theorem joins_cons (hne : segments ≠ []) :
    Joins (segment :: segments) s ↔ ∃ rest, s = segment ++ rest ∧ Follows segments rest := by
  obtain ⟨next, segments, rfl⟩ := List.exists_cons_of_ne_nil hne
  constructor
  · rintro ⟨filling, rest, rfl, h⟩
    exact ⟨_, rfl, filling, rest, rfl, h⟩
  · rintro ⟨-, rfl, filling, rest, rfl, h⟩
    exact ⟨filling, rest, rfl, h⟩

theorem joins_cons_cons {c : α} :
    Joins ((c :: segment) :: segments) s ↔ ∃ rest, s = c :: rest ∧
      Joins (segment :: segments) rest := by
  cases segments with
  | nil =>
    constructor
    · exact fun h => ⟨segment, h, rfl⟩
    · rintro ⟨rest, rfl, rfl⟩
      rfl
  | cons next segments =>
    constructor
    · rintro ⟨filling, rest, rfl, h⟩
      exact ⟨_, rfl, filling, rest, rfl, h⟩
    · rintro ⟨-, rfl, filling, rest, rfl, h⟩
      exact ⟨filling, rest, rfl, h⟩

/-- What is in front of a text only makes the first filling longer. -/
theorem Follows.prepend (h : Follows segments s) (t : List α) : Follows segments (t ++ s) := by
  obtain ⟨filling, rest, rfl, h⟩ := h
  exact ⟨t ++ filling, rest, (List.append_assoc ..).symm, h⟩

theorem Joins.suffix (h : Joins (segments ++ [final]) s) : final <:+ s := by
  induction segments generalizing s with
  | nil => exact h ▸ List.suffix_rfl
  | cons segment segments ih =>
    obtain ⟨-, rfl, filling, rest, rfl, hrest⟩ := (joins_cons (by simp)).mp h
    exact (ih hrest).trans ((List.suffix_append _ _).trans (List.suffix_append _ _))

theorem Follows.suffix (h : Follows (segments ++ [final]) s) : final <:+ s := by
  obtain ⟨filling, rest, rfl, h⟩ := h
  exact h.suffix.trans (List.suffix_append _ _)

theorem follows_singleton : Follows [final] s ↔ final <:+ s := by
  constructor
  · intro ⟨filling, rest, hrest, hjoins⟩
    obtain rfl : rest = final := hjoins
    exact ⟨filling, hrest.symm⟩
  · rintro ⟨filling, rfl⟩
    exact ⟨filling, final, rfl, rfl⟩

/-- Where a segment is taken at its leftmost occurrence, the most remains for the others. -/
theorem follows_cons_of_leftmost {skipped rest : List α} (hne : segments ≠ [])
    (hs : s = skipped ++ (segment ++ rest))
    (hleft : ∀ before after, s = before ++ (segment ++ after) → skipped.length ≤ before.length) :
    Follows (segment :: segments) s ↔ Follows segments rest := by
  constructor
  · rintro ⟨filling, taken, hfilling, h⟩
    obtain ⟨remaining, rfl, hfollows⟩ := (joins_cons hne).mp h
    have hle := hleft filling remaining hfilling
    have hlength := congrArg List.length (hs.symm.trans hfilling)
    simp only [List.length_append] at hlength
    have hrest : rest <:+ s := ⟨skipped ++ segment, by rw [hs, List.append_assoc]⟩
    have hremaining : remaining <:+ s :=
      ⟨filling ++ segment, by rw [hfilling, List.append_assoc]⟩
    obtain ⟨t, rfl⟩ := List.suffix_of_suffix_length_le hremaining hrest (by omega)
    exact hfollows.prepend t
  · intro h
    exact ⟨skipped, segment ++ rest, hs, (joins_cons hne).mpr ⟨rest, rfl, h⟩⟩

theorem not_follows_cons (hne : segments ≠ [])
    (hnone : ∀ before after, s ≠ before ++ (segment ++ after)) :
    ¬ Follows (segment :: segments) s := by
  rintro ⟨filling, taken, hfilling, h⟩
  obtain ⟨remaining, rfl, -⟩ := (joins_cons hne).mp h
  exact hnone filling remaining hfilling

variable [DecidableEq α] {star : α}

/-- The position of the leftmost occurrence. -/
def leftmost (segment : List α) : List α → Option ℕ
  | [] => if segment = [] then some 0 else none
  | c :: s => if segment.isPrefixOf (c :: s) then some 0 else (leftmost segment s).map (· + 1)

theorem leftmost_eq_none (h : leftmost segment s = none) (before after : List α) :
    s ≠ before ++ (segment ++ after) := by
  induction s generalizing before with
  | nil =>
    rw [leftmost] at h
    split at h
    · cases h
    next hsegment =>
      intro heq
      simp [hsegment] at heq
  | cons c s ih =>
    rw [leftmost] at h
    split at h
    · cases h
    next hprefix =>
      cases before with
      | nil =>
        intro heq
        exact hprefix (List.isPrefixOf_iff_prefix.mpr (heq ▸ List.prefix_append _ _))
      | cons d before =>
        intro heq
        exact ih (Option.map_eq_none_iff.mp h) before (List.cons.inj heq).2

theorem leftmost_eq_some {i : ℕ} (h : leftmost segment s = some i) :
    (∃ skipped rest, s = skipped ++ (segment ++ rest) ∧ skipped.length = i) ∧
      ∀ before after, s = before ++ (segment ++ after) → i ≤ before.length := by
  induction s generalizing i with
  | nil =>
    rw [leftmost] at h
    split at h
    next hsegment =>
      obtain rfl := Option.some.inj h
      exact ⟨⟨[], [], by simp [hsegment], rfl⟩, fun _ _ _ => Nat.zero_le _⟩
    next => cases h
  | cons c s ih =>
    rw [leftmost] at h
    split at h
    next hprefix =>
      obtain rfl := Option.some.inj h
      obtain ⟨rest, hrest⟩ := List.isPrefixOf_iff_prefix.mp hprefix
      exact ⟨⟨[], rest, hrest.symm, rfl⟩, fun _ _ _ => Nat.zero_le _⟩
    next hprefix =>
      obtain ⟨j, hj, rfl⟩ := Option.map_eq_some_iff.mp h
      obtain ⟨⟨skipped, rest, rfl, rfl⟩, hleft⟩ := ih hj
      refine ⟨⟨c :: skipped, rest, rfl, rfl⟩, ?_⟩
      intro before after heq
      cases before with
      | nil =>
        exact absurd (List.isPrefixOf_iff_prefix.mpr (heq ▸ List.prefix_append _ _)) hprefix
      | cons d before =>
        exact Nat.succ_le_succ (hleft before after (List.cons.inj heq).2)

/-! ### Fillings and segments -/

/-- The pattern with its wildcards replaced by the fillings, in order. -/
def fill (star : α) : List α → List (List α) → List α
  | [], _ => []
  | c :: pattern, fillings =>
    if c = star then fillings.headD [] ++ fill star pattern fillings.tail
    else c :: fill star pattern fillings

/-- Each wildcard can be replaced so that the result is the text. -/
def Filled (star : α) (pattern s : List α) : Prop :=
  ∃ fillings : List (List α), fillings.length = pattern.count star ∧ fill star pattern fillings = s

theorem filled_nil : Filled star [] s ↔ s = [] := by
  constructor
  · rintro ⟨-, -, rfl⟩
    rfl
  · rintro rfl
    exact ⟨[], rfl, rfl⟩

theorem filled_cons_star {pattern : List α} :
    Filled star (star :: pattern) s ↔ ∃ filling rest, s = filling ++ rest ∧
      Filled star pattern rest := by
  constructor
  · rintro ⟨fillings, hlength, rfl⟩
    rw [List.count_cons_self] at hlength
    obtain ⟨filling, fillings, rfl⟩ := List.exists_cons_of_length_eq_add_one hlength
    rw [fill, if_pos rfl]
    exact ⟨filling, _, rfl, fillings, Nat.add_right_cancel hlength, rfl⟩
  · rintro ⟨filling, -, rfl, fillings, hlength, rfl⟩
    refine ⟨filling :: fillings, ?_, ?_⟩
    · rw [List.length_cons, hlength, List.count_cons_self]
    · rw [fill, if_pos rfl]
      rfl

theorem filled_cons {c : α} {pattern : List α} (hc : c ≠ star) :
    Filled star (c :: pattern) s ↔ ∃ rest, s = c :: rest ∧ Filled star pattern rest := by
  constructor
  · rintro ⟨fillings, hlength, rfl⟩
    rw [List.count_cons_of_ne hc] at hlength
    rw [fill, if_neg hc]
    exact ⟨_, rfl, fillings, hlength, rfl⟩
  · rintro ⟨-, rfl, fillings, hlength, rfl⟩
    refine ⟨fillings, ?_, ?_⟩
    · rw [hlength, List.count_cons_of_ne hc]
    · rw [fill, if_neg hc]

/-- The wildcards can be filled if and only if the segments between them occur in order. -/
theorem filled_iff_joins {pattern : List α} :
    Filled star pattern s ↔ Joins (pattern.splitOn star) s := by
  induction pattern generalizing s with
  | nil =>
    rw [filled_nil, List.splitOn_nil]
    rfl
  | cons c pattern ih =>
    obtain ⟨segment, segments, hsplit⟩ :=
      List.exists_cons_of_ne_nil (List.splitOn_ne_nil star pattern)
    rw [List.splitOn_cons_eq_if_modifyHead]
    by_cases hc : c = star
    · subst hc
      rw [filled_cons_star, if_pos (beq_self_eq_true c), joins_cons (List.splitOn_ne_nil c pattern)]
      simp only [ih, List.nil_append, exists_eq_left', Follows]
    · rw [filled_cons hc, if_neg (by simpa using hc), hsplit, List.modifyHead_cons, joins_cons_cons]
      simp only [ih, hsplit]

end Glob
