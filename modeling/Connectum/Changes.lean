import Mathlib.Data.List.Destutter

/-! A value that is read again and again, and reported where it has changed. -/
namespace Changes
variable {α : Type*} [DecidableEq α] {l : List α} {a b : α}

theorem destutter'_concat : (l ++ [b]).destutter' (· ≠ ·) a =
    l.destutter' (· ≠ ·) a ++ if (a :: l).getLast? = some b then [] else [b] := by
  induction l generalizing a with
  | nil =>
    by_cases hab : a = b
    · simp [hab]
    · simp [hab]
  | cons c l ih =>
    rw [List.getLast?_cons_cons]
    by_cases hac : a = c
    · subst hac
      rw [List.cons_append, List.destutter'_cons_neg _ (not_not_intro rfl),
        List.destutter'_cons_neg _ (not_not_intro rfl), ih]
    · rw [List.cons_append, List.destutter'_cons_pos _ hac, List.destutter'_cons_pos _ hac, ih]
      rfl

/-- Another reading is reported if it differs from the last one. -/
theorem destutter_concat : (l ++ [b]).destutter (· ≠ ·) =
    l.destutter (· ≠ ·) ++ if l.getLast? = some b then [] else [b] := by
  cases l with
  | nil => rfl
  | cons a l => exact destutter'_concat

/-- The last report is the last reading. -/
theorem getLast?_destutter : (l.destutter (· ≠ ·)).getLast? = l.getLast? := by
  induction l using List.reverseRecOn with
  | nil => rfl
  | append_singleton l b ih =>
    rw [destutter_concat, List.getLast?_concat]
    split
    next hlast => rw [List.append_nil, ih, hlast]
    next => rw [List.getLast?_concat]

end Changes
