import Mathlib.Data.List.Basic
import Mathlib.Tactic.Common

/-! Loops over a list whose turns may end with an error. -/
namespace Loop
variable {σ α ε : Type*} {turn : σ → α → Except ε σ} {s s' : σ} {l : List α}

theorem foldlM_cons_ok {a : α} :
    (a :: l).foldlM turn s = .ok s' ↔ ∃ t, turn s a = .ok t ∧ l.foldlM turn t = .ok s' := by
  rw [List.foldlM_cons]
  cases turn s a with
  | error e => exact ⟨fun h => (nomatch h), fun ⟨_, h, _⟩ => (nomatch h)⟩
  | ok t =>
    constructor
    · exact fun h => ⟨t, rfl, h⟩
    · rintro ⟨t', ht, h⟩
      obtain rfl := Except.ok.inj ht
      exact h

/-- What every turn keeps, as a relation of the state to the elements so far. -/
theorem foldlM_history {P : List α → σ → Prop}
    (hturn : ∀ done s a s', P done s → turn s a = .ok s' → P (done ++ [a]) s')
    {done : List α} (hs : P done s) (h : l.foldlM turn s = .ok s') : P (done ++ l) s' := by
  induction l generalizing done s with
  | nil =>
    obtain rfl := Except.ok.inj h
    rwa [List.append_nil]
  | cons a l ih =>
    obtain ⟨t, hone, hrest⟩ := foldlM_cons_ok.mp h
    have hnext := ih (hturn done s a t hs hone) hrest
    rwa [List.append_assoc, List.singleton_append] at hnext

/-- What every turn keeps of the state alone. -/
theorem foldlM_invariant {P : σ → Prop} (hturn : ∀ s a s', P s → turn s a = .ok s' → P s')
    (hs : P s) (h : l.foldlM turn s = .ok s') : P s' :=
  @foldlM_history _ _ _ _ _ _ _ (fun _ s => P s) (fun _ => hturn) [] hs h

end Loop
