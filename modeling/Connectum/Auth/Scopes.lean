import Connectum.Auth.Headers

/-! Scopes in a header value: joined with spaces, trimmed by `Headers`, and split again. -/
namespace Connectum.Auth
open JsString

/-- What trimming the start of a text does to its space-separated words. -/
def trimFirst : List JsString → List JsString
  | [] => []
  | word :: words =>
    if word.all isHttpWhitespace then trimFirst words
    else word.dropWhile isHttpWhitespace :: words

/-- The words, each one spelt backwards, from the last to the first. -/
def backwards (words : List JsString) : List JsString := (words.map List.reverse).reverse

def trimLast (words : List JsString) : List JsString := backwards (trimFirst (backwards words))

variable {s t : JsString} {words scopes : List JsString} {c : UInt16}

theorem js_space : js " " = [unit ' '] := by decide

theorem splitScopes_append_space :
    splitScopes (s ++ unit ' ' :: t) = splitScopes s ++ splitScopes t := by
  rw [splitScopes, List.splitOn_append_cons_self, List.filter_append]
  rfl

/-- A word is split off as it is. -/
theorem splitScopes_word (hne : s ≠ []) (hspace : unit ' ' ∉ s) : splitScopes s = [s] := by
  rw [splitScopes, List.splitOn_eq_singleton hspace]
  simp [hne]

theorem splitScopes_intercalate :
    splitScopes ((js " ").intercalate scopes) = scopes.flatMap splitScopes := by
  rw [js_space]
  induction scopes with
  | nil => decide
  | cons s scopes ih =>
    cases scopes with
    | nil => simp
    | cons t scopes =>
      rw [List.intercalate_cons_cons, List.append_assoc, List.singleton_append,
        splitScopes_append_space, ih]
      rfl

theorem trimFirst_cons_space (hc : isHttpWhitespace c = true) :
    trimFirst (splitScopes (c :: s)) = trimFirst (splitScopes s) := by
  unfold splitScopes
  rw [List.splitOn_cons_eq_if_modifyHead]
  split
  next => rfl
  next =>
    cases hsplit : s.splitOn (unit ' ') with
    | nil => exact absurd hsplit (List.splitOn_ne_nil _ s)
    | cons word words =>
      rw [List.modifyHead_cons, List.filter_cons_of_pos (by simp)]
      cases word with
      | nil =>
        rw [List.filter_cons_of_neg (by simp), trimFirst, if_pos (by simp [hc])]
      | cons d word =>
        rw [List.filter_cons_of_pos (by simp)]
        simp [trimFirst, hc]

theorem trimFirst_cons (hc : isHttpWhitespace c = false) :
    trimFirst (splitScopes (c :: s)) = splitScopes (c :: s) := by
  have hne : (c == unit ' ') = false := by
    apply beq_false_of_ne
    intro heq
    subst heq
    exact absurd hc (by decide)
  unfold splitScopes
  rw [List.splitOn_cons_eq_if_modifyHead, hne]
  cases hsplit : s.splitOn (unit ' ') with
  | nil => exact absurd hsplit (List.splitOn_ne_nil _ s)
  | cons word words =>
    simp [trimFirst, hc]

theorem splitScopes_dropWhile :
    splitScopes (s.dropWhile isHttpWhitespace) = trimFirst (splitScopes s) := by
  induction s with
  | nil => decide
  | cons c s ih =>
    by_cases hc : isHttpWhitespace c = true
    · rw [List.dropWhile_cons_of_pos hc, ih, trimFirst_cons_space hc]
    · have hc' : isHttpWhitespace c = false := by simpa using hc
      rw [List.dropWhile_cons_of_neg hc, trimFirst_cons hc']

theorem backwards_append (first last : List JsString) :
    backwards (first ++ last) = backwards last ++ backwards first := by
  simp [backwards]

theorem splitScopes_reverse (s : JsString) : splitScopes s.reverse = backwards (splitScopes s) := by
  by_cases hspace : unit ' ' ∈ s
  · obtain ⟨t, r, heq, ht⟩ := List.eq_append_cons_of_mem hspace
    have hshort : r.length < s.length := by
      rw [heq, List.length_append, List.length_cons]
      omega
    have hreverse : s.reverse = r.reverse ++ unit ' ' :: t.reverse := by
      rw [heq]
      simp
    have ht' : unit ' ' ∉ t.reverse := by simpa using ht
    have hlast : splitScopes t.reverse = backwards (splitScopes t) := by
      by_cases hnil : t = []
      · subst hnil
        decide
      · rw [splitScopes_word hnil ht, splitScopes_word (by simpa using hnil) ht']
        rfl
    rw [hreverse, splitScopes_append_space, splitScopes_reverse r, hlast, ← backwards_append,
      ← splitScopes_append_space, ← heq]
  · have hspace' : unit ' ' ∉ s.reverse := by simpa using hspace
    by_cases hnil : s = []
    · subst hnil
      decide
    · rw [splitScopes_word hnil hspace, splitScopes_word (by simpa using hnil) hspace']
      rfl
termination_by s.length

/-- The words of a header value, which `Headers` has trimmed. -/
theorem splitScopes_normalizeValue :
    splitScopes (normalizeValue s) = trimLast (trimFirst (splitScopes s)) := by
  rw [normalizeValue, List.rdropWhile, splitScopes_reverse, splitScopes_dropWhile,
    splitScopes_reverse, splitScopes_dropWhile]
  rfl

end Connectum.Auth
