import Connectum.Events.Wildcard
import Connectum.WordPattern

/-! The patterns of event buses as patterns over the words of a topic. -/
namespace Connectum.Events
open WordPattern

/-- A dot-separated part of a topic or of a pattern. -/
abbrev Word := List Char

def words (s : String) : List Word := s.toList.splitOn '.'

/-- A topic is made of non-empty words. -/
def IsTopic (topic : String) : Prop := [] ∉ words topic

instance : DecidablePred IsTopic := fun topic => inferInstanceAs (Decidable ([] ∉ words topic))

/-- Wildcards are whole words, and `>` is the last one. -/
structure WholeWildcards (parts : List Word) : Prop where
  one : ∀ p ∈ parts, '*' ∈ p → p = ['*']
  rest : ∀ p ∈ parts, '>' ∈ p → p = ['>']
  last : ['>'] ∉ parts.dropLast

instance : DecidablePred WholeWildcards := fun parts =>
  decidable_of_iff ((∀ p ∈ parts, '*' ∈ p → p = ['*']) ∧ (∀ p ∈ parts, '>' ∈ p → p = ['>']) ∧
    ['>'] ∉ parts.dropLast) ⟨fun h => ⟨h.1, h.2.1, h.2.2⟩, fun h => ⟨h.one, h.rest, h.last⟩⟩

/-- `*` stands for one word and `>` for one or more. -/
def busToken (p : Word) : List (Token Word) :=
  if p = ['>'] then [.any, .many] else if p = ['*'] then [.any] else [.word p]

def busTokens (parts : List Word) : List (Token Word) := parts.flatMap busToken

variable {p t : Word} {parts topicParts : List Word} {pattern topic : String}

theorem words_injective (h : words pattern = words topic) : pattern = topic := by
  apply String.toList_injective
  calc pattern.toList = ['.'].intercalate (words pattern) := (List.intercalate_splitOn '.').symm
    _ = ['.'].intercalate (words topic) := by rw [h]
    _ = topic.toList := List.intercalate_splitOn '.'

/-- The pieces are made of the other characters. -/
theorem mem_and_ne_of_mem_splitOn {a c : Char} {s : List Char} (hp : p ∈ s.splitOn a)
    (hc : c ∈ p) : c ∈ s ∧ c ≠ a := by
  induction s generalizing p with
  | nil =>
    obtain rfl := List.mem_singleton.mp hp
    exact absurd hc List.not_mem_nil
  | cons x s ih =>
    rw [List.splitOn_cons_eq_if_modifyHead] at hp
    split at hp
    next =>
      rcases List.mem_cons.mp hp with rfl | hp
      · exact absurd hc List.not_mem_nil
      · exact (ih hp hc).imp_left (List.mem_cons_of_mem x)
    next hx =>
      cases hsplit : s.splitOn a with
      | nil => exact absurd hsplit (List.splitOn_ne_nil a s)
      | cons first others =>
        rw [hsplit] at hp ih
        rcases List.mem_cons.mp hp with rfl | hp
        · rcases List.mem_cons.mp hc with rfl | hc
          · exact ⟨List.mem_cons_self, fun heq => hx (beq_iff_eq.mpr heq)⟩
          · exact (ih List.mem_cons_self hc).imp_left (List.mem_cons_of_mem x)
        · exact (ih (List.mem_cons_of_mem first hp) hc).imp_left (List.mem_cons_of_mem x)

theorem mem_of_mem_splitOn {a c : Char} {s : List Char} (hp : p ∈ s.splitOn a) (hc : c ∈ p) :
    c ∈ s := (mem_and_ne_of_mem_splitOn hp hc).1

theorem notMem_of_mem_splitOn {a : Char} {s : List Char} (hp : p ∈ s.splitOn a) : a ∉ p :=
  fun ha => (mem_and_ne_of_mem_splitOn hp ha).2 rfl

theorem WholeWildcards.tail (h : WholeWildcards (p :: parts)) : WholeWildcards parts := by
  have hlast : ['>'] ∉ parts.dropLast := by
    cases parts with
    | nil => simp
    | cons q parts =>
      intro hmem
      apply h.last
      rw [List.dropLast_cons_of_ne_nil (List.cons_ne_nil q parts)]
      exact List.mem_cons_of_mem p hmem
  exact ⟨fun q hq => h.one q (List.mem_cons_of_mem p hq),
    fun q hq => h.rest q (List.mem_cons_of_mem p hq), hlast⟩

/-- The loop of `matchPattern` accepts what the tokens do. -/
theorem matchParts_iff (hlast : ['>'] ∉ parts.dropLast) :
    matchParts parts topicParts = true ↔ accepts (busTokens parts) topicParts = true := by
  induction parts generalizing topicParts with
  | nil => simp [matchParts, busTokens]
  | cons p parts ih =>
    have htokens : busTokens (p :: parts) = busToken p ++ busTokens parts := rfl
    rw [htokens, matchParts.eq_def]
    dsimp only
    by_cases hrest : p = ['>']
    · have hnil : parts = [] := by
        by_contra hne
        rw [List.dropLast_cons_of_ne_nil hne, hrest] at hlast
        exact hlast List.mem_cons_self
      subst hnil hrest
      cases topicParts <;> simp [busToken, busTokens, accepts_rest]
    · have hlast' : ['>'] ∉ parts.dropLast := by
        cases parts with
        | nil => simp
        | cons q parts =>
          rw [List.dropLast_cons_of_ne_nil (by simp)] at hlast
          exact fun h => hlast (List.mem_cons_of_mem p h)
      rw [if_neg hrest, busToken, if_neg hrest]
      by_cases hone : p = ['*']
      · cases topicParts <;> simp [hone, ih hlast']
      · cases topicParts with
        | nil => simp [hone]
        | cons t topicParts =>
          simp only [hone, if_false, List.singleton_append, accepts_word, List.cons.injEq]
          by_cases ht : p = t
          · subst ht
            simp [ih hlast']
          · simp [ht, Ne.symm ht]

theorem matchPattern_iff (hlast : ['>'] ∉ (words pattern).dropLast) :
    matchPattern pattern topic = true ↔
      accepts (busTokens (words pattern)) (words topic) = true := by
  unfold matchPattern
  split
  next hliteral =>
    have htokens : busTokens (words pattern) = (words pattern).map .word := by
      rw [List.map_eq_flatMap]
      apply List.flatMap_congr
      intro p hp
      have hone : p ≠ ['*'] := by
        rintro rfl
        exact hliteral.1 (mem_of_mem_splitOn hp (by simp))
      have hrest : p ≠ ['>'] := by
        rintro rfl
        exact hliteral.2 (mem_of_mem_splitOn hp (by simp))
      rw [busToken, if_neg hrest, if_neg hone]
    rw [htokens, accepts_literal, decide_eq_true_iff]
    exact ⟨fun heq => heq ▸ rfl, fun heq => (words_injective heq).symm⟩
  next => exact matchParts_iff hlast

theorem exists_mem_splitOn {a c : Char} {s : List Char} (hc : c ∈ s) (hne : c ≠ a) :
    ∃ w ∈ s.splitOn a, c ∈ w := by
  induction s with
  | nil => exact absurd hc List.not_mem_nil
  | cons x s ih =>
    rw [List.splitOn_cons_eq_if_modifyHead]
    split
    next hx =>
      rcases List.mem_cons.mp hc with heq | hc
      · exact absurd (heq.trans (beq_iff_eq.mp hx)) hne
      · obtain ⟨w, hw, hcw⟩ := ih hc
        exact ⟨w, List.mem_cons_of_mem _ hw, hcw⟩
    next =>
      cases hsplit : s.splitOn a with
      | nil => exact absurd hsplit (List.splitOn_ne_nil a s)
      | cons first others =>
        rw [List.modifyHead_cons]
        rcases List.mem_cons.mp hc with heq | hc
        · exact ⟨x :: first, List.mem_cons_self, heq ▸ List.mem_cons_self⟩
        · obtain ⟨w, hw, hcw⟩ := ih hc
          rw [hsplit] at hw
          rcases List.mem_cons.mp hw with heq | hw
          · exact ⟨x :: first, List.mem_cons_self, List.mem_cons_of_mem x (heq ▸ hcw)⟩
          · exact ⟨w, List.mem_cons_of_mem _ hw, hcw⟩

/-- The tokens of a pattern match those of a topic position by position. Only as the last token
does `>` match, and then it takes all the tokens that are left. -/
structure Matches (parts topicParts : List Word) : Prop where
  token : ∀ (i : ℕ) (p t : Word), parts[i]? = some p → topicParts[i]? = some t →
    p = ['*'] ∨ p = ['>'] ∨ p = t
  rest_last : ['>'] ∉ parts.dropLast
  length : parts.length = topicParts.length ∨
    parts.getLast? = some ['>'] ∧ parts.length < topicParts.length

theorem matches_nil : Matches [] topicParts ↔ topicParts = [] := by
  constructor
  · intro h
    rcases h.length with hlength | ⟨hlast, -⟩
    · exact List.length_eq_zero_iff.mp hlength.symm
    · simp at hlast
  · intro hnil
    subst hnil
    exact ⟨by simp, by simp, .inl (by simp)⟩

theorem not_matches_nil : ¬ Matches (p :: parts) [] := by
  intro h
  rcases h.length with hlength | ⟨-, hlength⟩ <;> simp at hlength

theorem matches_rest :
    Matches (['>'] :: parts) topicParts ↔ parts = [] ∧ topicParts ≠ [] := by
  constructor
  · intro h
    have hparts : parts = [] := by
      by_contra hne
      apply h.rest_last
      rw [List.dropLast_cons_of_ne_nil hne]
      exact List.mem_cons_self
    have htopic : topicParts ≠ [] := by
      intro hnil
      subst hnil
      exact not_matches_nil h
    exact ⟨hparts, htopic⟩
  · intro ⟨hparts, htopic⟩
    subst hparts
    have hpos := List.length_pos_iff.mpr htopic
    have hlength : 1 = topicParts.length ∨ 1 < topicParts.length := by omega
    apply Matches.mk
    · intro i p t hp _
      cases i with
      | zero =>
        have heq : ['>'] = p := by simpa using hp
        exact .inr (.inl heq.symm)
      | succ i => simp at hp
    · simp
    · simpa using hlength

/-- Any other first token takes one token of the topic. -/
theorem matches_cons (hrest : p ≠ ['>']) :
    Matches (p :: parts) (t :: topicParts) ↔ (p = ['*'] ∨ p = t) ∧ Matches parts topicParts := by
  have hdrop : ['>'] ∈ (p :: parts).dropLast ↔ ['>'] ∈ parts.dropLast := by
    cases parts with
    | nil => simp
    | cons q parts => simp [List.dropLast_cons_of_ne_nil, hrest.symm]
  have hlast : (p :: parts).getLast? = some ['>'] ↔ parts.getLast? = some ['>'] := by
    cases parts with
    | nil => simp [hrest]
    | cons q parts => simp
  constructor
  · intro h
    have hfirst : p = ['*'] ∨ p = t := by
      rcases h.token 0 p t (by simp) (by simp) with hone | hmany | hliteral
      · exact .inl hone
      · exact absurd hmany hrest
      · exact .inr hliteral
    have hlength := h.length
    rw [hlast] at hlength
    apply And.intro hfirst
    apply Matches.mk
    · intro i q u hq hu
      exact h.token (i + 1) q u (by simpa using hq) (by simpa using hu)
    · exact fun hmem => h.rest_last (hdrop.mpr hmem)
    · simpa using hlength
  · intro ⟨hfirst, h⟩
    have hlength := h.length
    rw [← hlast] at hlength
    apply Matches.mk
    · intro i q u hq hu
      cases i with
      | zero =>
        have hp : p = q := by simpa using hq
        have ht : t = u := by simpa using hu
        subst hp ht
        exact hfirst.imp_right .inr
      | succ i => exact h.token i q u (by simpa using hq) (by simpa using hu)
    · exact fun hmem => h.rest_last (hdrop.mp hmem)
    · simpa using hlength

/-- The loop of `matchPattern` decides the match of the tokens. -/
theorem matchParts_iff_matches : matchParts parts topicParts = true ↔ Matches parts topicParts := by
  induction parts generalizing topicParts with
  | nil => simp [matchParts, matches_nil]
  | cons p parts ih =>
    rw [matchParts.eq_def]
    dsimp only
    by_cases hrest : p = ['>']
    · subst hrest
      simp [matches_rest]
    · rw [if_neg hrest]
      cases topicParts with
      | nil => simp [not_matches_nil]
      | cons t topicParts =>
        rw [matches_cons hrest]
        by_cases hone : p = ['*']
        · simp [hone, ih]
        · by_cases ht : p = t
          · simp [ht, ih]
          · simp [hone, ht]

/-- Tokens that are no wildcards match themselves. -/
theorem matches_literal (hone : ['*'] ∉ parts) (hrest : ['>'] ∉ parts) :
    Matches parts topicParts ↔ parts = topicParts := by
  induction parts generalizing topicParts with
  | nil => rw [matches_nil, eq_comm]
  | cons p parts ih =>
    rw [List.mem_cons, not_or] at hone hrest
    cases topicParts with
    | nil => simp [not_matches_nil]
    | cons t topicParts =>
      rw [matches_cons (Ne.symm hrest.1), ih hone.2 hrest.2, List.cons.injEq]
      simp [Ne.symm hone.1]

theorem matchPattern_iff_matches (pattern topic : String) :
    (matchPattern pattern topic = true ↔ Matches (words pattern) (words topic)) ∧
      matchPattern pattern topic = matchParts (words pattern) (words topic) := by
  have hparts : matchParts (words pattern) (words topic) = true ↔
      Matches (words pattern) (words topic) := matchParts_iff_matches
  unfold matchPattern
  split
  next hliteral =>
    have hone : ['*'] ∉ words pattern := fun hmem =>
      hliteral.1 (mem_of_mem_splitOn hmem (by simp))
    have hrest : ['>'] ∉ words pattern := fun hmem =>
      hliteral.2 (mem_of_mem_splitOn hmem (by simp))
    have hmatches : pattern = topic ↔ Matches (words pattern) (words topic) := by
      rw [matches_literal hone hrest]
      exact ⟨congrArg words, words_injective⟩
    constructor
    · rw [decide_eq_true_iff, hmatches]
    · rw [Bool.eq_iff_iff, decide_eq_true_iff, hparts, hmatches]
  next => exact ⟨hparts, rfl⟩

/-- The bus wants at least one word for each part. -/
theorem length_le_of_accepts_bus (h : accepts (busTokens parts) topicParts = true) :
    parts.length ≤ topicParts.length := by
  induction parts generalizing topicParts with
  | nil => simp
  | cons p parts ih =>
    obtain ⟨first, others, rfl, hfirst, hothers⟩ := accepts_append.mp h
    have hpos : first ≠ [] := by
      rintro rfl
      rw [accepts_empty_iff] at hfirst
      unfold busToken at hfirst
      split at hfirst
      · simp at hfirst
      · split at hfirst <;> simp at hfirst
    have hlen := List.length_pos_iff.mpr hpos
    have hle := ih hothers
    simp only [List.length_cons, List.length_append]
    omega

/-- Non-empty words without dots are the words of a topic. -/
theorem exists_topic (hne : topicParts ≠ []) (hwords : ∀ w ∈ topicParts, w ≠ [] ∧ '.' ∉ w) :
    ∃ topic, IsTopic topic ∧ words topic = topicParts := by
  have heq : words (String.ofList (['.'].intercalate topicParts)) = topicParts := by
    rw [words, String.toList_ofList]
    exact List.splitOn_intercalate '.' (fun w hw => (hwords w hw).2) hne
  refine ⟨_, ?_, heq⟩
  rw [IsTopic, heq]
  exact fun hmem => (hwords [] hmem).1 rfl

variable {Handler : Type*} {topicHandlerMap : List (String × Handler)}

theorem exists_handler {e : String × Handler} (he : e ∈ topicHandlerMap)
    (hmatch : matchPattern e.1 topic = true) :
    ∃ handler, lookupHandler topicHandlerMap topic = some handler := by
  unfold lookupHandler
  cases hlookup : topicHandlerMap.lookup topic with
  | some handler => exact ⟨handler, rfl⟩
  | none =>
    have hne : e.1 ≠ topic := by
      intro heq
      have hbeq := List.lookup_eq_none_iff.mp hlookup e he
      simp [heq] at hbeq
    have hfound : (topicHandlerMap.find? fun entry =>
        decide (entry.1 ≠ topic) && matchPattern entry.1 topic).isSome = true := by
      rw [List.find?_isSome]
      exact ⟨e, he, by simp [hne, hmatch]⟩
    obtain ⟨found, hfound⟩ := Option.isSome_iff_exists.mp hfound
    exact ⟨found.2, by rw [hfound]; rfl⟩

end Connectum.Events
