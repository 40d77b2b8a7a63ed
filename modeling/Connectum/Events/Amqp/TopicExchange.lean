import Connectum.Events.Pattern

/-! Routing of a topic exchange, and the translation of bus patterns into its binding keys. -/
namespace Connectum.Events.Amqp
open WordPattern

/-- `pattern.replace(/>/g, "#")`. -/
def toAmqpPattern (pattern : String) : String :=
  String.ofList (pattern.toList.map fun c => if c = '>' then '#' else c)

/-- In a binding key `*` stands for one word and `#` for zero or more. -/
def bindingToken (p : Word) : Token Word :=
  if p = ['*'] then .any else if p = ['#'] then .many else .word p

def routes (bindingKey routingKey : String) : Bool :=
  accepts ((words bindingKey).map bindingToken) (words routingKey)

/-- The token that a part of a bus pattern becomes. -/
def amqpToken (p : Word) : Token Word := if p = ['>'] then .many else bindingToken p

variable {p : Word} {parts topicParts : List Word} {pattern topic : String}

theorem splitOn_map {α : Type*} [DecidableEq α] {a : α} {f : α → α} (hf : ∀ x, f x = a ↔ x = a)
    (s : List α) : (s.map f).splitOn a = (s.splitOn a).map (List.map f) := by
  induction s with
  | nil => rfl
  | cons x s ih =>
    have hbeq : (f x == a) = (x == a) := by
      rw [Bool.eq_iff_iff, beq_iff_eq, beq_iff_eq]
      exact hf x
    rw [List.map_cons, List.splitOn_cons_eq_if_modifyHead, List.splitOn_cons_eq_if_modifyHead, hbeq,
      ih]
    split
    · rfl
    · cases s.splitOn a <;> rfl

theorem amqpTokens_toAmqpPattern (h : WholeWildcards (words pattern)) :
    (words (toAmqpPattern pattern)).map bindingToken = (words pattern).map amqpToken := by
  have hwords : words (toAmqpPattern pattern) =
      (words pattern).map (List.map fun c => if c = '>' then '#' else c) := by
    rw [words, toAmqpPattern, String.toList_ofList]
    apply splitOn_map
    intro c
    by_cases hc : c = '>' <;> simp [hc]
  rw [hwords, List.map_map]
  apply List.map_congr_left
  intro p hp
  by_cases hrest : p = ['>']
  · subst hrest
    rfl
  · have hfree : '>' ∉ p := fun hc => hrest (h.rest p hp hc)
    have hmap : p.map (fun c => if c = '>' then '#' else c) = p := by
      calc p.map (fun c => if c = '>' then '#' else c) = p.map id :=
            List.map_congr_left fun c hc => if_neg fun heq : c = '>' => hfree (heq ▸ hc)
        _ = p := List.map_id p
    rw [Function.comp_apply, hmap, amqpToken, if_neg hrest]

theorem routes_iff (h : WholeWildcards (words pattern)) :
    routes (toAmqpPattern pattern) topic = true ↔
      accepts ((words pattern).map amqpToken) (words topic) = true := by
  rw [routes, amqpTokens_toAmqpPattern h]

/-- The exchange routes whatever the bus matches. -/
theorem accepts_amqp_of_bus (h : accepts (busTokens parts) topicParts = true) :
    accepts (parts.map amqpToken) topicParts = true := by
  induction parts generalizing topicParts with
  | nil => exact h
  | cons p parts ih =>
    have htokens : busTokens (p :: parts) = busToken p ++ busTokens parts := rfl
    rw [htokens, busToken] at h
    rw [List.map_cons, amqpToken]
    split at h
    next hrest =>
      obtain ⟨first, others, rfl, -, hothers⟩ := accepts_append.mp h
      rw [if_pos hrest]
      exact accepts_many.mpr ⟨others, List.suffix_append _ _, ih hothers⟩
    next hrest =>
      rw [if_neg hrest, bindingToken]
      split at h
      next hone =>
        rw [if_pos hone]
        exact accepts_any.mpr ((accepts_any.mp h).imp fun _ => Exists.imp fun _ => And.imp_right ih)
      next hone =>
        obtain ⟨others, rfl, hothers⟩ := accepts_word.mp h
        rw [if_neg hone]
        split
        · exact accepts_many.mpr ⟨others, List.suffix_cons _ _, ih hothers⟩
        · exact accepts_word.mpr ⟨others, rfl, ih hothers⟩

/-- The patterns that the exchange and the bus read alike: those with an empty part accept no
topic, and elsewhere `#` is not a word of the pattern and `>` is the whole pattern. -/
def Faithful (parts : List Word) : Prop :=
  [] ∈ parts ∨ ['#'] ∉ parts ∧ (['>'] ∈ parts → parts = [['>']])

instance : DecidablePred Faithful := fun parts =>
  inferInstanceAs (Decidable ([] ∈ parts ∨ ['#'] ∉ parts ∧ (['>'] ∈ parts → parts = [['>']])))

theorem amqpToken_eq_word (h : p = []) : amqpToken p = .word [] := by
  subst h
  rfl

/-- Without `#` and `>`, a part is the same token in both languages. -/
theorem map_amqpToken_eq (hhash : ['#'] ∉ parts) (hrest : ['>'] ∉ parts) :
    parts.map amqpToken = busTokens parts := by
  rw [busTokens, List.map_eq_flatMap]
  apply List.flatMap_congr
  intro p hp
  have hp' : p ≠ ['>'] ∧ p ≠ ['#'] := ⟨fun h => hrest (h ▸ hp), fun h => hhash (h ▸ hp)⟩
  rw [amqpToken, bindingToken, busToken, if_neg hp'.1, if_neg hp'.1, if_neg hp'.2]
  split <;> rfl

theorem accepts_bus_of_amqp (h : Faithful parts) (htopic : [] ∉ topicParts)
    (hne : topicParts ≠ []) (haccepts : accepts (parts.map amqpToken) topicParts = true) :
    accepts (busTokens parts) topicParts = true := by
  rcases h with hempty | ⟨hhash, hrest⟩
  · have hword : Token.word [] ∈ parts.map amqpToken :=
      List.mem_map.mpr ⟨[], hempty, amqpToken_eq_word rfl⟩
    exact absurd (mem_of_accepts haccepts hword) htopic
  · by_cases hmem : ['>'] ∈ parts
    · rw [hrest hmem]
      obtain ⟨v, others, rfl⟩ := List.exists_cons_of_ne_nil hne
      exact accepts_any.mpr ⟨v, others, rfl, accepts_rest⟩
    · rwa [← map_amqpToken_eq hhash hmem]

/-- A word that the exchange accepts for a part, other than `#`. -/
def sample (p : Word) : Word := if p = ['>'] ∨ p = ['*'] ∨ p = ['#'] then ['x'] else p

theorem sample_ne_hash (p : Word) : sample p ≠ ['#'] := by
  unfold sample
  split
  next => decide
  next h =>
    intro hp
    exact h (.inr (.inr hp))

theorem accepts_sample (parts : List Word) :
    accepts (parts.map amqpToken) (parts.map sample) = true := by
  induction parts with
  | nil => rfl
  | cons p parts ih =>
    rw [List.map_cons, List.map_cons, amqpToken, bindingToken, sample]
    by_cases hrest : p = ['>']
    · simp only [hrest, if_true, true_or]
      exact accepts_many.mpr ⟨_, List.suffix_cons _ _, ih⟩
    · by_cases hone : p = ['*']
      · simp only [hone]
        exact accepts_any.mpr ⟨_, _, rfl, ih⟩
      · by_cases hhash : p = ['#']
        · simp only [hhash]
          exact accepts_many.mpr ⟨_, List.suffix_cons _ _, ih⟩
        · simp only [hrest, hone, hhash, if_false, or_self]
          exact accepts_word.mpr ⟨_, rfl, ih⟩

theorem sample_good (hp : p ≠ []) (hdot : '.' ∉ p) : sample p ≠ [] ∧ '.' ∉ sample p := by
  unfold sample
  split
  · decide
  · exact ⟨hp, hdot⟩

/-- A pattern that is not faithful is routed a topic that the bus does not match. -/
theorem exists_unmatched (hdots : ∀ p ∈ parts, '.' ∉ p) (hlast : ['>'] ∉ parts.dropLast)
    (h : ¬ Faithful parts) :
    ∃ topicParts, topicParts ≠ [] ∧ (∀ w ∈ topicParts, w ≠ [] ∧ '.' ∉ w) ∧
      accepts (parts.map amqpToken) topicParts = true ∧
      ¬ accepts (busTokens parts) topicParts = true := by
  obtain ⟨hempty, hunfaithful⟩ := not_or.mp h
  have hgood : ∀ chosen : List Word, chosen ⊆ parts →
      ∀ w ∈ chosen.map sample, w ≠ [] ∧ '.' ∉ w := by
    intro chosen hsub w hw
    obtain ⟨p, hp, rfl⟩ := List.mem_map.mp hw
    exact sample_good (fun heq => hempty (heq ▸ hsub hp)) (hdots p (hsub hp))
  by_cases hhash : ['#'] ∈ parts
  · refine ⟨parts.map sample, ?_, hgood parts (List.Subset.refl _), accepts_sample parts, ?_⟩
    · rw [Ne, List.map_eq_nil_iff]
      exact List.ne_nil_of_mem hhash
    · intro haccepts
      have hword : Token.word ['#'] ∈ busTokens parts :=
        List.mem_flatMap.mpr ⟨['#'], hhash, by decide⟩
      obtain ⟨p, -, hp⟩ := List.mem_map.mp (mem_of_accepts haccepts hword)
      exact sample_ne_hash p hp
  · obtain ⟨hrest, hne⟩ := Classical.not_imp.mp fun himp => hunfaithful ⟨hhash, himp⟩
    have hparts : parts.dropLast ++ [['>']] = parts := by
      rcases List.eq_nil_or_concat parts with rfl | ⟨front, last, rfl⟩
      · exact absurd hrest List.not_mem_nil
      · rw [List.concat_eq_append] at hrest hlast ⊢
        rw [List.dropLast_concat] at hlast ⊢
        rcases List.mem_append.mp hrest with hfront | hmem
        · exact absurd hfront hlast
        · rw [List.mem_singleton.mp hmem]
    have hfront : parts.dropLast ≠ [] := by
      intro hnil
      rw [hnil] at hparts
      exact hne hparts.symm
    refine ⟨parts.dropLast.map sample, ?_, hgood _ (List.dropLast_subset parts), ?_, ?_⟩
    · rwa [Ne, List.map_eq_nil_iff]
    · -- `#` accepts no word at all
      rw [← hparts, List.map_append, List.dropLast_concat]
      exact accepts_append.mpr ⟨_, [], (List.append_nil _).symm, accepts_sample _, accepts_rest⟩
    · intro haccepts
      have hlen := length_le_of_accepts_bus haccepts
      rw [List.length_map, List.length_dropLast] at hlen
      have hpos := List.length_pos_of_mem hrest
      omega

theorem agrees_iff (h : WholeWildcards (words pattern)) :
    (∀ topic, IsTopic topic →
      (routes (toAmqpPattern pattern) topic = true ↔ matchPattern pattern topic = true)) ↔
      Faithful (words pattern) := by
  constructor
  · intro hagrees
    by_contra hunfaithful
    obtain ⟨topicParts, hne, hwords, hroutes, hmatch⟩ := exists_unmatched
      (fun p hp => notMem_of_mem_splitOn hp) h.last hunfaithful
    obtain ⟨topic, htopic, rfl⟩ := exists_topic hne hwords
    have hagree := hagrees topic htopic
    rw [routes_iff h, matchPattern_iff h.last] at hagree
    exact hmatch (hagree.mp hroutes)
  · intro hfaithful topic htopic
    rw [routes_iff h, matchPattern_iff h.last]
    exact ⟨accepts_bus_of_amqp hfaithful htopic (List.splitOn_ne_nil '.' _), accepts_amqp_of_bus⟩

variable {Handler : Type*} {topicHandlerMap : List (String × Handler)}

/-- The exchange routes exactly the topics that the bus matches if and only if the patterns of
the bus are faithful, and then the bus has a handler for every message that is routed to it. -/
theorem routed_iff_faithful (h : ∀ e ∈ topicHandlerMap, WholeWildcards (words e.1)) :
    ((∀ e ∈ topicHandlerMap, ∀ topic, IsTopic topic →
      (routes (toAmqpPattern e.1) topic = true ↔ matchPattern e.1 topic = true)) ↔
      ∀ e ∈ topicHandlerMap, Faithful (words e.1)) ∧
    ((∀ e ∈ topicHandlerMap, Faithful (words e.1)) → ∀ topic, IsTopic topic →
      (∃ e ∈ topicHandlerMap, routes (toAmqpPattern e.1) topic = true) →
      ∃ handler, lookupHandler topicHandlerMap topic = some handler) := by
  have hagrees : ∀ e ∈ topicHandlerMap, _ := fun e he => agrees_iff (h e he)
  refine ⟨⟨fun hall e he => (hagrees e he).mp (hall e he),
    fun hfaithful e he => (hagrees e he).mpr (hfaithful e he)⟩, ?_⟩
  rintro hfaithful topic htopic ⟨e, he, hroutes⟩
  exact exists_handler he (((hagrees e he).mpr (hfaithful e he) topic htopic).mp hroutes)

theorem routed_iff_faithful_userEvents :
    (routes (toAmqpPattern "user.*") "user.created" = true ↔
      matchPattern "user.*" "user.created" = true) ∧
    ∃ handler, lookupHandler [("user.*", ())] "user.created" = some handler := by
  have hwhole : ∀ e ∈ [("user.*", ())], WholeWildcards (words e.1) := by decide
  have h := routed_iff_faithful hwhole
  exact ⟨h.1.mpr (by decide) _ List.mem_cons_self _ (by decide),
    h.2 (by decide) _ (by decide) ⟨_, List.mem_cons_self, by decide⟩⟩

/-- `user.>` is bound as `user.#`, which is routed `user`: the bus matches no handler and
acknowledges the message. -/
theorem routed_without_handler :
    ¬ ∀ pattern topic, WholeWildcards (words pattern) → IsTopic topic →
      (routes (toAmqpPattern pattern) topic = true ↔ matchPattern pattern topic = true) := by
  intro h
  have hagree := h "user.>" "user" (by decide) (by decide)
  exact absurd (hagree.mp (by decide)) (by decide)

end Connectum.Events.Amqp
