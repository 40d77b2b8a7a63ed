import Connectum.Events.Pattern
import Connectum.JsString
import Connectum.RegExp

/-! Topics that a Kafka consumer subscribes to: a pattern of the bus is translated into the source
text of a regular expression. -/
namespace Connectum.Events.Kafka

/-- `text.replace(/[characters]/g, replacement)`. -/
def replaceAll (text characters : List Char) (replacement : Char → List Char) : List Char :=
  text.flatMap fun c => if c ∈ characters then replacement c else [c]

/-- `/[.+?^${}()|[\]\\]/`: the special characters except the wildcards. -/
def specialCharacters : List Char :=
  ['.', '+', '?', '^', '$', '{', '}', '(', ')', '|', '[', ']', '\\']

def escaped (pattern : List Char) : List Char :=
  replaceAll
    (replaceAll
      (replaceAll pattern specialCharacters fun c => ['\\', c])
      ['*'] fun _ => "[^.]+".toList)
    ['>'] fun _ => ".+".toList

/-- `string | RegExp`, the latter by its source text. -/
inductive TopicMatcher where
  | exact (topic : String)
  | regExp (source : List Char)
  deriving DecidableEq, Repr

def patternToKafkaTopicMatcher (pattern : String) : Except String TopicMatcher :=
  let length := (JsString.js pattern).length
  if length > 256 then
    .error ("Topic pattern exceeds maximum length (256): " ++ toString length)
  else if '*' ∉ pattern.toList ∧ '>' ∉ pattern.toList then .ok (.exact pattern)
  else .ok (.regExp ('^' :: escaped pattern.toList ++ ['$']))

/-- The client subscribes to equal topics, or to those that pass the test of the expression.
Nothing is said of a source text that is not read. -/
def TopicMatcher.matches : TopicMatcher → String → Option Bool
  | .exact name, topic => some (decide (name = topic))
  | .regExp source, topic => (RegExp.parse source).map fun terms => RegExp.test terms topic.toList

/-- What a character of the pattern becomes. -/
def translated (c : Char) : RegExp.Term :=
  if c = '*' then .many (.except ['.'])
  else if c = '>' then .many .dot
  else .one (.char c)

def isLegal (c : Char) : Bool := c.isAlphanum || c = '_' || c = '-'

/-- A topic of Kafka that is made of non-empty segments. -/
def IsKafkaTopic (topic : String) : Prop :=
  ∀ w ∈ words topic, w ≠ [] ∧ ∀ c ∈ w, isLegal c = true

variable {p : Word} {parts : List Word} {terms : List RegExp.Term} {subject rest : List Char}
  {pattern topic : String} {c : Char}

/-- Of the characters that need a backslash only `*` gets none. -/
theorem mem_specialCharacters (hone : c ≠ '*') :
    c ∈ specialCharacters ↔ c ∈ RegExp.syntaxCharacters := by
  have hperm : ('*' :: specialCharacters).Perm RegExp.syntaxCharacters := by decide
  rw [← hperm.mem_iff, List.mem_cons]
  simp [hone]

/-- No step of the translation touches what an earlier one has written. -/
theorem escaped_eq (pattern : List Char) :
    escaped pattern = RegExp.source (pattern.map translated) := by
  induction pattern with
  | nil => rfl
  | cons c pattern ih =>
    have hcons : escaped (c :: pattern) = escaped [c] ++ escaped pattern := by
      simp [escaped, replaceAll]
    have hsource : RegExp.source ((c :: pattern).map translated) =
        (translated c).source ++ RegExp.source (pattern.map translated) := rfl
    have hfirst : escaped [c] = (translated c).source := by
      by_cases hone : c = '*'
      · subst hone
        decide
      by_cases hmany : c = '>'
      · subst hmany
        decide
      have hspecial := mem_specialCharacters hone
      have hsource : (translated c).source =
          if c ∈ RegExp.syntaxCharacters then ['\\', c] else [c] := by
        rw [translated, if_neg hone, if_neg hmany]
        rfl
      rw [hsource]
      by_cases hc : c ∈ specialCharacters
      · rw [if_pos (hspecial.mp hc)]
        simp [escaped, replaceAll, hc, hone, hmany]
      · rw [if_neg (hspecial.not.mp hc)]
        simp [escaped, replaceAll, hc, hone, hmany]
    rw [hcons, hsource, hfirst, ih]

theorem plain_translated (c : Char) : (translated c).Plain := by
  unfold translated
  split
  · intro d hd
    obtain rfl := List.mem_singleton.mp hd
    decide
  · split
    · exact trivial
    · exact trivial

theorem start_notMem_translated (text : List Char) :
    .start ∉ text.map translated ++ [.finish] := by
  intro hmem
  rcases List.mem_append.mp hmem with hmem | hmem
  · obtain ⟨c, -, hc⟩ := List.mem_map.mp hmem
    unfold translated at hc
    split at hc
    · cases hc
    · split at hc <;> cases hc
  · simp at hmem

/-- The expression that is built is read as the characters of the pattern between two anchors. -/
theorem parse_escaped (pattern : List Char) :
    RegExp.parse ('^' :: escaped pattern ++ ['$']) =
      some (.start :: (pattern.map translated ++ [.finish])) := by
  have hsource : '^' :: escaped pattern ++ ['$'] =
      RegExp.source (.start :: (pattern.map translated ++ [.finish])) := by
    rw [escaped_eq]
    simp [RegExp.source, RegExp.Term.source]
  rw [hsource]
  apply RegExp.parse_source
  intro term hterm
  rcases List.mem_cons.mp hterm with heq | hterm
  · subst heq
    exact trivial
  rcases List.mem_append.mp hterm with hterm | hterm
  · obtain ⟨c, -, hc⟩ := List.mem_map.mp hterm
    exact hc ▸ plain_translated c
  · obtain rfl := List.mem_singleton.mp hterm
    exact trivial

theorem eq_of_append_dot {t u rest other : List Char} (ht : '.' ∉ t) (hu : '.' ∉ u)
    (h : t ++ '.' :: rest = u ++ '.' :: other) : t = u ∧ rest = other := by
  have hsplit := congrArg (List.splitOn '.') h
  rw [List.splitOn_append_cons_self_of_not_mem ht, List.splitOn_append_cons_self_of_not_mem hu]
    at hsplit
  obtain ⟨htu, -⟩ := List.cons.inj hsplit
  subst htu
  exact ⟨rfl, (List.cons.inj (List.append_cancel_left h)).2⟩

section Part

variable (hrest : p ≠ ['>']) (hdot : '.' ∉ p) (hone : '*' ∈ p → p = ['*'])
  (hmany : '>' ∈ p → p = ['>'])
include hrest hdot hone hmany

/-- A part that is not `>` takes a run without dots. -/
theorem matchesAt_part : RegExp.matchesAt (p.map translated ++ terms) false subject = true ↔
      ∃ t rest, subject = t ++ rest ∧ '.' ∉ t ∧ (p = ['*'] ∧ t ≠ [] ∨ p = t) ∧
        RegExp.matchesAt terms false rest = true := by
  by_cases hp : p = ['*']
  · subst hp
    have hmap : ['*'].map translated ++ terms = .many (.except ['.']) :: terms := rfl
    rw [hmap, RegExp.matchesAt_many]
    constructor
    · intro h
      obtain ⟨t, rest, hne, heq, ht, hmatch⟩ := h
      have hdots : '.' ∉ t := fun hmem => by simpa [RegExp.Atom.admits] using ht '.' hmem
      exact ⟨t, rest, heq, hdots, .inl ⟨rfl, hne⟩, hmatch⟩
    · intro h
      obtain ⟨t, rest, heq, hdots, ht, hmatch⟩ := h
      have hne : t ≠ [] := by
        rcases ht with ⟨-, hne⟩ | ht
        · exact hne
        · exact ht ▸ List.cons_ne_nil _ _
      apply Exists.intro t
      apply Exists.intro rest
      apply And.intro hne
      apply And.intro heq
      apply And.intro _ hmatch
      intro c hc
      have hcdot : c ≠ '.' := fun hc' => hdots (hc' ▸ hc)
      simp [RegExp.Atom.admits, hcdot]
  · have hone' : '*' ∉ p := fun hmem => hp (hone hmem)
    have hmany' : '>' ∉ p := fun hmem => hrest (hmany hmem)
    have hmap : p.map translated = RegExp.literal p := by
      apply List.map_congr_left
      intro c hc
      have hcone : c ≠ '*' := fun hc' => hone' (hc' ▸ hc)
      have hcmany : c ≠ '>' := fun hc' => hmany' (hc' ▸ hc)
      rw [translated, if_neg hcone, if_neg hcmany]
    rw [hmap, RegExp.matchesAt_literal]
    constructor
    · intro h
      obtain ⟨rest, heq, hmatch⟩ := h
      exact ⟨p, rest, heq, hdot, .inr rfl, hmatch⟩
    · intro h
      obtain ⟨t, rest, heq, -, ht, hmatch⟩ := h
      rcases ht with ⟨hp', -⟩ | ht
      · exact absurd hp' hp
      · exact ⟨rest, ht ▸ heq, hmatch⟩

/-- The part is followed by a dot. -/
theorem matchesAt_part_dot {t : List Char} (ht : '.' ∉ t) (hne : t ≠ []) :
    RegExp.matchesAt (p.map translated ++ (RegExp.literal ['.'] ++ terms)) false
        (t ++ '.' :: rest) = true ↔
      (p = ['*'] ∨ p = t) ∧ RegExp.matchesAt terms false rest = true := by
  rw [matchesAt_part hrest hdot hone hmany]
  constructor
  · intro ⟨u, other, heq, hu, hpu, hmatch⟩
    obtain ⟨after, hafter, hmatch⟩ := RegExp.matchesAt_literal.mp hmatch
    subst hafter
    obtain ⟨htu, hrest⟩ := eq_of_append_dot ht hu heq
    subst htu hrest
    exact ⟨hpu.imp_left And.left, hmatch⟩
  · intro ⟨hpt, hmatch⟩
    exact ⟨t, '.' :: rest, rfl, ht, hpt.imp_left fun hp => ⟨hp, hne⟩,
      RegExp.matchesAt_literal.mpr ⟨rest, rfl, hmatch⟩⟩

theorem not_matchesAt_part_dot (hsubject : '.' ∉ subject) :
    ¬ RegExp.matchesAt (p.map translated ++ (RegExp.literal ['.'] ++ terms)) false
        subject = true := by
  rw [matchesAt_part hrest hdot hone hmany]
  intro ⟨t, other, heq, _, _, hmatch⟩
  obtain ⟨after, hafter, -⟩ := RegExp.matchesAt_literal.mp hmatch
  subst heq hafter
  exact hsubject (List.mem_append_right t List.mem_cons_self)

/-- The part is the last one. -/
theorem matchesAt_part_finish (hne : subject ≠ []) :
    RegExp.matchesAt (p.map translated ++ [.finish]) false subject = true ↔
      '.' ∉ subject ∧ (p = ['*'] ∨ p = subject) := by
  rw [matchesAt_part hrest hdot hone hmany]
  constructor
  · intro ⟨t, other, heq, ht, hpt, hfinish⟩
    rw [RegExp.matchesAt_finish.mp hfinish, List.append_nil] at heq
    subst heq
    exact ⟨ht, hpt.imp_left And.left⟩
  · intro ⟨hsubject, hp⟩
    exact ⟨subject, [], (List.append_nil subject).symm, hsubject, hp.imp_left fun hp => ⟨hp, hne⟩,
      RegExp.matchesAt_finish.mpr rfl⟩

end Part

/-- Legal characters and dots are no line terminators. -/
theorem dot_admits (h : ∀ w ∈ subject.splitOn '.', ∀ c ∈ w, isLegal c = true) (hc : c ∈ subject) :
    RegExp.Atom.dot.admits c = true := by
  have hnone : ∀ d ∈ RegExp.lineTerminators, isLegal d = false ∧ d ≠ '.' := by
    simp [RegExp.lineTerminators, isLegal]
  simp only [RegExp.Atom.admits, decide_eq_true_eq]
  intro hterminator
  obtain ⟨hlegal, hdot⟩ := hnone c hterminator
  have hword : ∃ w ∈ subject.splitOn '.', c ∈ w := exists_mem_splitOn hc hdot
  obtain ⟨w, hw, hcw⟩ := hword
  rw [h w hw c hcw] at hlegal
  cases hlegal

theorem map_translated_cons (p q : Word) (parts : List Word) :
    (['.'].intercalate (p :: q :: parts)).map translated ++ [.finish] =
      p.map translated ++ (RegExp.literal ['.'] ++
        ((['.'].intercalate (q :: parts)).map translated ++ [.finish])) := by
  rw [List.intercalate_cons_cons]
  simp [RegExp.literal, translated]

/-- The last part `>` takes what is left of a subject. -/
theorem matchesAt_rest_iff
    (hsubject : ∀ w ∈ subject.splitOn '.', w ≠ [] ∧ ∀ c ∈ w, isLegal c = true) :
    RegExp.matchesAt ((['.'].intercalate [['>']]).map translated ++ [.finish]) false subject =
      true ↔ Matches [['>']] (subject.splitOn '.') := by
  have hmap : (['.'].intercalate [['>']]).map translated ++ [.finish] = [.many .dot, .finish] := rfl
  have hne : subject ≠ [] := by
    intro hnil
    subst hnil
    exact (hsubject [] (by simp)).1 rfl
  rw [hmap, matches_rest, RegExp.matchesAt_many]
  constructor
  · intro _
    exact ⟨rfl, List.splitOn_ne_nil '.' subject⟩
  · intro _
    exact ⟨subject, [], hne, by simp, fun c => dot_admits fun w hw => (hsubject w hw).2,
      RegExp.matchesAt_finish.mpr rfl⟩

/-- The terms for the parts of a pattern match what the parts do. -/
theorem matchesAt_iff_matches (hne : parts ≠ []) (h : WholeWildcards parts)
    (hdots : ∀ p ∈ parts, '.' ∉ p)
    (hsubject : ∀ w ∈ subject.splitOn '.', w ≠ [] ∧ ∀ c ∈ w, isLegal c = true) :
    RegExp.matchesAt ((['.'].intercalate parts).map translated ++ [.finish]) false subject = true ↔
      Matches parts (subject.splitOn '.') := by
  induction parts generalizing subject with
  | nil => exact absurd rfl hne
  | cons p parts ih =>
    have hp := List.forall_mem_cons.mp hdots
    have hpone := h.one p List.mem_cons_self
    have hpmany := h.rest p List.mem_cons_self
    by_cases hrest : p = ['>']
    · subst hrest
      have hnil : parts = [] := by
        by_contra hparts
        apply h.last
        rw [List.dropLast_cons_of_ne_nil hparts]
        exact List.mem_cons_self
      subst hnil
      exact matchesAt_rest_iff hsubject
    by_cases hdot : '.' ∈ subject
    · obtain ⟨t, rest, hsplit, ht⟩ := List.eq_append_cons_of_mem hdot
      subst hsplit
      rw [List.splitOn_append_cons_self_of_not_mem ht] at hsubject ⊢
      obtain ⟨⟨ht_ne, -⟩, hothers⟩ := List.forall_mem_cons.mp hsubject
      rw [matches_cons hrest]
      cases parts with
      | nil =>
        rw [List.intercalate_singleton, matchesAt_part_finish hrest hp.1 hpone hpmany (by simp),
          matches_nil]
        simp [List.splitOn_ne_nil]
      | cons q parts =>
        rw [map_translated_cons, matchesAt_part_dot hrest hp.1 hpone hpmany ht ht_ne,
          ih (List.cons_ne_nil q parts) h.tail hp.2 hothers]
    · rw [List.splitOn_eq_singleton hdot] at hsubject ⊢
      have hsubject_ne := (hsubject subject (List.mem_singleton.mpr rfl)).1
      rw [matches_cons hrest]
      cases parts with
      | nil =>
        rw [List.intercalate_singleton, matchesAt_part_finish hrest hp.1 hpone hpmany
          hsubject_ne, matches_nil]
        simp [hdot]
      | cons q parts =>
        rw [map_translated_cons]
        simp [not_matchesAt_part_dot hrest hp.1 hpone hpmany hdot, not_matches_nil]

theorem patternToKafkaTopicMatcher_agrees (hlength : (JsString.js pattern).length ≤ 256)
    (h : WholeWildcards (words pattern)) (htopic : IsKafkaTopic topic) :
    ∃ matcher, patternToKafkaTopicMatcher pattern = .ok matcher ∧
      matcher.matches topic = some (matchPattern pattern topic) := by
  have hlong : ¬ (JsString.js pattern).length > 256 := by omega
  unfold patternToKafkaTopicMatcher
  dsimp only
  rw [if_neg hlong]
  split
  next hliteral =>
    apply Exists.intro (.exact pattern)
    apply And.intro rfl
    rw [TopicMatcher.matches, matchPattern, if_pos hliteral]
  next hwildcard =>
    apply Exists.intro (.regExp ('^' :: escaped pattern.toList ++ ['$']))
    apply And.intro rfl
    have hpattern : ['.'].intercalate (words pattern) = pattern.toList :=
      List.intercalate_splitOn '.'
    have hmatches := matchesAt_iff_matches (List.splitOn_ne_nil '.' pattern.toList) h
      (fun p => notMem_of_mem_splitOn) htopic
    rw [← words, hpattern] at hmatches
    have htest : RegExp.test (.start :: (pattern.toList.map translated ++ [.finish])) topic.toList =
        matchPattern pattern topic := by
      rw [RegExp.test_start (start_notMem_translated _), Bool.eq_iff_iff, hmatches, matchPattern,
        if_neg hwildcard]
      exact matchParts_iff_matches.symm
    rw [TopicMatcher.matches, parse_escaped, Option.map_some, htest]

theorem patternToKafkaTopicMatcher_agrees_escaped :
    ∃ matcher, patternToKafkaTopicMatcher "a+(b).*.>" = .ok matcher ∧
      matcher.matches "a-b.c_1.d.e" = some (matchPattern "a+(b).*.>" "a-b.c_1.d.e") := by
  have htopic : words "a-b.c_1.d.e" = [['a', '-', 'b'], ['c', '_', '1'], ['d'], ['e']] := by decide
  apply patternToKafkaTopicMatcher_agrees
  · decide
  · decide
  · rw [IsKafkaTopic, htopic]
    simp [isLegal]

end Connectum.Events.Kafka
