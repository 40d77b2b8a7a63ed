import Mathlib.Data.List.Basic
import Mathlib.Data.List.Infix
import Mathlib.Tactic.Common

/-! Patterns over lists of words: a given word, any one word, or any number of words. -/
namespace WordPattern

inductive Token (W : Type*) where
  | word (w : W)
  | any
  | many
  deriving DecidableEq, Repr

variable {W : Type*} [DecidableEq W]

def accepts : List (Token W) → List W → Bool
  | [], words => words.isEmpty
  | .word w :: pattern, words =>
    match words with
    | [] => false
    | v :: words => decide (w = v) && accepts pattern words
  | .any :: pattern, words =>
    match words with
    | [] => false
    | _ :: words => accepts pattern words
  | .many :: pattern, words => words.tails.any (accepts pattern)

variable {pattern other : List (Token W)} {words : List W} {v w : W}

@[simp] theorem accepts_nil : accepts ([] : List (Token W)) words = true ↔ words = [] := by
  simp [accepts]

@[simp] theorem accepts_word : accepts (.word w :: pattern) words = true ↔
    ∃ rest, words = w :: rest ∧ accepts pattern rest = true := by
  cases words with
  | nil => simp [accepts]
  | cons v words =>
    simp only [accepts, Bool.and_eq_true, decide_eq_true_eq, List.cons.injEq]
    constructor
    · rintro ⟨rfl, h⟩
      exact ⟨words, ⟨rfl, rfl⟩, h⟩
    · rintro ⟨_, ⟨rfl, rfl⟩, h⟩
      exact ⟨rfl, h⟩

@[simp] theorem accepts_any : accepts (.any :: pattern) words = true ↔
    ∃ v rest, words = v :: rest ∧ accepts pattern rest = true := by
  cases words with
  | nil => simp [accepts]
  | cons v words => simp [accepts]

@[simp] theorem accepts_many : accepts (.many :: pattern) words = true ↔
    ∃ rest, rest <:+ words ∧ accepts pattern rest = true := by
  simp [accepts, List.any_eq_true]

/-- A trailing `many` accepts whatever is left. -/
theorem accepts_rest : accepts [(.many : Token W)] words = true := by
  rw [accepts_many]
  exact ⟨[], List.nil_suffix, accepts_nil.mpr rfl⟩

theorem accepts_literal {expected : List W} :
    accepts (expected.map .word) words = true ↔ words = expected := by
  induction expected generalizing words with
  | nil => simp
  | cons w expected ih => simp [ih]

theorem accepts_append : accepts (pattern ++ other) words = true ↔
    ∃ first rest, words = first ++ rest ∧ accepts pattern first = true ∧
      accepts other rest = true := by
  induction pattern generalizing words with
  | nil => simp
  | cons token pattern ih =>
    cases token with
    | word w =>
      simp only [List.cons_append, accepts_word, ih]
      constructor
      · rintro ⟨_, rfl, first, rest, rfl, hfirst, hrest⟩
        exact ⟨w :: first, rest, rfl, ⟨first, rfl, hfirst⟩, hrest⟩
      · rintro ⟨_, rest, rfl, ⟨first, rfl, hfirst⟩, hrest⟩
        exact ⟨first ++ rest, rfl, first, rest, rfl, hfirst, hrest⟩
    | any =>
      simp only [List.cons_append, accepts_any, ih]
      constructor
      · rintro ⟨v, _, rfl, first, rest, rfl, hfirst, hrest⟩
        exact ⟨v :: first, rest, rfl, ⟨v, first, rfl, hfirst⟩, hrest⟩
      · rintro ⟨_, rest, rfl, ⟨v, first, rfl, hfirst⟩, hrest⟩
        exact ⟨v, first ++ rest, rfl, first, rest, rfl, hfirst, hrest⟩
    | many =>
      simp only [List.cons_append, accepts_many, ih]
      constructor
      · rintro ⟨_, ⟨skipped, rfl⟩, first, rest, rfl, hfirst, hrest⟩
        exact ⟨skipped ++ first, rest, by simp, ⟨first, ⟨skipped, rfl⟩, hfirst⟩, hrest⟩
      · rintro ⟨_, rest, rfl, ⟨first, ⟨skipped, rfl⟩, hfirst⟩, hrest⟩
        exact ⟨first ++ rest, ⟨skipped, by simp⟩, first, rest, rfl, hfirst, hrest⟩

/-- A word of the pattern is among the words. -/
theorem mem_of_accepts (h : accepts pattern words = true) (hw : .word w ∈ pattern) :
    w ∈ words := by
  induction pattern generalizing words with
  | nil => exact absurd hw List.not_mem_nil
  | cons token pattern ih =>
    cases token with
    | word v =>
      obtain ⟨rest, rfl, hrest⟩ := accepts_word.mp h
      rcases List.mem_cons.mp hw with heq | hw
      · exact Token.word.inj heq ▸ List.mem_cons_self
      · exact List.mem_cons_of_mem v (ih hrest hw)
    | any =>
      obtain ⟨v, rest, rfl, hrest⟩ := accepts_any.mp h
      exact List.mem_cons_of_mem v (ih hrest (List.mem_of_ne_of_mem (by simp) hw))
    | many =>
      obtain ⟨rest, hsuffix, hrest⟩ := accepts_many.mp h
      exact hsuffix.subset (ih hrest (List.mem_of_ne_of_mem (by simp) hw))

/-- The first token of `pattern` takes a word that is `wanted`, if one is, and `next` goes on. -/
def consume (wanted : Option W) (next : List (Token W) → Bool) : List (Token W) → Bool
  | [] => false
  | .word v :: pattern => wanted.all (fun w => decide (w = v)) && next pattern
  | .any :: pattern => next pattern
  | .many :: pattern => consume wanted next pattern || next (.many :: pattern)

/-- Whether two patterns accept a common list of words. -/
def overlap : List (Token W) → List (Token W) → Bool
  | [], other => other.all fun token => decide (token = .many)
  | .word w :: pattern, other => consume (some w) (overlap pattern) other
  | .any :: pattern, other => consume none (overlap pattern) other
  | .many :: pattern, other => other.tails.any (overlap pattern)

theorem accepts_empty_iff :
    accepts pattern ([] : List W) = true ↔ ∀ token ∈ pattern, token = .many := by
  induction pattern with
  | nil => simp
  | cons token pattern ih => cases token <;> simp [ih]

/-- A suffix of the words is accepted by a suffix of the pattern. -/
theorem exists_suffix_accepts {skipped : List W} (h : accepts pattern (skipped ++ words) = true) :
    ∃ rest, rest <:+ pattern ∧ accepts rest words = true := by
  induction pattern generalizing skipped with
  | nil =>
    obtain ⟨-, rfl⟩ := List.append_eq_nil_iff.mp (accepts_nil.mp h)
    exact ⟨[], List.nil_suffix, accepts_nil.mpr rfl⟩
  | cons token pattern ih =>
    cases skipped with
    | nil => exact ⟨_, List.suffix_rfl, h⟩
    | cons v skipped =>
      have hcons : ∀ rest, rest <:+ pattern → rest <:+ token :: pattern :=
        fun rest hrest => hrest.trans (List.suffix_cons _ _)
      cases token with
      | word w =>
        obtain ⟨rest, heq, hrest⟩ := accepts_word.mp h
        obtain ⟨-, rfl⟩ := List.cons.inj heq
        exact (ih hrest).imp fun rest => And.imp_left (hcons rest)
      | any =>
        obtain ⟨w, rest, heq, hrest⟩ := accepts_any.mp h
        obtain ⟨-, rfl⟩ := List.cons.inj heq
        exact (ih hrest).imp fun rest => And.imp_left (hcons rest)
      | many =>
        obtain ⟨rest, hsuffix, hrest⟩ := accepts_many.mp h
        rcases List.suffix_or_suffix_of_suffix hsuffix
          (List.suffix_append (v :: skipped) words) with hshort | ⟨more, rfl⟩
        · exact ⟨_, List.suffix_rfl, accepts_many.mpr ⟨rest, hshort, hrest⟩⟩
        · exact (ih hrest).imp fun rest => And.imp_left (hcons rest)

variable {Good : W → Prop}

/-- The words of a pattern are good. -/
def Literals (Good : W → Prop) (pattern : List (Token W)) : Prop :=
  ∀ w, .word w ∈ pattern → Good w

omit [DecidableEq W] in
theorem Literals.of_suffix (h : Literals Good pattern) (hsuffix : other <:+ pattern) :
    Literals Good other := fun w hw => h w (hsuffix.subset hw)

omit [DecidableEq W] in
theorem Literals.tail {token : Token W} (h : Literals Good (token :: pattern)) :
    Literals Good pattern := h.of_suffix (List.suffix_cons _ _)

/-- Every pattern accepts some list of good words. -/
theorem exists_accepted (hgood : Good v) (h : Literals Good pattern) :
    ∃ words, (∀ w ∈ words, Good w) ∧ accepts pattern words = true := by
  induction pattern with
  | nil => exact ⟨[], by simp, accepts_nil.mpr rfl⟩
  | cons token pattern ih =>
    obtain ⟨words, hwords, haccepts⟩ := ih h.tail
    cases token with
    | word w =>
      exact ⟨w :: words, List.forall_mem_cons.mpr ⟨h w List.mem_cons_self, hwords⟩,
        accepts_word.mpr ⟨words, rfl, haccepts⟩⟩
    | any =>
      exact ⟨v :: words, List.forall_mem_cons.mpr ⟨hgood, hwords⟩,
        accepts_any.mpr ⟨v, words, rfl, haccepts⟩⟩
    | many => exact ⟨words, hwords, accepts_many.mpr ⟨words, List.suffix_rfl, haccepts⟩⟩

theorem consume_sound {wanted : Option W} {next : List (Token W) → Bool} {P : List W → Prop}
    (hgood : Good v) (hwanted : ∀ w ∈ wanted, Good w) (hliterals : Literals Good pattern)
    (hnext : ∀ pattern, Literals Good pattern → next pattern = true →
      ∃ rest, accepts pattern rest = true ∧ P rest)
    (h : consume wanted next pattern = true) :
    ∃ w rest, Good w ∧ (∀ w' ∈ wanted, w' = w) ∧ accepts pattern (w :: rest) = true ∧ P rest := by
  have hword : Good (wanted.getD v) ∧ ∀ w' ∈ wanted, w' = wanted.getD v := by
    cases wanted with
    | none => exact ⟨hgood, by simp⟩
    | some w => exact ⟨hwanted w rfl, by simp⟩
  induction pattern with
  | nil => simp [consume] at h
  | cons token pattern ih =>
    cases token with
    | word w =>
      obtain ⟨hw, hrest⟩ := Bool.and_eq_true_iff.mp h
      obtain ⟨rest, haccepts, hP⟩ := hnext pattern hliterals.tail hrest
      refine ⟨w, rest, hliterals w List.mem_cons_self, ?_, accepts_word.mpr ⟨rest, rfl, haccepts⟩,
        hP⟩
      simpa [Option.all_eq_true] using hw
    | any =>
      obtain ⟨rest, haccepts, hP⟩ := hnext pattern hliterals.tail h
      exact ⟨_, rest, hword.1, hword.2, accepts_any.mpr ⟨_, rest, rfl, haccepts⟩, hP⟩
    | many =>
      rcases Bool.or_eq_true_iff.mp h with h | h
      · obtain ⟨w, rest, hw, hwanted', haccepts, hP⟩ := ih hliterals.tail h
        exact ⟨w, rest, hw, hwanted', accepts_many.mpr ⟨_, List.suffix_rfl, haccepts⟩, hP⟩
      · obtain ⟨rest, haccepts, hP⟩ := hnext _ hliterals h
        obtain ⟨last, hlast, haccepts⟩ := accepts_many.mp haccepts
        exact ⟨_, rest, hword.1, hword.2,
          accepts_many.mpr ⟨last, hlast.trans (List.suffix_cons _ _), haccepts⟩, hP⟩

theorem consume_complete {wanted : Option W} {next : List (Token W) → Bool}
    (hwanted : ∀ w ∈ wanted, w = v) (haccepts : accepts pattern (v :: words) = true)
    (hnext : ∀ pattern, accepts pattern words = true → next pattern = true) :
    consume wanted next pattern = true := by
  induction pattern with
  | nil => simp at haccepts
  | cons token pattern ih =>
    cases token with
    | word w =>
      obtain ⟨rest, heq, hrest⟩ := accepts_word.mp haccepts
      obtain ⟨rfl, rfl⟩ := List.cons.inj heq
      refine Bool.and_eq_true_iff.mpr ⟨?_, hnext _ hrest⟩
      simpa [Option.all_eq_true] using hwanted
    | any =>
      obtain ⟨w, rest, heq, hrest⟩ := accepts_any.mp haccepts
      obtain ⟨-, rfl⟩ := List.cons.inj heq
      exact hnext _ hrest
    | many =>
      obtain ⟨rest, hsuffix, hrest⟩ := accepts_many.mp haccepts
      rcases List.suffix_cons_iff.mp hsuffix with rfl | hsuffix
      · exact Bool.or_eq_true_iff.mpr (.inl (ih hrest))
      · exact Bool.or_eq_true_iff.mpr
          (.inr (hnext _ (accepts_many.mpr ⟨rest, hsuffix, hrest⟩)))

theorem overlap_sound (hgood : Good v) (hpattern : Literals Good pattern)
    (hother : Literals Good other) (h : overlap pattern other = true) :
    ∃ words, accepts other words = true ∧ (∀ w ∈ words, Good w) ∧
      accepts pattern words = true := by
  induction pattern generalizing other with
  | nil =>
    refine ⟨[], accepts_empty_iff.mpr fun token htoken => ?_, by simp, accepts_nil.mpr rfl⟩
    simpa using List.all_eq_true.mp h token htoken
  | cons token pattern ih =>
    cases token with
    | word w =>
      obtain ⟨v, rest, hv, hwanted, haccepts, hrest, hpattern'⟩ :=
        consume_sound hgood (by simpa using hpattern w List.mem_cons_self) hother
          (fun _ => ih hpattern.tail) h
      obtain rfl := hwanted w rfl
      exact ⟨w :: rest, haccepts, List.forall_mem_cons.mpr ⟨hv, hrest⟩,
        accepts_word.mpr ⟨rest, rfl, hpattern'⟩⟩
    | any =>
      obtain ⟨v, rest, hv, -, haccepts, hrest, hpattern'⟩ :=
        consume_sound hgood (by simp) hother (fun _ => ih hpattern.tail) h
      exact ⟨v :: rest, haccepts, List.forall_mem_cons.mpr ⟨hv, hrest⟩,
        accepts_any.mpr ⟨v, rest, rfl, hpattern'⟩⟩
    | many =>
      obtain ⟨last, hlast, hoverlap⟩ := List.any_eq_true.mp h
      obtain ⟨first, rfl⟩ := (List.mem_tails _ _).mp hlast
      obtain ⟨words, haccepts, hwords, hpattern'⟩ :=
        ih hpattern.tail (hother.of_suffix (List.suffix_append _ _)) hoverlap
      have hliterals : Literals Good first := fun w hw => hother w (List.mem_append_left _ hw)
      obtain ⟨skipped, hskipped, hfirst⟩ := exists_accepted hgood hliterals
      exact ⟨skipped ++ words, accepts_append.mpr ⟨skipped, words, rfl, hfirst, haccepts⟩,
        List.forall_mem_append.mpr ⟨hskipped, hwords⟩,
        accepts_many.mpr ⟨words, List.suffix_append _ _, hpattern'⟩⟩

theorem overlap_complete (hpattern : accepts pattern words = true)
    (hother : accepts other words = true) : overlap pattern other = true := by
  induction pattern generalizing other words with
  | nil =>
    obtain rfl := accepts_nil.mp hpattern
    simpa [overlap] using accepts_empty_iff.mp hother
  | cons token pattern ih =>
    cases token with
    | word w =>
      obtain ⟨rest, rfl, hrest⟩ := accepts_word.mp hpattern
      exact consume_complete (by simp) hother fun _ => ih hrest
    | any =>
      obtain ⟨v, rest, rfl, hrest⟩ := accepts_any.mp hpattern
      exact consume_complete (by simp) hother fun _ => ih hrest
    | many =>
      obtain ⟨rest, ⟨skipped, rfl⟩, hrest⟩ := accepts_many.mp hpattern
      obtain ⟨last, hlast, haccepts⟩ := exists_suffix_accepts hother
      exact List.any_eq_true.mpr ⟨last, (List.mem_tails _ _).mpr hlast, ih hrest haccepts⟩

/-- Two patterns overlap if and only if some good words are accepted by both. -/
theorem overlap_iff (hgood : Good v) (hpattern : Literals Good pattern)
    (hother : Literals Good other) :
    overlap pattern other = true ↔ ∃ words, (∀ w ∈ words, Good w) ∧
      accepts pattern words = true ∧ accepts other words = true := by
  constructor
  · intro h
    obtain ⟨words, haccepts, hwords, hpattern'⟩ := overlap_sound hgood hpattern hother h
    exact ⟨words, hwords, hpattern', haccepts⟩
  · rintro ⟨words, -, hpattern', haccepts⟩
    exact overlap_complete hpattern' haccepts

end WordPattern
