import Mathlib.Data.List.Infix
import Mathlib.Tactic.Common

/-! Regular expressions of JavaScript, without flags: the fragment of single characters, escapes,
the dot, negated classes of characters, repetition by `+`, and the two anchors. A regular
expression is read from its source text; a text outside the fragment is not read. -/
namespace RegExp

inductive Atom where
  | char (c : Char)
  | dot
  | except (excluded : List Char)
  deriving DecidableEq, Repr

inductive Term where
  | start
  | finish
  | one (atom : Atom)
  | many (atom : Atom)
  deriving DecidableEq, Repr

/-- The `SyntaxCharacter`s: to stand for itself, each needs a backslash. -/
def syntaxCharacters : List Char :=
  ['^', '$', '\\', '.', '*', '+', '?', '(', ')', '[', ']', '{', '}', '|']

/-! ### Reading the source text -/

/-- The characters of a class up to its closing bracket. Escapes and ranges are not read. -/
def readClass : List Char → Option (List Char × List Char)
  | [] => none
  | c :: text =>
    if c = ']' then some ([], text)
    else if c = '\\' ∨ c = '-' then none
    else (readClass text).map (Prod.map (List.cons c) id)

def readAtom : List Char → Option (Atom × List Char)
  | [] => none
  | c :: text =>
    if c = '\\' then
      match text with
      | [] => none
      | d :: text => if d ∈ syntaxCharacters then some (.char d, text) else none
    else if c = '.' then some (.dot, text)
    else if c = '[' then
      match text with
      | [] => none
      | d :: text => if d = '^' then (readClass text).map (Prod.map .except id) else none
    else if c ∈ syntaxCharacters then none
    else some (.char c, text)

def readQuantifier (atom : Atom) (text : List Char) : Term × List Char :=
  if text.head? = some '+' then (.many atom, text.tail) else (.one atom, text)

def readTerm : List Char → Option (Term × List Char)
  | [] => none
  | c :: text =>
    if c = '^' then some (.start, text)
    else if c = '$' then some (.finish, text)
    else (readAtom (c :: text)).map fun read => readQuantifier read.1 read.2

def readTerms : ℕ → List Char → Option (List Term)
  | _, [] => some []
  | 0, _ :: _ => none
  | fuel + 1, c :: text =>
    match readTerm (c :: text) with
    | none => none
    | some (term, text) => (readTerms fuel text).map (List.cons term)

def parse (source : List Char) : Option (List Term) := readTerms source.length source

/-! ### Matching -/

def lineTerminators : List Char := ['\n', '\r', '\u2028', '\u2029']

def Atom.admits : Atom → Char → Bool
  | .char c, d => decide (c = d)
  | .dot, d => decide (d ∉ lineTerminators)
  | .except excluded, d => decide (d ∉ excluded)

/-- What can be left of the input after one or more characters. -/
def Atom.runs (atom : Atom) : List Char → List (List Char)
  | [] => []
  | c :: input => if atom.admits c then input :: atom.runs input else []

/-- Whether the terms match a prefix of the input, which is the whole subject if `atStart`. -/
def matchesAt : List Term → Bool → List Char → Bool
  | [], _, _ => true
  | .start :: terms, atStart, input => atStart && matchesAt terms atStart input
  | .finish :: terms, atStart, input => input.isEmpty && matchesAt terms atStart input
  | .one atom :: terms, _, input =>
    match input with
    | [] => false
    | c :: input => atom.admits c && matchesAt terms false input
  | .many atom :: terms, _, input => (atom.runs input).any (matchesAt terms false)

/-- `RegExp.prototype.test`: a match may begin anywhere. -/
def test (terms : List Term) (subject : List Char) : Bool :=
  matchesAt terms true subject || subject.tails.tail.any (matchesAt terms false)

example : (parse "^a\\.[^.]+$".toList).map (test · "a.bc".toList) = some true := by decide

/-! ### Writing the source text -/

def Atom.source : Atom → List Char
  | .char c => if c ∈ syntaxCharacters then ['\\', c] else [c]
  | .dot => ['.']
  | .except excluded => '[' :: '^' :: (excluded ++ [']'])

def Term.source : Term → List Char
  | .start => ['^']
  | .finish => ['$']
  | .one atom => atom.source
  | .many atom => atom.source ++ ['+']

def source (terms : List Term) : List Char := terms.flatMap Term.source

/-- The class of the atom, if it is one, is of characters that are read as themselves. -/
def Atom.Plain : Atom → Prop
  | .except excluded => ∀ c ∈ excluded, c ≠ ']' ∧ c ≠ '\\' ∧ c ≠ '-'
  | _ => True

def Term.Plain : Term → Prop
  | .one atom => atom.Plain
  | .many atom => atom.Plain
  | _ => True

variable {atom : Atom} {term : Term} {terms : List Term} {text input : List Char} {c : Char}

theorem readClass_append {excluded : List Char}
    (h : ∀ c ∈ excluded, c ≠ ']' ∧ c ≠ '\\' ∧ c ≠ '-') :
    readClass (excluded ++ ']' :: text) = some (excluded, text) := by
  induction excluded with
  | nil => simp [readClass]
  | cons c excluded ih =>
    rw [List.forall_mem_cons] at h
    simp [readClass, h.1, ih h.2]

theorem readAtom_source (h : atom.Plain) : readAtom (atom.source ++ text) = some (atom, text) := by
  cases atom with
  | char c =>
    unfold Atom.source
    by_cases hc : c ∈ syntaxCharacters
    · simp [hc, readAtom]
    · have hplain : c ≠ '\\' ∧ c ≠ '.' ∧ c ≠ '[' := by
        refine ⟨?_, ?_, ?_⟩ <;> intro heq <;> subst heq <;> exact hc (by decide)
      simp [hc, readAtom, hplain]
  | dot => simp [Atom.source, readAtom]
  | except excluded =>
    have hclass : readClass (excluded ++ ']' :: text) = some (excluded, text) :=
      readClass_append h
    simp [Atom.source, readAtom, hclass]

/-- No atom begins with an anchor or a quantifier. -/
theorem head_source (atom : Atom) : ∃ c text, atom.source = c :: text ∧
    c ≠ '^' ∧ c ≠ '$' ∧ c ≠ '+' := by
  cases atom with
  | char c =>
    by_cases hc : c ∈ syntaxCharacters
    · exact ⟨'\\', [c], if_pos hc, by decide, by decide, by decide⟩
    · refine ⟨c, [], if_neg hc, ?_, ?_, ?_⟩ <;> intro heq <;> subst heq <;> exact hc (by decide)
  | dot => exact ⟨'.', [], rfl, by decide, by decide, by decide⟩
  | except excluded => exact ⟨'[', _, rfl, by decide, by decide, by decide⟩

theorem head?_source_ne (terms : List Term) : (source terms).head? ≠ some '+' := by
  cases terms with
  | nil => simp [source]
  | cons term terms =>
    have happend : source (term :: terms) = term.source ++ source terms := rfl
    rw [happend]
    cases term with
    | start => simp [Term.source]
    | finish => simp [Term.source]
    | one atom =>
      obtain ⟨c, text, heq, -, -, hc⟩ := head_source atom
      simp [Term.source, heq, hc]
    | many atom =>
      obtain ⟨c, text, heq, -, -, hc⟩ := head_source atom
      simp [Term.source, heq, hc]

theorem readTerm_source (hplain : term.Plain) (htext : text.head? ≠ some '+') :
    readTerm (term.source ++ text) = some (term, text) := by
  cases term with
  | start => simp [Term.source, readTerm]
  | finish => simp [Term.source, readTerm]
  | one atom =>
    obtain ⟨c, rest, heq, hstart, hfinish, -⟩ := head_source atom
    have hread : readAtom (c :: rest ++ text) = some (atom, text) := by
      rw [← heq]
      exact readAtom_source hplain
    rw [List.cons_append] at hread
    simp [Term.source, heq, readTerm, hstart, hfinish, hread, readQuantifier, htext]
  | many atom =>
    obtain ⟨c, rest, heq, hstart, hfinish, -⟩ := head_source atom
    have hread : readAtom (c :: rest ++ '+' :: text) = some (atom, '+' :: text) := by
      rw [← heq]
      exact readAtom_source hplain
    rw [List.cons_append] at hread
    simp [Term.source, heq, readTerm, hstart, hfinish, hread, readQuantifier]

theorem length_source_pos (term : Term) : 0 < term.source.length := by
  cases term with
  | start => decide
  | finish => decide
  | one atom =>
    obtain ⟨c, text, heq, -⟩ := head_source atom
    simp [Term.source, heq]
  | many atom => simp [Term.source]

theorem readTerms_source (hplain : ∀ term ∈ terms, term.Plain) {fuel : ℕ}
    (hfuel : (source terms).length ≤ fuel) : readTerms fuel (source terms) = some terms := by
  induction terms generalizing fuel with
  | nil => unfold source; cases fuel <;> rfl
  | cons term terms ih =>
    rw [List.forall_mem_cons] at hplain
    have happend : source (term :: terms) = term.source ++ source terms := rfl
    have hread := readTerm_source hplain.1 (head?_source_ne terms)
    have hpos := length_source_pos term
    rw [happend, List.length_append] at hfuel
    rw [happend]
    cases hsource : term.source ++ source terms with
    | nil =>
      have hlength := congrArg List.length hsource
      rw [List.length_append, List.length_nil] at hlength
      omega
    | cons c text =>
      cases fuel with
      | zero => omega
      | succ fuel =>
        rw [hsource] at hread
        rw [readTerms, hread]
        dsimp only
        rw [ih hplain.2 (by omega)]
        rfl

/-- A regular expression is read back from its source text. -/
theorem parse_source (hplain : ∀ term ∈ terms, term.Plain) :
    parse (source terms) = some terms := readTerms_source hplain le_rfl

/-! ### What the terms match -/

/-- Only the anchor asks where the subject begins. -/
theorem matchesAt_start (h : .start ∉ terms) (first second : Bool) :
    matchesAt terms first input = matchesAt terms second input := by
  induction terms generalizing input with
  | nil => rfl
  | cons term terms ih =>
    rw [List.mem_cons, not_or] at h
    cases term with
    | start => exact absurd rfl h.1
    | finish => simp [matchesAt, ih h.2]
    | one atom => rfl
    | many atom => rfl

/-- With the anchor in front a match begins at the start of the subject. -/
theorem test_start (h : .start ∉ terms) :
    test (.start :: terms) input = matchesAt terms false input := by
  have hfalse : input.tails.tail.any (matchesAt (.start :: terms) false) = false := by
    simp [matchesAt]
  rw [test, hfalse, Bool.or_false, matchesAt, Bool.true_and]
  exact matchesAt_start h true false

theorem mem_runs {rest : List Char} : rest ∈ atom.runs input ↔
    ∃ run, run ≠ [] ∧ input = run ++ rest ∧ ∀ c ∈ run, atom.admits c = true := by
  induction input with
  | nil =>
    simp only [Atom.runs, List.not_mem_nil, false_iff]
    intro ⟨run, hne, heq, _⟩
    exact hne (List.append_eq_nil_iff.mp heq.symm).1
  | cons c input ih =>
    unfold Atom.runs
    constructor
    · intro hmem
      split at hmem
      next hadmits =>
        rcases List.mem_cons.mp hmem with hrest | hmem
        · subst hrest
          exact ⟨[c], by simp, rfl, by simpa using hadmits⟩
        · obtain ⟨run, -, heq, hrun⟩ := ih.mp hmem
          exact ⟨c :: run, by simp, by rw [heq]; rfl, List.forall_mem_cons.mpr ⟨hadmits, hrun⟩⟩
      next => exact absurd hmem List.not_mem_nil
    · intro ⟨run, hne, heq, hrun⟩
      cases run with
      | nil => exact absurd rfl hne
      | cons d run =>
        obtain ⟨hd, htail⟩ := List.cons.inj heq
        subst hd
        rw [List.forall_mem_cons] at hrun
        rw [if_pos hrun.1]
        cases run with
        | nil => exact List.mem_cons.mpr (.inl htail.symm)
        | cons e run =>
          exact List.mem_cons_of_mem _ (ih.mpr ⟨e :: run, by simp, htail, hrun.2⟩)

theorem matchesAt_many : matchesAt (.many atom :: terms) false input = true ↔
    ∃ run rest, run ≠ [] ∧ input = run ++ rest ∧ (∀ c ∈ run, atom.admits c = true) ∧
      matchesAt terms false rest = true := by
  rw [matchesAt, List.any_eq_true]
  constructor
  · intro ⟨rest, hrest, hmatch⟩
    obtain ⟨run, hne, heq, hrun⟩ := mem_runs.mp hrest
    exact ⟨run, rest, hne, heq, hrun, hmatch⟩
  · intro ⟨run, rest, hne, heq, hrun, hmatch⟩
    exact ⟨rest, mem_runs.mpr ⟨run, hne, heq, hrun⟩, hmatch⟩

def literal (text : List Char) : List Term := text.map fun c => .one (.char c)

theorem matchesAt_literal : matchesAt (literal text ++ terms) false input = true ↔
    ∃ rest, input = text ++ rest ∧ matchesAt terms false rest = true := by
  induction text generalizing input with
  | nil => simp [literal]
  | cons c text ih =>
    have hcons : literal (c :: text) ++ terms = .one (.char c) :: (literal text ++ terms) := rfl
    rw [hcons]
    cases input with
    | nil => simp [matchesAt]
    | cons d input =>
      rw [matchesAt, Bool.and_eq_true, ih, Atom.admits, decide_eq_true_iff]
      constructor
      · intro ⟨hc, rest, heq, hmatch⟩
        exact ⟨rest, by rw [hc, heq]; rfl, hmatch⟩
      · intro ⟨rest, heq, hmatch⟩
        obtain ⟨hc, heq⟩ := List.cons.inj heq
        exact ⟨hc.symm, rest, heq, hmatch⟩

@[simp] theorem matchesAt_finish : matchesAt [.finish] false input = true ↔ input = [] := by
  simp [matchesAt]

end RegExp
