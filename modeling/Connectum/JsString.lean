import Mathlib.Data.List.DropRight
import Mathlib.Tactic.Common

/-! Strings of the source language: lists of UTF-16 code units, not necessarily well formed. -/

abbrev JsString := List UInt16

namespace JsString

instance : LawfulBEq JsString := inferInstanceAs (LawfulBEq (List UInt16))

def codeUnits (c : Char) : JsString :=
  if c.toNat < 0x10000 then [.ofNat c.toNat]
  else
    [.ofNat (0xD800 + (c.toNat - 0x10000) / 0x400), .ofNat (0xDC00 + (c.toNat - 0x10000) % 0x400)]

/-- A string literal. -/
def js (s : String) : JsString := s.toList.flatMap codeUnits

/-- A character literal outside the surrogate pairs. -/
def unit (c : Char) : UInt16 := .ofNat c.toNat

/-- `WhiteSpace` and `LineTerminator`, which `trim`, `Number` and `parseInt` skip. -/
def isWhitespace (c : UInt16) : Bool :=
  (0x09 ≤ c && c ≤ 0x0D) || c == 0x20 || c == 0xA0 || c == 0x1680 ||
    (0x2000 ≤ c && c ≤ 0x200A) || c == 0x2028 || c == 0x2029 || c == 0x202F || c == 0x205F ||
    c == 0x3000 || c == 0xFEFF

def trim (s : JsString) : JsString := (s.dropWhile isWhitespace).rdropWhile isWhitespace

def toLower (c : UInt16) : UInt16 := if unit 'A' ≤ c ∧ c ≤ unit 'Z' then c + 0x20 else c

def isDigit (c : UInt16) : Bool := unit '0' ≤ c && c ≤ unit '9'

def isLetter (c : UInt16) : Bool := unit 'a' ≤ toLower c && toLower c ≤ unit 'z'

/-- The value of a digit in a radix of at most 36. -/
def digitValue (c : UInt16) : ℕ :=
  if isDigit c then (c - unit '0').toNat else (toLower c - unit 'a').toNat + 10

def isDigitOf (radix : ℕ) (c : UInt16) : Bool :=
  (isDigit c || isLetter c) && decide (digitValue c < radix)

def ofDigits (radix : ℕ) (digits : JsString) : ℕ :=
  digits.foldl (fun n c => radix * n + digitValue c) 0

theorem forall_mem_intercalate {P : UInt16 → Prop} {sep : JsString} {parts : List JsString}
    (hsep : ∀ c ∈ sep, P c) :
    (∀ c ∈ sep.intercalate parts, P c) ↔ ∀ part ∈ parts, ∀ c ∈ part, P c := by
  induction parts with
  | nil => simp
  | cons part parts ih =>
    cases parts with
    | nil => simp
    | cons next parts =>
      rw [List.intercalate_cons_cons, List.forall_mem_append, List.forall_mem_append, ih,
        List.forall_mem_cons (l := next :: parts), and_assoc, and_iff_right hsep]

end JsString
