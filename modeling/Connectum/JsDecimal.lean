import Connectum.JsNumber

/-! Decimal numerals, and what `Number` and `parseInt` read from them. -/
namespace JsString

/-- The decimal text of a natural number. -/
def decimal (n : ℕ) : JsString := (Nat.toDigits 10 n).map unit

variable {n : ℕ} {c : UInt16} {s : JsString}

theorem isDigit_iff : isDigit c = true ↔ 48 ≤ c.toNat ∧ c.toNat ≤ 57 := by
  simp [isDigit, unit, UInt16.le_iff_toNat_le]

theorem digitValue_of_isDigit (hc : isDigit c = true) : digitValue c = c.toNat - 48 := by
  have hle : unit '0' ≤ c := UInt16.le_iff_toNat_le.mpr (isDigit_iff.mp hc).1
  rw [digitValue, if_pos hc, UInt16.toNat_sub_of_le _ _ hle]
  rfl

theorem toNat_unit {d : Char} (hd : d.isDigit = true) : (unit d).toNat = d.toNat := by
  rw [unit, UInt16.toNat_ofNat_of_lt']
  exact (Char.isDigit_iff_toNat.mp hd).2.trans_lt (by decide)

theorem isDigit_unit {d : Char} (hd : d.isDigit = true) : isDigit (unit d) = true := by
  rw [isDigit_iff, toNat_unit hd]
  exact Char.isDigit_iff_toNat.mp hd

theorem isDigit_of_mem_decimal (hc : c ∈ decimal n) : isDigit c = true := by
  obtain ⟨d, hd, rfl⟩ := List.mem_map.mp hc
  exact isDigit_unit (Nat.isDigit_of_mem_toDigits (by omega) (by omega) hd)

theorem decimal_ne_nil : decimal n ≠ [] := by
  simp [decimal, Nat.toDigits_ne_nil]

theorem ofDigits_map_unit {digits : List Char} {m : ℕ} (hdigits : ∀ d ∈ digits, d.isDigit = true) :
    (digits.map unit).foldl (fun n c => 10 * n + digitValue c) m =
      Nat.ofDigitChars 10 digits m := by
  induction digits generalizing m with
  | nil => simp
  | cons d digits ih =>
    have hd := hdigits d List.mem_cons_self
    rw [List.map_cons, List.foldl_cons, digitValue_of_isDigit (isDigit_unit hd), toNat_unit hd,
      ih fun d hd => hdigits d (List.mem_cons_of_mem _ hd), Nat.ofDigitChars_cons]
    rfl

theorem ofDigits_decimal (n : ℕ) : ofDigits 10 (decimal n) = n := by
  rw [ofDigits, decimal, ofDigits_map_unit, Nat.ofDigitChars_ten_toDigits]
  exact fun d hd => Nat.isDigit_of_mem_toDigits (by omega) (by omega) hd

/-- A decimal numeral, possibly with leading zeros. -/
structure IsNumeral (s : JsString) (n : ℕ) : Prop where
  nonempty : s ≠ []
  digits : ∀ c ∈ s, isDigit c = true
  value : ofDigits 10 s = n

theorem isNumeral_decimal (n : ℕ) : IsNumeral (decimal n) n :=
  ⟨decimal_ne_nil, fun _ => isDigit_of_mem_decimal, ofDigits_decimal n⟩

theorem isWhitespace_of_isDigit (hc : isDigit c = true) : isWhitespace c = false := by
  obtain ⟨hlow, hhigh⟩ := isDigit_iff.mp hc
  simp [isWhitespace, UInt16.le_iff_toNat_le, ← UInt16.toNat_inj]
  omega

/-- Digits at the start are no whitespace to skip. -/
theorem IsNumeral.dropWhile (h : IsNumeral s n) : s.dropWhile isWhitespace = s := by
  cases s with
  | nil => rfl
  | cons c s =>
    have hc := isWhitespace_of_isDigit (h.digits c List.mem_cons_self)
    exact List.dropWhile_cons_of_neg (by simp [hc])

theorem IsNumeral.trim (h : IsNumeral s n) : s.trim = s := by
  rw [JsString.trim, h.dropWhile, List.rdropWhile_eq_self_iff]
  intro hne
  simp [isWhitespace_of_isDigit (h.digits _ (List.getLast_mem hne))]

end JsString

namespace JsNumber
open JsString
variable {n : ℕ} {s : JsString}

theorem takeSign_of_isDigit (hs : ∀ c ∈ s, isDigit c = true) : takeSign s = (false, s) := by
  cases s with
  | nil => rfl
  | cons c s =>
    have hc := hs c List.mem_cons_self
    rw [takeSign, if_neg, if_neg]
    · rintro rfl
      exact absurd hc (by decide)
    · rintro rfl
      exact absurd hc (by decide)

theorem parseInt_numeral (h : IsNumeral s n) : parseInt s = some (n : ℤ) := by
  have htake : s.takeWhile isDigit = s := List.takeWhile_eq_self_iff.mpr h.digits
  rw [parseInt, h.dropWhile, takeSign_of_isDigit h.digits]
  dsimp only
  rw [htake, if_neg h.nonempty, h.value, if_neg Bool.false_ne_true]

theorem radixLiteral_numeral (h : IsNumeral s n) : radixLiteral s = none := by
  match s, h with
  | [], _ => rfl
  | [_], _ => rfl
  | c :: d :: s, h =>
    have hd := h.digits d (List.mem_cons_of_mem _ List.mem_cons_self)
    have hlower : isDigit (toLower d) = true := by
      rw [toLower, if_neg]
      · exact hd
      · rintro ⟨hle, -⟩
        have hle := UInt16.le_iff_toNat_le.mp hle
        have hhigh := (isDigit_iff.mp hd).2
        exact absurd (hle.trans hhigh) (by decide)
    have hne {r : Char} (hr : isDigit (unit r) = false) : toLower d ≠ unit r := by
      intro heq
      rw [heq, hr] at hlower
      cases hlower
    rw [radixLiteral, if_neg (hne (by decide)), if_neg (hne (by decide)), if_neg (hne (by decide))]
    exact ite_self none

theorem decimalLiteral_numeral (h : IsNumeral s n) : decimalLiteral s = some (n : ℚ) := by
  have hspan : s.span isDigit = (s, []) := by
    rw [List.span_eq_takeWhile_dropWhile, List.takeWhile_eq_self_iff.mpr h.digits,
      List.dropWhile_eq_nil_iff.mpr h.digits]
  rw [decimalLiteral, hspan]
  simp [h.nonempty, exponentPart, h.value]

theorem number_numeral (h : IsNumeral s n) (hn : n ≤ 2 ^ 53) : number s = .finite n := by
  have hinfinity : s ≠ js "Infinity" := by
    rintro rfl
    exact absurd (h.digits (unit 'I') (by decide)) (by decide)
  rw [number, h.trim]
  dsimp only
  rw [if_neg h.nonempty, radixLiteral_numeral h]
  dsimp only
  rw [takeSign_of_isDigit h.digits]
  dsimp only
  rw [if_neg hinfinity, decimalLiteral_numeral h]
  exact ofRat_natCast hn

end JsNumber
