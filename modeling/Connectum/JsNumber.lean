import Connectum.JsString
import Mathlib.Data.Int.Log
import Mathlib.Data.Rat.Floor
import Mathlib.Tactic.Linarith

/-! Numbers of the source language, as far as `Number`, `parseInt` and the 32-bit operators
show them: a finite double is its exact value, and the sign of zero is not kept. -/

inductive JsNumber where
  | nan
  | infinite (negative : Bool)
  | finite (value : ℚ)
  deriving DecidableEq, Repr

namespace JsNumber
open JsString

def roundHalfEven (q : ℚ) : ℤ :=
  if q - ⌊q⌋ < 1 / 2 ∨ (q - ⌊q⌋ = 1 / 2 ∧ ⌊q⌋ % 2 = 0) then ⌊q⌋ else ⌊q⌋ + 1

/-- The double nearest to an exact value. -/
def ofRat (q : ℚ) : JsNumber :=
  let ulp : ℚ := 2 ^ max (Int.log 2 |q| - 52) (-1074)
  let nearest := roundHalfEven (q / ulp) * ulp
  if |nearest| < 2 ^ 1024 then .finite nearest else .infinite (decide (q < 0))

theorem floor_le_roundHalfEven (q : ℚ) : ⌊q⌋ ≤ roundHalfEven q := by
  unfold roundHalfEven
  split
  · exact Int.le_refl ⌊q⌋
  · omega

theorem roundHalfEven_intCast (z : ℤ) : roundHalfEven (z : ℚ) = z := by
  unfold roundHalfEven
  rw [Int.floor_intCast, sub_self, if_pos (.inl (by norm_num))]

/-- The multiples of the unit in the last place are doubles. -/
theorem ofRat_of_multiple {q : ℚ} {z : ℤ}
    (h : q = z * 2 ^ max (Int.log 2 |q| - 52) (-1074)) (hlt : |q| < 2 ^ 1024) :
    ofRat q = .finite q := by
  have hdiv : q / 2 ^ max (Int.log 2 |q| - 52) (-1074) = z :=
    (div_eq_iff (zpow_ne_zero _ (by norm_num))).mpr h
  unfold ofRat
  dsimp only
  rw [hdiv, roundHalfEven_intCast, ← h, if_pos hlt]

theorem ofRat_natCast {n : ℕ} (hn : n ≤ 2 ^ 53) : ofRat n = .finite n := by
  have hlog : Int.log 2 |(n : ℚ)| = Nat.log 2 n := by rw [Nat.abs_cast, Int.log_natCast]
  have hlt : |(n : ℚ)| < 2 ^ 1024 := by
    rw [Nat.abs_cast]
    exact_mod_cast lt_of_le_of_lt hn (Nat.pow_lt_pow_right (by omega) (by omega))
  have hmax : max ((Nat.log 2 n : ℤ) - 52) (-1074) = (Nat.log 2 n : ℤ) - 52 := by omega
  rcases hn.eq_or_lt with rfl | hsmall
  · apply ofRat_of_multiple (z := 2 ^ 52) _ hlt
    rw [hlog, hmax, Nat.log_pow (by norm_num)]
    norm_num
  · have hle : Nat.log 2 n ≤ 52 := Nat.le_of_lt_succ (Nat.log_lt_of_lt_pow' (by omega) hsmall)
    apply ofRat_of_multiple (z := n * 2 ^ (52 - Nat.log 2 n)) _ hlt
    rw [hlog, hmax]
    push_cast
    rw [mul_assoc, ← zpow_natCast, ← zpow_add₀ (by norm_num), Nat.cast_sub hle]
    norm_num

/-- The value of a double. -/
def ofBits (bits : UInt64) : JsNumber :=
  let exponent : ℕ := (bits.toNat / 2 ^ 52) % 2 ^ 11
  let fraction : ℕ := bits.toNat % 2 ^ 52
  let sign : ℚ := if bits.toNat < 2 ^ 63 then 1 else -1
  if exponent = 2 ^ 11 - 1 then
    if fraction = 0 then .infinite (decide (2 ^ 63 ≤ bits.toNat)) else .nan
  else if exponent = 0 then .finite (sign * fraction * 2 ^ (-1074 : ℤ))
  else .finite (sign * (2 ^ 52 + fraction : ℕ) * 2 ^ ((exponent : ℤ) - 1075))

/-- `TimeClip` of the product with 1000: seconds as the time value of a `Date`. -/
def secondsToDate : JsNumber → JsNumber
  | .finite seconds =>
    match ofRat (seconds * 1000) with
    | .finite time => if |time| ≤ 8640000000000000 then .finite (time.num.tdiv time.den) else .nan
    | .nan | .infinite _ => .nan
  | .nan | .infinite _ => .nan

/-- A leading `+` or `-`. -/
def takeSign : JsString → Bool × JsString
  | [] => (false, [])
  | c :: s =>
    if c = unit '-' then (true, s) else if c = unit '+' then (false, s) else (false, c :: s)

/-- The exponent that ends a decimal literal. -/
def exponentPart : JsString → Option ℤ
  | [] => some 0
  | c :: s =>
    let (negative, digits) := takeSign s
    if toLower c = unit 'e' ∧ digits ≠ [] ∧ digits.all isDigit then
      some (if negative then -(ofDigits 10 digits : ℤ) else ofDigits 10 digits)
    else none

/-- Digits with an optional fraction and exponent; one of the two parts has a digit. -/
def decimalLiteral (s : JsString) : Option ℚ :=
  let (whole, s) := s.span isDigit
  let (fraction, s) := if s.head? = some (unit '.') then s.tail.span isDigit else ([], s)
  if whole = [] ∧ fraction = [] then none
  else (exponentPart s).map fun exponent : ℤ =>
    (ofDigits 10 (whole ++ fraction) : ℚ) * 10 ^ (exponent - fraction.length : ℤ)

/-- The radix of a literal that starts with `0x`, `0o` or `0b`, and its digits. -/
def radixLiteral : JsString → Option (ℕ × JsString)
  | c :: d :: digits =>
    if c ≠ unit '0' then none
    else if toLower d = unit 'x' then some (16, digits)
    else if toLower d = unit 'o' then some (8, digits)
    else if toLower d = unit 'b' then some (2, digits)
    else none
  | _ => none

/-- `Number` of a string. -/
def number (s : JsString) : JsNumber :=
  let s := s.trim
  if s = [] then .finite 0
  else match radixLiteral s with
    | some (radix, digits) =>
      if digits ≠ [] ∧ digits.all (isDigitOf radix) then ofRat (ofDigits radix digits) else .nan
    | none =>
      let (negative, s) := takeSign s
      if s = js "Infinity" then .infinite negative
      else match decimalLiteral s with
        | some q => ofRat (if negative then -q else q)
        | none => .nan

/-- `parseInt` in radix 10, where `none` is `NaN`. Its rounding of long digit strings is not
modelled: it keeps the order relative to any small integer. -/
def parseInt (s : JsString) : Option ℤ :=
  let (negative, s) := takeSign (s.dropWhile isWhitespace)
  let digits := s.takeWhile isDigit
  if digits = [] then none
  else some (if negative then -(ofDigits 10 digits : ℤ) else ofDigits 10 digits)

def isInteger : JsNumber → Bool
  | .finite q => decide (q.den = 1)
  | .nan | .infinite _ => false

/-- `a ≤ x ≤ b` for integers `a` and `b`. -/
def between (a b : ℤ) : JsNumber → Bool
  | .finite q => decide (a ≤ q) && decide (q ≤ b)
  | .nan | .infinite _ => false

/-- `n ≤ x` for a natural number `n`. -/
def atLeast (n : ℕ) : JsNumber → Bool
  | .finite q => decide ((n : ℚ) ≤ q)
  | .infinite negative => !negative
  | .nan => false

theorem one_le_ofRat {q : ℚ} (h : 1 ≤ q) : (ofRat q).atLeast 1 = true := by
  have hq : |q| = q := abs_of_nonneg (by linarith)
  have hlog : 0 ≤ Int.log 2 q := by
    rw [← Int.log_one_right (R := ℚ) 2]
    exact Int.log_mono_right (by norm_num) h
  have hmax : max (Int.log 2 q - 52) (-1074) = Int.log 2 q - 52 := by omega
  have hulp : (0 : ℚ) < 2 ^ (Int.log 2 q - 52) := zpow_pos (by norm_num) _
  have hpow : ((2 ^ 52 : ℤ) : ℚ) * 2 ^ (Int.log 2 q - 52) = 2 ^ Int.log 2 q := by
    rw [Int.cast_pow, Int.cast_ofNat, ← zpow_natCast, ← zpow_add₀ (by norm_num)]
    congr 1
    omega
  have hfloor : ((2 ^ 52 : ℤ) : ℚ) ≤ q / 2 ^ (Int.log 2 q - 52) := by
    rw [le_div_iff₀ hulp, hpow]
    exact Int.zpow_log_le_self (by norm_num) (by linarith)
  have hround := (Int.le_floor.mpr hfloor).trans (floor_le_roundHalfEven _)
  have hone : (1 : ℚ) ≤ roundHalfEven (q / 2 ^ (Int.log 2 q - 52)) * 2 ^ (Int.log 2 q - 52) :=
    calc (1 : ℚ) ≤ 2 ^ Int.log 2 q := one_le_zpow₀ (by norm_num) hlog
      _ = ((2 ^ 52 : ℤ) : ℚ) * 2 ^ (Int.log 2 q - 52) := hpow.symm
      _ ≤ _ := mul_le_mul_of_nonneg_right (by exact_mod_cast hround) hulp.le
  unfold ofRat
  dsimp only
  rw [hq, hmax]
  split
  · simpa [atLeast] using hone
  · simp only [atLeast, Bool.not_eq_true', decide_eq_false_iff_not]
    linarith

/-- `ToInt32`. -/
def toInt32 : JsNumber → BitVec 32
  | .finite q => .ofInt 32 (q.num.tdiv q.den)
  | .nan | .infinite _ => 0

end JsNumber
