import Connectum.JsDecimal
import Connectum.Json

/-! `JSON.stringify` of JSON data, with the texts of its strings and numbers. -/

namespace JsNumber
open JsString

/-- The integers around a value in units of a power of ten, the nearest one first, as far as they
read back as the value. -/
def readBack (q : ℚ) (exponent : ℤ) : List ℕ :=
  let scaled := q / 10 ^ exponent
  let nearest := roundHalfEven scaled
  let other := if nearest = ⌊scaled⌋ then nearest + 1 else nearest - 1
  ([nearest, other].filter fun s : ℤ => ofRat ((s : ℚ) * 10 ^ exponent) = .finite q).map Int.toNat

/-- The digits of a positive value, as few as read back as the value, and how many of them are in
front of the decimal point. Seventeen digits are always enough. -/
def shortest (q : ℚ) : JsString × ℤ :=
  let point := Int.log 10 q + 1
  let found := (List.range 17).findSome? fun k =>
    (readBack q (point - (k + 1 : ℕ))).head?.map fun s => (s, k + 1)
  match found with
  | some (s, k) => if s = 10 ^ k then (decimal 1, point + 1) else (decimal s, point)
  | none => (decimal (roundHalfEven (q / 10 ^ (point - 17))).toNat, point)

def zeros (n : ℕ) : JsString := List.replicate n (unit '0')

/-- Digits with the decimal point at a place, in the one of four forms for this place. -/
def placed (digits : JsString) (point : ℤ) : JsString :=
  if (digits.length : ℤ) ≤ point ∧ point ≤ 21 then digits ++ zeros (point - digits.length).toNat
  else if 0 < point ∧ point ≤ 21 then
    digits.take point.toNat ++ js "." ++ digits.drop point.toNat
  else if -6 < point ∧ point ≤ 0 then js "0." ++ zeros (-point).toNat ++ digits
  else
    digits.take 1 ++ (if digits.length = 1 then [] else js "." ++ digits.drop 1) ++ js "e" ++
      (if point - 1 < 0 then js "-" else js "+") ++ decimal (point - 1).natAbs

/-- `JSON.stringify` of a number. -/
def jsonText : JsNumber → JsString
  | .nan | .infinite _ => js "null"
  | .finite q =>
    if q = 0 then js "0"
    else
      let (digits, point) := shortest |q|
      (if q < 0 then js "-" else []) ++ placed digits point

end JsNumber

namespace JsString

def isHighSurrogate (c : UInt16) : Bool := 0xD800 ≤ c && c ≤ 0xDBFF

def isLowSurrogate (c : UInt16) : Bool := 0xDC00 ≤ c && c ≤ 0xDFFF

def hexDigit (n : ℕ) : UInt16 := .ofNat (if n < 10 then 0x30 + n else 0x57 + n)

/-- `\u` and four hexadecimal digits. -/
def unicodeEscape (c : UInt16) : JsString :=
  js "\\u" ++ [hexDigit (c.toNat / 4096), hexDigit (c.toNat / 256 % 16),
    hexDigit (c.toNat / 16 % 16), hexDigit (c.toNat % 16)]

/-- A code unit outside the surrogates, in a JSON string. -/
def quoteUnit (c : UInt16) : JsString :=
  if c = 0x08 then js "\\b"
  else if c = 0x09 then js "\\t"
  else if c = 0x0A then js "\\n"
  else if c = 0x0C then js "\\f"
  else if c = 0x0D then js "\\r"
  else if c = unit '"' then js "\\\""
  else if c = unit '\\' then js "\\\\"
  else if c < 0x20 then unicodeEscape c
  else [c]

/-- The inside of a JSON string: the surrogates of a pair are kept, and others are escaped. -/
def quoteUnits : JsString → JsString
  | [] => []
  | [c] => if isHighSurrogate c || isLowSurrogate c then unicodeEscape c else quoteUnit c
  | c :: d :: s =>
    if isHighSurrogate c && isLowSurrogate d then c :: d :: quoteUnits s
    else if isHighSurrogate c || isLowSurrogate c then unicodeEscape c ++ quoteUnits (d :: s)
    else quoteUnit c ++ quoteUnits (d :: s)

def quote (s : JsString) : JsString := js "\"" ++ quoteUnits s ++ js "\""

end JsString

namespace JsonValue
open JsString

mutual

/-- `JSON.stringify`. -/
def stringify : JsonValue → JsString
  | .null => js "null"
  | .bool value => if value then js "true" else js "false"
  | .number bits => (JsNumber.ofBits bits).jsonText
  | .string value => quote value
  | .array items => js "[" ++ (js ",").intercalate (itemTexts items) ++ js "]"
  | .object fields => js "\x7b" ++ (js ",").intercalate (fieldTexts fields) ++ js "\x7d"

def itemTexts : List JsonValue → List JsString
  | [] => []
  | item :: items => stringify item :: itemTexts items

def fieldTexts : List (JsString × JsonValue) → List JsString
  | [] => []
  | (key, value) :: fields => (quote key ++ js ":" ++ stringify value) :: fieldTexts fields

end

mutual

/-- The strings and the keys in a value. -/
def strings : JsonValue → List JsString
  | .null | .bool _ | .number _ => []
  | .string value => [value]
  | .array items => itemStrings items
  | .object fields => fieldStrings fields

def itemStrings : List JsonValue → List JsString
  | [] => []
  | item :: items => strings item ++ itemStrings items

def fieldStrings : List (JsString × JsonValue) → List JsString
  | [] => []
  | (key, value) :: fields => key :: (strings value ++ fieldStrings fields)

end

end JsonValue

namespace JsString

/-- A high surrogate right before a low one. -/
def hasPair : JsString → Bool
  | c :: d :: s => (isHighSurrogate c && isLowSurrogate d) || hasPair (d :: s)
  | [_] | [] => false

/-- Strings of bytes and unpaired surrogates. -/
def Narrow (s : JsString) : Prop :=
  hasPair s = false ∧ ∀ c ∈ s, c ≤ 0xFF ∨ isHighSurrogate c = true ∨ isLowSurrogate c = true

instance (s : JsString) : Decidable (Narrow s) := inferInstanceAs (Decidable (_ ∧ _))

def isAscii (c : UInt16) : Bool := 0x20 ≤ c && c ≤ 0x7E

variable {c d : UInt16} {s : JsString}

theorem isAscii_iff : isAscii c = true ↔ 32 ≤ c.toNat ∧ c.toNat ≤ 126 := by
  simp [isAscii, UInt16.le_iff_toNat_le]

/-- The check of a literal. -/
theorem isAscii_of_all (h : s.all isAscii = true) : ∀ c ∈ s, isAscii c = true :=
  List.all_eq_true.mp h

theorem isAscii_of_isDigit (h : isDigit c = true) : isAscii c = true := by
  rw [isAscii_iff]
  have hdigit := isDigit_iff.mp h
  omega

theorem isAscii_hexDigit {n : ℕ} (hn : n < 16) : isAscii (hexDigit n) = true := by
  have hall : ∀ n < 16, isAscii (hexDigit n) = true := by decide
  exact hall n hn

theorem isAscii_unicodeEscape (c : UInt16) : ∀ d ∈ unicodeEscape c, isAscii d = true := by
  have hc : c.toNat < 65536 := c.toNat_lt
  unfold unicodeEscape
  rw [List.forall_mem_append]
  refine ⟨isAscii_of_all (by decide), ?_⟩
  simp only [List.forall_mem_cons]
  refine ⟨isAscii_hexDigit ?_, isAscii_hexDigit ?_, isAscii_hexDigit ?_, isAscii_hexDigit ?_,
    fun d hd => absurd hd List.not_mem_nil⟩
  all_goals omega

/-- What is not written as it is is a byte, and is written in ASCII. -/
theorem quoteUnit_cases (c : UInt16) :
    ((∀ d ∈ quoteUnit c, isAscii d = true) ∧ c ≤ 0xFF) ∨ (quoteUnit c = [c] ∧ 0x20 ≤ c) := by
  by_cases hspecial : c ∈ [0x08, 0x09, 0x0A, 0x0C, 0x0D, unit '"', unit '\\']
  · have hall : [0x08, 0x09, 0x0A, 0x0C, 0x0D, unit '"', unit '\\'].all
        (fun c => (quoteUnit c).all isAscii && decide (c ≤ 0xFF)) = true := by decide
    obtain ⟨hascii, hc⟩ := Bool.and_eq_true_iff.mp (List.all_eq_true.mp hall c hspecial)
    exact .inl ⟨isAscii_of_all hascii, of_decide_eq_true hc⟩
  · simp only [List.mem_cons, List.not_mem_nil, or_false, not_or] at hspecial
    obtain ⟨h8, h9, hA, hC, hD, hquote, hbackslash⟩ := hspecial
    unfold quoteUnit
    rw [if_neg h8, if_neg h9, if_neg hA, if_neg hC, if_neg hD, if_neg hquote, if_neg hbackslash]
    split
    next hlt =>
      refine .inl ⟨isAscii_unicodeEscape c, ?_⟩
      rw [UInt16.lt_iff_toNat_lt] at hlt
      rw [UInt16.le_iff_toNat_le]
      exact hlt.le.trans (by decide)
    next hlt => exact .inr ⟨rfl, UInt16.not_lt.mp hlt⟩

theorem le_of_isAscii (h : isAscii c = true) : c ≤ 0xFF := by
  rw [UInt16.le_iff_toNat_le]
  exact (isAscii_iff.mp h).2.trans (by decide)

theorem ge_of_isAscii (h : isAscii c = true) : 0x20 ≤ c := by
  rw [UInt16.le_iff_toNat_le]
  exact (isAscii_iff.mp h).1

theorem isSurrogate_iff : (isHighSurrogate c || isLowSurrogate c) = true ↔
    0xD800 ≤ c.toNat ∧ c.toNat ≤ 0xDFFF := by
  simp only [isHighSurrogate, isLowSurrogate, Bool.or_eq_true, Bool.and_eq_true, decide_eq_true_eq,
    UInt16.le_iff_toNat_le, UInt16.reduceToNat]
  omega

theorem not_le_of_isSurrogate (h : (isHighSurrogate c || isLowSurrogate c) = true) :
    ¬ c ≤ 0xFF := by
  rw [UInt16.le_iff_toNat_le]
  have hlow := (isSurrogate_iff.mp h).1
  exact not_le_of_gt (lt_of_lt_of_le (by decide) hlow)

theorem forall_mem_quoteUnit : (∀ d ∈ quoteUnit c, d ≤ 0xFF) ↔ c ≤ 0xFF := by
  rcases quoteUnit_cases c with ⟨hascii, hc⟩ | ⟨hself, -⟩
  · exact iff_of_true (fun d hd => le_of_isAscii (hascii d hd)) hc
  · rw [hself, List.forall_mem_singleton]

/-- Nothing in a JSON string is a control character. -/
theorem ge_of_mem_quoteUnits : ∀ c ∈ quoteUnits s, 0x20 ≤ c := by
  have hsurrogate : ∀ c : UInt16, (isHighSurrogate c || isLowSurrogate c) = true → 0x20 ≤ c := by
    intro c hc
    rw [UInt16.le_iff_toNat_le]
    exact le_trans (by decide) (isSurrogate_iff.mp hc).1
  have hescape : ∀ c, ∀ d ∈ unicodeEscape c, 0x20 ≤ d := fun c d hd =>
    ge_of_isAscii (isAscii_unicodeEscape c d hd)
  have hunit : ∀ c, ∀ d ∈ quoteUnit c, 0x20 ≤ d := by
    intro c d hd
    rcases quoteUnit_cases c with ⟨hascii, -⟩ | ⟨hself, hc⟩
    · exact ge_of_isAscii (hascii d hd)
    · rw [hself, List.mem_singleton] at hd
      rwa [hd]
  fun_induction quoteUnits s with
  | case1 => exact fun c hc => absurd hc List.not_mem_nil
  | case2 c h => exact hescape c
  | case3 c h => exact hunit c
  | case4 c d s h ih =>
    obtain ⟨hc, hd⟩ := Bool.and_eq_true_iff.mp h
    rw [List.forall_mem_cons, List.forall_mem_cons]
    exact ⟨hsurrogate c (by rw [hc, Bool.true_or]), hsurrogate d (by rw [hd, Bool.or_true]), ih⟩
  | case5 c d s h h' ih => exact List.forall_mem_append.mpr ⟨hescape c, ih⟩
  | case6 c d s h h' ih => exact List.forall_mem_append.mpr ⟨hunit c, ih⟩

theorem narrow_singleton :
    Narrow [c] ↔ c ≤ 0xFF ∨ (isHighSurrogate c || isLowSurrogate c) = true := by
  unfold Narrow
  rw [List.forall_mem_singleton, Bool.or_eq_true]
  exact and_iff_right rfl

theorem narrow_cons_cons : Narrow (c :: d :: s) ↔
    ¬ (isHighSurrogate c && isLowSurrogate d) = true ∧
      (c ≤ 0xFF ∨ (isHighSurrogate c || isLowSurrogate c) = true) ∧ Narrow (d :: s) := by
  unfold Narrow
  rw [hasPair, Bool.or_eq_false_iff, List.forall_mem_cons, Bool.not_eq_true, Bool.or_eq_true]
  tauto

/-- A JSON string is a byte string if and only if its value is narrow. -/
theorem forall_mem_quoteUnits : (∀ c ∈ quoteUnits s, c ≤ 0xFF) ↔ Narrow s := by
  have hescape : ∀ c, ∀ d ∈ unicodeEscape c, d ≤ 0xFF := fun c d hd =>
    le_of_isAscii (isAscii_unicodeEscape c d hd)
  fun_induction quoteUnits s with
  | case1 => exact iff_of_true (fun c hc => absurd hc List.not_mem_nil) ⟨rfl, by simp⟩
  | case2 c h => exact iff_of_true (hescape c) (narrow_singleton.mpr (.inr h))
  | case3 c h => rw [forall_mem_quoteUnit, narrow_singleton, or_iff_left h]
  | case4 c d s h ih =>
    have hc : (isHighSurrogate c || isLowSurrogate c) = true := by
      rw [(Bool.and_eq_true_iff.mp h).1, Bool.true_or]
    rw [List.forall_mem_cons, narrow_cons_cons]
    exact iff_of_false (fun hall => not_le_of_isSurrogate hc hall.1) fun hnarrow => hnarrow.1 h
  | case5 c d s h h' ih =>
    rw [List.forall_mem_append, and_iff_right (hescape c), narrow_cons_cons, and_iff_right h,
      and_iff_right (.inr h')]
    exact ih
  | case6 c d s h h' ih =>
    rw [List.forall_mem_append, forall_mem_quoteUnit, narrow_cons_cons, and_iff_right h,
      or_iff_left h']
    exact and_congr_right fun _ => ih

end JsString

namespace JsNumber
open JsString

theorem isAscii_of_mem_decimal {n : ℕ} : ∀ c ∈ decimal n, isAscii c = true := fun _ hc =>
  isAscii_of_isDigit (isDigit_of_mem_decimal hc)

theorem isAscii_zeros (n : ℕ) : ∀ c ∈ zeros n, isAscii c = true := by
  intro c hc
  rw [List.eq_of_mem_replicate hc]
  decide

theorem isAscii_placed {digits : JsString} (h : ∀ c ∈ digits, isAscii c = true) (point : ℤ) :
    ∀ c ∈ placed digits point, isAscii c = true := by
  have htake : ∀ n, ∀ c ∈ digits.take n, isAscii c = true := fun n c hc =>
    h c (List.mem_of_mem_take hc)
  have hdrop : ∀ n, ∀ c ∈ digits.drop n, isAscii c = true := fun n c hc =>
    h c (List.mem_of_mem_drop hc)
  have hdot : ∀ c ∈ js ".", isAscii c = true := isAscii_of_all (by decide)
  unfold placed
  split
  next => exact List.forall_mem_append.mpr ⟨h, isAscii_zeros _⟩
  next =>
    split
    next =>
      exact List.forall_mem_append.mpr ⟨List.forall_mem_append.mpr ⟨htake _, hdot⟩, hdrop _⟩
    next =>
      split
      next =>
        exact List.forall_mem_append.mpr
          ⟨List.forall_mem_append.mpr ⟨isAscii_of_all (by decide), isAscii_zeros _⟩, h⟩
      next =>
        simp only [List.forall_mem_append]
        refine ⟨⟨⟨⟨htake 1, ?_⟩, isAscii_of_all (by decide)⟩, ?_⟩, isAscii_of_mem_decimal⟩
        · split
          · exact fun c hc => absurd hc List.not_mem_nil
          · exact List.forall_mem_append.mpr ⟨hdot, hdrop 1⟩
        · split <;> exact isAscii_of_all (by decide)

theorem isAscii_shortest (q : ℚ) : ∀ c ∈ (shortest q).1, isAscii c = true := by
  unfold shortest
  dsimp only
  split
  next => split <;> exact isAscii_of_mem_decimal
  next => exact isAscii_of_mem_decimal

theorem isAscii_jsonText (x : JsNumber) : ∀ c ∈ x.jsonText, isAscii c = true := by
  cases x with
  | nan => exact isAscii_of_all (by decide)
  | infinite negative =>
    show ∀ c ∈ js "null", isAscii c = true
    exact isAscii_of_all (by decide)
  | finite q =>
    rw [jsonText]
    split
    next => exact isAscii_of_all (by decide)
    next =>
      apply List.forall_mem_append.mpr ⟨_, isAscii_placed (isAscii_shortest _) _⟩
      split
      · exact isAscii_of_all (by decide)
      · exact fun c hc => absurd hc List.not_mem_nil

end JsNumber

namespace JsonValue
open JsString

variable {P : UInt16 → Prop} {N : JsString → Prop}

theorem forall_mem_bool (value : Bool) :
    ∀ c ∈ (if value then js "true" else js "false"), isAscii c = true := by
  cases value <;> exact isAscii_of_all (by decide)

theorem forall_mem_bracketed {left right : JsString} {parts : List JsString}
    (hascii : ∀ c, isAscii c = true → P c) (hleft : left.all isAscii = true)
    (hright : right.all isAscii = true) :
    (∀ c ∈ left ++ (js ",").intercalate parts ++ right, P c) ↔
      ∀ part ∈ parts, ∀ c ∈ part, P c := by
  have hcomma : (js ",").all isAscii = true := by decide
  rw [List.forall_mem_append, List.forall_mem_append,
    forall_mem_intercalate fun c hc => hascii c (isAscii_of_all hcomma c hc),
    and_iff_left fun c hc => hascii c (isAscii_of_all hright c hc),
    and_iff_right fun c hc => hascii c (isAscii_of_all hleft c hc)]

theorem forall_mem_quote (hascii : ∀ c, isAscii c = true → P c) (s : JsString) :
    (∀ c ∈ quote s, P c) ↔ ∀ c ∈ quoteUnits s, P c := by
  have hmark : ∀ c ∈ js "\"", P c := fun c hc => hascii c (isAscii_of_all (by decide) c hc)
  rw [quote, List.forall_mem_append, List.forall_mem_append, and_iff_left hmark,
    and_iff_right hmark]

mutual

/-- A property of ASCII holds all through a JSON text if and only if it holds in its strings. -/
theorem forall_mem_stringify (hascii : ∀ c, isAscii c = true → P c)
    (hquote : ∀ s, (∀ c ∈ quoteUnits s, P c) ↔ N s) :
    ∀ value : JsonValue, (∀ c ∈ value.stringify, P c) ↔ ∀ s ∈ value.strings, N s
  | .null => by
    rw [stringify, strings]
    exact iff_of_true (fun c hc => hascii c (isAscii_of_all (by decide) c hc)) (by simp)
  | .bool value => by
    rw [stringify, strings]
    exact iff_of_true (fun c hc => hascii c (forall_mem_bool value c hc)) (by simp)
  | .number bits => by
    rw [stringify, strings]
    exact iff_of_true (fun c hc => hascii c (JsNumber.isAscii_jsonText _ c hc)) (by simp)
  | .string value => by
    rw [stringify, strings, List.forall_mem_singleton, forall_mem_quote hascii, hquote]
  | .array items => by
    rw [stringify, strings, ← forall_mem_itemTexts hascii hquote items]
    exact forall_mem_bracketed hascii (by decide) (by decide)
  | .object fields => by
    rw [stringify, strings, ← forall_mem_fieldTexts hascii hquote fields]
    exact forall_mem_bracketed hascii (by decide) (by decide)

theorem forall_mem_itemTexts (hascii : ∀ c, isAscii c = true → P c)
    (hquote : ∀ s, (∀ c ∈ quoteUnits s, P c) ↔ N s) :
    ∀ items : List JsonValue, (∀ text ∈ itemTexts items, ∀ c ∈ text, P c) ↔
      ∀ s ∈ itemStrings items, N s
  | [] => by simp [itemTexts, itemStrings]
  | item :: items => by
    rw [itemTexts, itemStrings, List.forall_mem_cons, List.forall_mem_append,
      forall_mem_stringify hascii hquote item, forall_mem_itemTexts hascii hquote items]

theorem forall_mem_fieldTexts (hascii : ∀ c, isAscii c = true → P c)
    (hquote : ∀ s, (∀ c ∈ quoteUnits s, P c) ↔ N s) :
    ∀ fields : List (JsString × JsonValue), (∀ text ∈ fieldTexts fields, ∀ c ∈ text, P c) ↔
      ∀ s ∈ fieldStrings fields, N s
  | [] => by simp [fieldTexts, fieldStrings]
  | (key, value) :: fields => by
    have hcolon : ∀ c ∈ js ":", P c := fun c hc => hascii c (isAscii_of_all (by decide) c hc)
    rw [fieldTexts, fieldStrings, List.forall_mem_cons, List.forall_mem_cons,
      List.forall_mem_append, List.forall_mem_append, List.forall_mem_append,
      forall_mem_quote hascii, hquote, and_iff_left hcolon,
      forall_mem_stringify hascii hquote value, forall_mem_fieldTexts hascii hquote fields,
      and_assoc]

end

theorem itemStrings_map_string (items : List JsString) :
    itemStrings (items.map .string) = items := by
  induction items with
  | nil => rfl
  | cons item items ih =>
    rw [List.map_cons, itemStrings, strings, ih]
    rfl

theorem forall_mem_fieldStrings (fields : List (JsString × JsonValue)) :
    (∀ s ∈ fieldStrings fields, N s) ↔ ∀ field ∈ fields, N field.1 ∧ ∀ s ∈ field.2.strings, N s := by
  induction fields with
  | nil => simp [fieldStrings]
  | cons field fields ih =>
    rw [fieldStrings, List.forall_mem_cons, List.forall_mem_append, List.forall_mem_cons, ih,
      and_assoc]

/-- There is no control character in a JSON text. -/
theorem ge_of_mem_stringify (value : JsonValue) : ∀ c ∈ value.stringify, 0x20 ≤ c :=
  (forall_mem_stringify (N := fun _ => True) (fun _ => ge_of_isAscii)
    (fun _ => iff_of_true ge_of_mem_quoteUnits trivial) value).mpr fun _ _ => trivial

/-- A JSON text consists of bytes if and only if its strings are narrow. -/
theorem forall_mem_stringify_le (value : JsonValue) :
    (∀ c ∈ value.stringify, c ≤ 0xFF) ↔ ∀ s ∈ value.strings, Narrow s :=
  forall_mem_stringify (fun _ => le_of_isAscii) (fun _ => forall_mem_quoteUnits) value

end JsonValue
