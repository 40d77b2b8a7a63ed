import Mathlib.Tactic.Common

/-! The form of a query: percent encoding, UTF-8 with errors replaced, and pairs of a name and a
value. -/

namespace Utf8

def replacement : Char := Char.ofNat 0xFFFD

/-- A character of which `needed` more bytes are to come, the next one between the bounds. -/
structure Pending where
  needed : ℕ
  codePoint : ℕ
  lower : ℕ := 0x80
  upper : ℕ := 0xBF

/-- The first byte of a character. -/
def first (byte : ℕ) : List Char × Option Pending :=
  if byte ≤ 0x7F then ([Char.ofNat byte], none)
  else if 0xC2 ≤ byte ∧ byte ≤ 0xDF then ([], some { needed := 1, codePoint := byte - 0xC0 })
  else if 0xE0 ≤ byte ∧ byte ≤ 0xEF then
    ([], some ⟨2, byte - 0xE0, if byte = 0xE0 then 0xA0 else 0x80,
      if byte = 0xED then 0x9F else 0xBF⟩)
  else if 0xF0 ≤ byte ∧ byte ≤ 0xF4 then
    ([], some ⟨3, byte - 0xF0, if byte = 0xF0 then 0x90 else 0x80,
      if byte = 0xF4 then 0x8F else 0xBF⟩)
  else ([replacement], none)

/-- A byte that cannot continue the character begins another one. -/
def next (byte : ℕ) : Option Pending → List Char × Option Pending
  | none => first byte
  | some pending =>
    if byte < pending.lower ∨ pending.upper < byte then
      (replacement :: (first byte).1, (first byte).2)
    else
      let codePoint := 64 * pending.codePoint + (byte - 0x80)
      if pending.needed = 1 then ([Char.ofNat codePoint], none)
      else ([], some { needed := pending.needed - 1, codePoint })

def decodeFrom : Option Pending → List ℕ → List Char
  | none, [] => []
  | some _, [] => [replacement]
  | pending, byte :: bytes =>
    (next byte pending).1 ++ decodeFrom (next byte pending).2 bytes

/-- Whatever is no UTF-8 is replaced. -/
def decode (bytes : List ℕ) : List Char := decodeFrom none bytes

def encode (s : List Char) : List ℕ := s.flatMap fun c => (String.utf8EncodeChar c).map UInt8.toNat

variable {byte codePoint lower upper : ℕ}

/-- The last byte of a character. -/
theorem decodeFrom_last (hlower : lower ≤ byte) (hupper : byte ≤ upper) (bytes : List ℕ) :
    decodeFrom (some ⟨1, codePoint, lower, upper⟩) (byte :: bytes) =
      Char.ofNat (64 * codePoint + (byte - 0x80)) :: decode bytes := by
  rw [decodeFrom, next, if_neg (by dsimp only; omega), if_pos rfl]
  rfl

/-- A byte within a character. -/
theorem decodeFrom_more (needed : ℕ) (hlower : lower ≤ byte) (hupper : byte ≤ upper)
    (bytes : List ℕ) :
    decodeFrom (some ⟨needed + 2, codePoint, lower, upper⟩) (byte :: bytes) =
      decodeFrom (some ⟨needed + 1, 64 * codePoint + (byte - 0x80), 0x80, 0xBF⟩) bytes := by
  rw [decodeFrom, next, if_neg (by dsimp only; omega), if_neg (Nat.succ_succ_ne_one needed)]
  rfl

theorem decode_two (hlower : 0xC2 ≤ byte) (hupper : byte ≤ 0xDF) (bytes : List ℕ) :
    decode (byte :: bytes) =
      decodeFrom (some { needed := 1, codePoint := byte - 0xC0 }) bytes := by
  rw [decode, decodeFrom, next, first, if_neg (by omega), if_pos ⟨hlower, hupper⟩]
  rfl

theorem decode_three (hlower : 0xE0 ≤ byte) (hupper : byte ≤ 0xEF) (bytes : List ℕ) :
    decode (byte :: bytes) = decodeFrom (some ⟨2, byte - 0xE0, if byte = 0xE0 then 0xA0 else 0x80,
      if byte = 0xED then 0x9F else 0xBF⟩) bytes := by
  rw [decode, decodeFrom, next, first, if_neg (by omega), if_neg (by omega),
    if_pos ⟨hlower, hupper⟩]
  rfl

theorem decode_four (hlower : 0xF0 ≤ byte) (hupper : byte ≤ 0xF4) (bytes : List ℕ) :
    decode (byte :: bytes) = decodeFrom (some ⟨3, byte - 0xF0, if byte = 0xF0 then 0x90 else 0x80,
      if byte = 0xF4 then 0x8F else 0xBF⟩) bytes := by
  rw [decode, decodeFrom, next, first, if_neg (by omega), if_neg (by omega), if_neg (by omega),
    if_pos ⟨hlower, hupper⟩]
  rfl

theorem lt_of_mem_encode {s : List Char} (h : byte ∈ encode s) : byte < 256 := by
  obtain ⟨c, -, hbyte⟩ := List.mem_flatMap.mp h
  obtain ⟨b, -, rfl⟩ := List.mem_map.mp hbyte
  exact b.toNat_lt

/-- ASCII is encoded as it is. -/
theorem encode_ofNat {bytes : List ℕ} (h : ∀ byte ∈ bytes, byte ≤ 0x7F) :
    encode (bytes.map Char.ofNat) = bytes := by
  induction bytes with
  | nil => rfl
  | cons byte bytes ih =>
    obtain ⟨hbyte, h⟩ := List.forall_mem_cons.mp h
    have hval : (Char.ofNat byte).val.toNat = byte := by
      rw [Char.ofNat, dif_pos (.inl (by omega))]
      rfl
    have hchar : String.utf8EncodeChar (Char.ofNat byte) = [UInt8.ofNat byte] := by
      rw [String.utf8EncodeChar, hval, if_pos hbyte]
    have htail : encode (bytes.map Char.ofNat) = bytes := ih h
    have hbyte' : (UInt8.ofNat byte).toNat = byte :=
      UInt8.toNat_ofNat_of_lt (show byte < 256 by omega)
    rw [List.map_cons, encode, List.flatMap_cons, hchar, ← encode, htail, List.map_singleton,
      hbyte', List.singleton_append]

theorem decode_encodeChar (c : Char) (bytes : List ℕ) :
    decode ((String.utf8EncodeChar c).map UInt8.toNat ++ bytes) = c :: decode bytes := by
  have hvalid : c.val.toNat < 0xD800 ∨ 0xDFFF < c.val.toNat ∧ c.val.toNat < 0x110000 := c.valid
  have hofNat : Char.ofNat c.val.toNat = c := Char.ofNat_toNat c
  have htail : ∀ n, 0x80 ≤ n % 0x40 + 0x80 ∧ n % 0x40 + 0x80 ≤ 0xBF := by omega
  have hbyte : ∀ n, n < 256 → (UInt8.ofNat n).toNat = n := fun n hn =>
    UInt8.toNat_ofNat_of_lt hn
  fun_cases String.utf8EncodeChar c with
  | case1 v h =>
    change decode ((UInt8.ofNat v).toNat :: bytes) = _
    rw [hbyte v (by omega), decode, decodeFrom, next, first, if_pos h]
    exact congrArg (· :: _) hofNat
  | case2 v h h' =>
    change decode ((UInt8.ofNat _).toNat :: (UInt8.ofNat _).toNat :: bytes) = _
    rw [hbyte _ (by omega), hbyte _ (by omega), decode_two (by omega) (by omega),
      decodeFrom_last (htail v).1 (htail v).2]
    have hpoint : 64 * (v / 64 % 0x20 + 0xC0 - 0xC0) + (v % 0x40 + 0x80 - 0x80) = v := by omega
    rw [hpoint, hofNat]
  | case3 v h h' h'' =>
    change decode ((UInt8.ofNat _).toNat :: (UInt8.ofNat _).toNat :: (UInt8.ofNat _).toNat ::
      bytes) = _
    rw [hbyte _ (by omega), hbyte _ (by omega), hbyte _ (by omega),
      decode_three (by omega) (by omega), decodeFrom_more 0,
      decodeFrom_last (htail v).1 (htail v).2]
    · have hpoint : 64 * (64 * (v / 4096 % 0x10 + 0xE0 - 0xE0) + (v / 64 % 0x40 + 0x80 - 0x80)) +
          (v % 0x40 + 0x80 - 0x80) = v := by omega
      rw [hpoint, hofNat]
    · split <;> omega
    · split <;> omega
  | case4 v h h' h'' =>
    change decode ((UInt8.ofNat _).toNat :: (UInt8.ofNat _).toNat :: (UInt8.ofNat _).toNat ::
      (UInt8.ofNat _).toNat :: bytes) = _
    rw [hbyte _ (by omega), hbyte _ (by omega), hbyte _ (by omega), hbyte _ (by omega),
      decode_four (by omega) (by omega), decodeFrom_more 1,
      decodeFrom_more 0 (htail _).1 (htail _).2, decodeFrom_last (htail v).1 (htail v).2]
    · have hpoint : 64 * (64 * (64 * (v / 262144 % 0x08 + 0xF0 - 0xF0) +
          (v / 4096 % 0x40 + 0x80 - 0x80)) + (v / 64 % 0x40 + 0x80 - 0x80)) +
          (v % 0x40 + 0x80 - 0x80) = v := by omega
      rw [hpoint, hofNat]
    · split <;> omega
    · split <;> omega

/-- What is encoded is decoded again. -/
theorem decode_encode (s : List Char) : decode (encode s) = s := by
  induction s with
  | nil => rfl
  | cons c s ih => 
    rw [encode, List.flatMap_cons, decode_encodeChar]
    exact congrArg _ ih

end Utf8

namespace Urlencoded

def hexValue (byte : ℕ) : Option ℕ :=
  if 0x30 ≤ byte ∧ byte ≤ 0x39 then some (byte - 0x30)
  else if 0x41 ≤ byte ∧ byte ≤ 0x46 then some (byte - 0x37)
  else if 0x61 ≤ byte ∧ byte ≤ 0x66 then some (byte - 0x57)
  else none

/-- The byte that `%` and two hexadecimal digits stand for. -/
def escaped (byte high low : ℕ) : Option ℕ :=
  if byte = 0x25 then
    (hexValue high).bind fun high => (hexValue low).map fun low => 16 * high + low
  else none

def percentDecode : List ℕ → List ℕ
  | byte :: high :: low :: rest =>
    match escaped byte high low with
    | some decoded => decoded :: percentDecode rest
    | none => byte :: percentDecode (high :: low :: rest)
  | bytes => bytes

/-- A name or a value; `+` is a space. -/
def component (bytes : List ℕ) : List Char :=
  Utf8.decode (percentDecode (bytes.map fun byte => if byte = 0x2B then 0x20 else byte))

/-- The name before the first `=`, and the value after it. -/
def pair (bytes : List ℕ) : List Char × List Char :=
  (component (bytes.takeWhile (· ≠ 0x3D)), component ((bytes.dropWhile (· ≠ 0x3D)).drop 1))

/-- The pairs of a query, between the `&`s. -/
def parse (query : List Char) : List (List Char × List Char) :=
  (((Utf8.encode query).splitOn 0x26).filter fun bytes => ! bytes.isEmpty).map pair

/-- `URLSearchParams.get(name)`. -/
def get (query : List Char) (name : List Char) : Option (List Char) := (parse query).lookup name

def isUnreserved (byte : ℕ) : Bool :=
  (0x41 ≤ byte && byte ≤ 0x5A) || (0x61 ≤ byte && byte ≤ 0x7A) || (0x30 ≤ byte && byte ≤ 0x39) ||
    byte ∈ [0x2D, 0x5F, 0x2E, 0x21, 0x7E, 0x2A, 0x27, 0x28, 0x29]

def hexDigit (n : ℕ) : ℕ := if n < 10 then 0x30 + n else 0x37 + n

def escape (byte : ℕ) : List ℕ :=
  if isUnreserved byte then [byte] else [0x25, hexDigit (byte / 16), hexDigit (byte % 16)]

def encodeURIComponent (s : List Char) : List Char :=
  ((Utf8.encode s).flatMap escape).map Char.ofNat

theorem hexValue_hexDigit {n : ℕ} (h : n < 16) : hexValue (hexDigit n) = some n := by
  decide +revert

theorem isUnreserved_hexDigit {n : ℕ} (h : n < 16) : isUnreserved (hexDigit n) = true := by
  decide +revert

theorem lt_of_isUnreserved {byte : ℕ} (h : isUnreserved byte = true) : byte < 0x80 := by
  simp [isUnreserved] at h
  omega

theorem mem_escape {byte b : ℕ} (hbyte : byte < 256) (h : b ∈ escape byte) :
    isUnreserved b = true ∨ b = 0x25 := by
  rw [escape] at h
  split at h
  next hunreserved => exact .inl (List.mem_singleton.mp h ▸ hunreserved)
  next =>
    simp only [List.mem_cons, List.not_mem_nil, or_false] at h
    rcases h with rfl | rfl | rfl
    · exact .inr rfl
    · exact .inl (isUnreserved_hexDigit (by omega))
    · exact .inl (isUnreserved_hexDigit (by omega))

theorem percentDecode_cons {byte : ℕ} (h : byte ≠ 0x25) (bytes : List ℕ) :
    percentDecode (byte :: bytes) = byte :: percentDecode bytes := by
  match bytes with
  | [] => rfl
  | [_] => rfl
  | _ :: _ :: _ => rw [percentDecode, escaped, if_neg h]

theorem percentDecode_escape {byte : ℕ} (h : byte < 256) (bytes : List ℕ) :
    percentDecode (escape byte ++ bytes) = byte :: percentDecode bytes := by
  rw [escape]
  split
  next hunreserved =>
    refine percentDecode_cons ?_ bytes
    rintro rfl
    exact absurd hunreserved (by decide)
  next =>
    have hsum : 16 * (byte / 16) + byte % 16 = byte := Nat.div_add_mod byte 16
    have hescaped : escaped 0x25 (hexDigit (byte / 16)) (hexDigit (byte % 16)) = some byte := by
      rw [escaped, if_pos rfl, hexValue_hexDigit (by omega), hexValue_hexDigit (by omega),
        Option.bind_some, Option.map_some, hsum]
    change percentDecode (0x25 :: hexDigit (byte / 16) :: hexDigit (byte % 16) :: bytes) = _
    rw [percentDecode, hescaped]

theorem percentDecode_escapes {bytes : List ℕ} (h : ∀ byte ∈ bytes, byte < 256) :
    percentDecode (bytes.flatMap escape) = bytes := by
  induction bytes with
  | nil => rfl
  | cons byte bytes ih =>
    obtain ⟨hbyte, h⟩ := List.forall_mem_cons.mp h
    rw [List.flatMap_cons, percentDecode_escape hbyte, ih h]

theorem encode_encodeURIComponent (s : List Char) :
    Utf8.encode (encodeURIComponent s) = (Utf8.encode s).flatMap escape := by
  refine Utf8.encode_ofNat fun byte hbyte => ?_
  obtain ⟨source, hsource, hbyte⟩ := List.mem_flatMap.mp hbyte
  rcases mem_escape (Utf8.lt_of_mem_encode hsource) hbyte with h | rfl
  · exact Nat.le_of_lt_succ (lt_of_isUnreserved h)
  · decide

theorem mem_encodeURIComponent {c : Char} {s : List Char} (h : c ∈ encodeURIComponent s) :
    ∃ byte, (isUnreserved byte = true ∨ byte = 0x25) ∧ Char.ofNat byte = c := by
  obtain ⟨byte, hbyte, hc⟩ := List.mem_map.mp h
  obtain ⟨source, hsource, hbyte⟩ := List.mem_flatMap.mp hbyte
  exact ⟨byte, mem_escape (Utf8.lt_of_mem_encode hsource) hbyte, hc⟩

/-- No byte of an encoded component is part of the syntax of a query. -/
theorem not_mem_encode_encodeURIComponent {byte : ℕ} {s : List Char}
    (h : isUnreserved byte = false) (hpercent : byte ≠ 0x25) :
    byte ∉ Utf8.encode (encodeURIComponent s) := by
  rw [encode_encodeURIComponent]
  intro hbyte
  obtain ⟨source, hsource, hbyte⟩ := List.mem_flatMap.mp hbyte
  rcases mem_escape (Utf8.lt_of_mem_encode hsource) hbyte with hunreserved | rfl
  · rw [h] at hunreserved
    cases hunreserved
  · exact hpercent rfl

theorem component_encodeURIComponent (s : List Char) :
    component (Utf8.encode (encodeURIComponent s)) = s := by
  have hplus : (Utf8.encode (encodeURIComponent s)).map
      (fun byte => if byte = 0x2B then 0x20 else byte) = Utf8.encode (encodeURIComponent s) := by
    rw [List.map_congr_left (g := id), List.map_id]
    intro byte hbyte
    refine if_neg ?_
    rintro rfl
    exact not_mem_encode_encodeURIComponent rfl (by decide) hbyte
  rw [component, hplus, encode_encodeURIComponent,
    percentDecode_escapes fun byte => Utf8.lt_of_mem_encode, Utf8.decode_encode]

/-- A query of one encoded pair says what was encoded. -/
theorem get_encodeURIComponent (name s : List Char) :
    get (encodeURIComponent name ++ '=' :: encodeURIComponent s) name = some s := by
  have hencode : Utf8.encode (encodeURIComponent name ++ '=' :: encodeURIComponent s) =
      Utf8.encode (encodeURIComponent name) ++ 0x3D :: Utf8.encode (encodeURIComponent s) := by
    rw [Utf8.encode, List.flatMap_append]
    rfl
  have hsep : 0x26 ∉ Utf8.encode (encodeURIComponent name) ++
      0x3D :: Utf8.encode (encodeURIComponent s) := by
    rw [List.mem_append, List.mem_cons, not_or, not_or]
    exact ⟨not_mem_encode_encodeURIComponent rfl (by decide), by decide,
      not_mem_encode_encodeURIComponent rfl (by decide)⟩
  have hname : ∀ byte ∈ Utf8.encode (encodeURIComponent name), decide (byte ≠ 0x3D) = true := by
    intro byte hbyte
    refine decide_eq_true ?_
    rintro rfl
    exact not_mem_encode_encodeURIComponent rfl (by decide) hbyte
  have hparse : parse (encodeURIComponent name ++ '=' :: encodeURIComponent s) = [(name, s)] := by
    rw [parse, hencode, List.splitOn_eq_singleton hsep, List.filter_cons_of_pos (by simp),
      List.filter_nil, List.map_singleton, pair, List.takeWhile_append_of_pos hname,
      List.dropWhile_append_of_pos hname, List.takeWhile_cons_of_neg (by decide), List.append_nil,
      List.dropWhile_cons_of_neg (by decide), List.drop_one, List.tail_cons,
      component_encodeURIComponent, component_encodeURIComponent]
  rw [get, hparse, List.lookup_cons_self]

end Urlencoded
