import Connectum.Auth.TrustSource
import Connectum.JsDecimal

/-! Ranges of 32-bit addresses: the texts that are read as an address or a range, and those that
are well formed. -/
namespace Connectum.Auth
open JsString JsNumber

/-- The `p` most significant bits are equal. -/
def SamePrefix (p : ℕ) (a n : BitVec 32) : Prop := ∀ i < p, a.getMsbD i = n.getMsbD i

def octet (a : BitVec 32) (shift : ℕ) : ℕ := a.toNat / 2 ^ shift % 256

/-- The canonical text of an address. -/
def dottedQuad (a : BitVec 32) : JsString :=
  (js ".").intercalate [decimal (octet a 24), decimal (octet a 16), decimal (octet a 8),
    decimal (octet a 0)]

/-- The address that `Number` reads from four fields. -/
def readAddress (s : JsString) : Option (BitVec 32) :=
  match (s.splitOn (unit '.')).map number with
  | [a, b, c, d] =>
    if [a, b, c, d].all isValidOctet then some (.ofNat 32 (ipInt a b c d)) else none
  | _ => none

variable {a n : BitVec 32} {p shift : ℕ}

/-! ### Bits -/

theorem toInt32_natCast (k : ℕ) : toInt32 (.finite k) = BitVec.ofNat 32 k := by
  simp [toInt32]

theorem getLsbD_octet (a : BitVec 32) (shift : ℕ) {i : ℕ} (hi : i < 32) :
    (BitVec.ofNat 32 (octet a shift) <<< shift).getLsbD i =
      (decide (shift ≤ i ∧ i < shift + 8) && a.getLsbD i) := by
  rw [BitVec.getLsbD_shiftLeft, BitVec.getLsbD_ofNat, octet, Nat.testBit_mod_two_pow (j := 8),
    Nat.testBit_div_two_pow]
  by_cases hle : shift ≤ i
  · have hlt : i - shift < 32 := by omega
    have hlast : i - shift < 8 ↔ i < shift + 8 := by omega
    simp [hi, hle, hlt, hlast, BitVec.getLsbD]
  · simp [hle, Nat.lt_of_not_le hle]

theorem ipInt_octets (a : BitVec 32) :
    BitVec.ofNat 32 (ipInt (.finite (octet a 24)) (.finite (octet a 16)) (.finite (octet a 8))
      (.finite (octet a 0))) = a := by
  have hlow : BitVec.ofNat 32 (octet a 0) = BitVec.ofNat 32 (octet a 0) <<< 0 :=
    (BitVec.shiftLeft_zero _).symm
  rw [ipInt, toInt32_natCast, toInt32_natCast, toInt32_natCast, toInt32_natCast,
    BitVec.ofNat_toNat, BitVec.setWidth_eq, hlow]
  apply BitVec.eq_of_getLsbD_eq
  intro i hi
  simp only [BitVec.getLsbD_or, getLsbD_octet a _ hi]
  -- the four octets cover the 32 bits
  cases a.getLsbD i with
  | false => simp
  | true =>
    simp only [Bool.and_true, Bool.or_eq_true, decide_eq_true_eq]
    omega

theorem getLsbD_prefixMask (hp : p ≤ 32) {i : ℕ} (hi : i < 32) :
    (BitVec.ofNat 32 (prefixMask p)).getLsbD i = decide (32 - p ≤ i) := by
  rw [prefixMask]
  split
  next hzero =>
    obtain rfl : p = 0 := by omega
    have hle : ¬ 32 - 0 ≤ i := by omega
    rw [decide_eq_false hle, BitVec.getLsbD_ofNat, Nat.zero_testBit, Bool.and_false]
  next hzero =>
    have hshift : (32 - (p : ℤ)).toNat % 32 = 32 - p := by omega
    rw [hshift, BitVec.ofNat_toNat, BitVec.setWidth_eq, BitVec.getLsbD_shiftLeft,
      BitVec.getLsbD_not]
    by_cases hle : 32 - p ≤ i
    · have hlt : i - (32 - p) < 32 := by omega
      simp [hi, hlt, hle]
    · simp [hle, Nat.lt_of_not_le hle]

/-- Two addresses with the same masked bits have the same first bits. -/
theorem bitAnd_prefixMask_eq_iff (hp : p ≤ 32) {x y : ℕ} :
    bitAnd x (prefixMask p) = bitAnd y (prefixMask p) ↔
      SamePrefix p (.ofNat 32 x) (.ofNat 32 y) := by
  rw [bitAnd, bitAnd, BitVec.toInt_inj]
  constructor
  · intro h i hi
    have hbit := congrArg (fun v : BitVec 32 => v.getLsbD (31 - i)) h
    simp only [BitVec.getLsbD_and, getLsbD_prefixMask hp (by omega : 31 - i < 32)] at hbit
    rw [BitVec.getMsbD_eq_getLsbD, BitVec.getMsbD_eq_getLsbD]
    have hle : 32 - p ≤ 31 - i := by omega
    have hlt : i < 32 := by omega
    simpa [hle, hlt] using hbit
  · intro h
    apply BitVec.eq_of_getLsbD_eq
    intro i hi
    rw [BitVec.getLsbD_and, BitVec.getLsbD_and, getLsbD_prefixMask hp hi]
    by_cases hle : 32 - p ≤ i
    · have hbit := h (31 - i) (by omega)
      rw [BitVec.getMsbD_eq_getLsbD, BitVec.getMsbD_eq_getLsbD] at hbit
      have hindex : 32 - 1 - (31 - i) = i := by omega
      rw [hindex] at hbit
      have hlt : 31 - i < 32 := by omega
      simp only [hlt, decide_true, Bool.true_and] at hbit
      rw [hbit]
    · simp [hle]

/-! ### Texts -/

theorem octet_lt : octet a shift < 256 := Nat.mod_lt _ (by omega)

theorem isValidOctet_natCast {k : ℕ} (hk : k < 256) : isValidOctet (.finite k) = true := by
  have hle : (k : ℚ) ≤ 255 := by exact_mod_cast Nat.le_of_lt_succ hk
  simp [isValidOctet, isInteger, between, hle]

theorem dot_notMem_decimal (k : ℕ) : unit '.' ∉ decimal k := fun hmem =>
  absurd (isDigit_of_mem_decimal hmem) (by decide)

theorem slash_notMem_decimal (k : ℕ) : unit '/' ∉ decimal k := fun hmem =>
  absurd (isDigit_of_mem_decimal hmem) (by decide)

theorem splitOn_dottedQuad (a : BitVec 32) :
    (dottedQuad a).splitOn (unit '.') = [decimal (octet a 24), decimal (octet a 16),
      decimal (octet a 8), decimal (octet a 0)] := by
  have hdot : js "." = [unit '.'] := by decide
  rw [dottedQuad, hdot]
  apply List.splitOn_intercalate
  · simp [dot_notMem_decimal]
  · simp

theorem slash_notMem_dottedQuad (a : BitVec 32) : unit '/' ∉ dottedQuad a := by
  have hdot : js "." = [unit '.'] := by decide
  have hne : unit '/' ≠ unit '.' := by decide
  simp [dottedQuad, hdot, List.intercalate, slash_notMem_decimal, hne]

theorem number_octet (a : BitVec 32) (shift : ℕ) :
    number (decimal (octet a shift)) = .finite (octet a shift) :=
  number_numeral (isNumeral_decimal _) (octet_lt.le.trans (by norm_num))

theorem readAddress_dottedQuad (a : BitVec 32) : readAddress (dottedQuad a) = some a := by
  have hvalid (shift : ℕ) : isValidOctet (.finite (octet a shift)) = true :=
    isValidOctet_natCast octet_lt
  rw [readAddress, splitOn_dottedQuad]
  simp only [List.map_cons, List.map_nil, number_octet]
  rw [if_pos (by simp [hvalid]), ipInt_octets]

theorem readAddress_eq_some {s : JsString} :
    readAddress s = some a ↔ ∃ p0 p1 p2 p3, (s.splitOn (unit '.')).map number = [p0, p1, p2, p3] ∧
      [p0, p1, p2, p3].all isValidOctet = true ∧ a = .ofNat 32 (ipInt p0 p1 p2 p3) := by
  unfold readAddress
  constructor
  · intro h
    split at h
    next p0 p1 p2 p3 hfields =>
      split at h
      next hvalid => exact ⟨p0, p1, p2, p3, hfields, hvalid, (Option.some.inj h).symm⟩
      next => cases h
    next => cases h
  · rintro ⟨p0, p1, p2, p3, hfields, hvalid, rfl⟩
    rw [hfields]
    exact if_pos hvalid

/-- Whether a range covers an address depends on the addresses and the length that are read. -/
theorem matchesCidr_iff {address network prefixStr : JsString} :
    matchesCidr address network prefixStr = true ↔
      ∃ a n, readAddress address = some a ∧ readAddress network = some n ∧
        ∃ p : ℕ, parseInt prefixStr = some (p : ℤ) ∧ p ≤ 32 ∧ SamePrefix p a n := by
  constructor
  · intro h
    unfold matchesCidr at h
    split at h
    · cases h
    split at h
    · cases h
    next length hlength =>
      split at h
      · cases h
      next hbounds =>
        rw [not_or, not_lt, not_lt] at hbounds
        obtain ⟨p, rfl⟩ := Int.eq_ofNat_of_zero_le hbounds.1
        have hp : p ≤ 32 := by omega
        split at h
        next p0 p1 p2 p3 n0 n1 n2 n3 haddress hnetwork =>
          simp only [Bool.and_eq_true, decide_eq_true_eq] at h
          obtain ⟨⟨hpeer, hrange⟩, hbits⟩ := h
          exact ⟨_, _, readAddress_eq_some.mpr ⟨p0, p1, p2, p3, haddress, hpeer, rfl⟩,
            readAddress_eq_some.mpr ⟨n0, n1, n2, n3, hnetwork, hrange, rfl⟩,
            p, hlength, hp, (bitAnd_prefixMask_eq_iff hp).mp hbits⟩
        next => cases h
  · rintro ⟨a, n, haddress, hnetwork, p, hlength, hp, hsame⟩
    have hnetworkNe : network ≠ [] := by
      rintro rfl
      simp [readAddress] at hnetwork
    have hprefixNe : prefixStr ≠ [] := by
      rintro rfl
      simp [parseInt, takeSign] at hlength
    obtain ⟨p0, p1, p2, p3, hpeers, hpeer, rfl⟩ := readAddress_eq_some.mp haddress
    obtain ⟨n0, n1, n2, n3, hranges, hrange, rfl⟩ := readAddress_eq_some.mp hnetwork
    have hbounds : ¬ ((p : ℤ) < 0 ∨ 32 < (p : ℤ)) := by omega
    rw [matchesCidr, if_neg (by simp [hnetworkNe, hprefixNe]), hlength]
    dsimp only
    rw [if_neg hbounds, hpeers, hranges]
    simp only [hpeer, hrange, Bool.true_and, decide_eq_true_eq]
    exact (bitAnd_prefixMask_eq_iff hp).mpr hsame

theorem splitOn_range {network prefixStr : JsString} (hnetwork : unit '/' ∉ network)
    (hbits : unit '/' ∉ prefixStr) :
    (network ++ js "/" ++ prefixStr).splitOn (unit '/') = [network, prefixStr] := by
  have hslash : js "/" = [unit '/'] := by decide
  rw [hslash, List.append_assoc, List.singleton_append,
    List.splitOn_append_cons_self_of_not_mem hnetwork, List.splitOn_eq_singleton hbits]

/-- A range of canonical texts covers exactly the addresses with the first bits of its own. -/
theorem matchesIp_iff (a n : BitVec 32) {p : ℕ} (hp : p ≤ 32) :
    matchesIp (dottedQuad a) (dottedQuad n ++ js "/" ++ decimal p) = true ↔ SamePrefix p a n := by
  have hslash : unit '/' ∈ dottedQuad n ++ js "/" ++ decimal p := by
    have hmem : unit '/' ∈ js "/" := by decide
    simp [hmem]
  have hne : dottedQuad a ≠ dottedQuad n ++ js "/" ++ decimal p := by
    intro heq
    rw [← heq] at hslash
    exact slash_notMem_dottedQuad a hslash
  rw [matchesIp, if_neg hne, if_pos hslash,
    splitOn_range (slash_notMem_dottedQuad n) (slash_notMem_decimal p)]
  dsimp only
  rw [matchesCidr_iff, readAddress_dottedQuad, readAddress_dottedQuad,
    parseInt_numeral (isNumeral_decimal p)]
  constructor
  · rintro ⟨a', n', ha, hn, q, hq, -, hsame⟩
    obtain rfl := Option.some.inj ha
    obtain rfl := Option.some.inj hn
    obtain rfl : p = q := by exact_mod_cast Option.some.inj hq
    exact hsame
  · exact fun hsame => ⟨a, n, rfl, rfl, p, rfl, hp, hsame⟩

theorem matchesIp_iff_private :
    matchesIp (js "192.168.1.2") (js "192.168.0.0/16") = true ↔
      SamePrefix 16 0xC0A80102#32 0xC0A80000#32 := by
  have haddress : dottedQuad 0xC0A80102#32 = js "192.168.1.2" := by decide
  have hrange : dottedQuad 0xC0A80000#32 ++ js "/" ++ decimal 16 = js "192.168.0.0/16" := by decide
  rw [← haddress, ← hrange]
  exact matchesIp_iff _ _ (by decide)

/-! ### Trust -/

/-- What is read from the header lies in the range that is read from the expected value. What
follows a second slash is not read. -/
def ReadInRange (header expected : JsString) : Prop :=
  ∃ network prefixStr rest, expected.splitOn (unit '/') = network :: prefixStr :: rest ∧
    ∃ a n, readAddress header = some a ∧ readAddress network = some n ∧
      ∃ p : ℕ, parseInt prefixStr = some (p : ℤ) ∧ p ≤ 32 ∧ SamePrefix p a n

/-- A canonical address, and a range of a canonical address, a slash and a decimal length. -/
def WellFormed (header expected : JsString) : Prop :=
  ∃ a n prefixStr p, header = dottedQuad a ∧ expected = dottedQuad n ++ js "/" ++ prefixStr ∧
    IsNumeral prefixStr p ∧ p ≤ 32

/-- The well-formed header lies in the well-formed range. -/
def InRange (header expected : JsString) : Prop :=
  ∃ a n prefixStr p, header = dottedQuad a ∧ expected = dottedQuad n ++ js "/" ++ prefixStr ∧
    IsNumeral prefixStr p ∧ p ≤ 32 ∧ SamePrefix p a n

/-- A header and a range in other spellings that are read as an address in a range. -/
def Misspelt (header expected : JsString) : Prop :=
  ReadInRange header expected ∧ ¬ WellFormed header expected

/-- The header is one of the expected values, or lies in one of them. -/
def IsExpected (header : JsString) (expectedValues : List JsString) : Prop :=
  header ∈ expectedValues ∨ ∃ expected ∈ expectedValues, InRange header expected

variable {header expected : JsString} {expectedValues : List JsString}

theorem matchesIp_iff_read :
    matchesIp header expected = true ↔ header = expected ∨ ReadInRange header expected := by
  unfold matchesIp ReadInRange
  by_cases heq : header = expected
  · simp [heq]
  rw [if_neg heq]
  by_cases hslash : unit '/' ∈ expected
  · rw [if_pos hslash]
    constructor
    · intro h
      split at h
      next network prefixStr rest hsplit =>
        exact .inr ⟨network, prefixStr, rest, hsplit, matchesCidr_iff.mp h⟩
      next => cases h
    · rintro (h | ⟨network, prefixStr, rest, hsplit, h⟩)
      · exact absurd h heq
      · rw [hsplit]
        exact matchesCidr_iff.mpr h
  · rw [if_neg hslash, List.splitOn_eq_singleton hslash]
    simp [heq]

theorem isTrusted_iff :
    isTrusted header expectedValues = true ↔
      header ∈ expectedValues ∨ ∃ expected ∈ expectedValues, ReadInRange header expected := by
  have hslash {expected : JsString} (h : ReadInRange header expected) : unit '/' ∈ expected := by
    by_contra hnot
    obtain ⟨network, prefixStr, rest, hsplit, -⟩ := h
    rw [List.splitOn_eq_singleton hnot] at hsplit
    simp at hsplit
  simp only [isTrusted, List.any_eq_true, Bool.or_eq_true, Bool.and_eq_true, decide_eq_true_eq,
    matchesIp_iff_read]
  constructor
  · rintro ⟨expected, hmem, rfl | ⟨-, rfl | h⟩⟩
    · exact .inl hmem
    · exact .inl hmem
    · exact .inr ⟨expected, hmem, h⟩
  · rintro (hmem | ⟨expected, hmem, h⟩)
    · exact ⟨header, hmem, .inl rfl⟩
    · exact ⟨expected, hmem, .inr ⟨hslash h, .inr h⟩⟩

theorem slash_notMem_numeral {s : JsString} (h : IsNumeral s p) : unit '/' ∉ s := fun hmem =>
  absurd (h.digits _ hmem) (by decide)

/-- Well-formed texts are read as what they say. -/
theorem WellFormed.inRange (hwell : WellFormed header expected)
    (hread : ReadInRange header expected) : InRange header expected := by
  obtain ⟨a, n, prefixStr, p, rfl, rfl, hbits, hp⟩ := hwell
  obtain ⟨network, prefixStr', rest, hsplit, a', n', ha, hn, q, hq, -, hsame⟩ := hread
  rw [splitOn_range (slash_notMem_dottedQuad n) (slash_notMem_numeral hbits)] at hsplit
  simp only [List.cons.injEq] at hsplit
  obtain ⟨rfl, rfl, -⟩ := hsplit
  rw [readAddress_dottedQuad] at ha hn
  rw [parseInt_numeral hbits] at hq
  obtain rfl := Option.some.inj ha
  obtain rfl := Option.some.inj hn
  obtain rfl : p = q := by exact_mod_cast Option.some.inj hq
  exact ⟨a, n, prefixStr, p, rfl, rfl, hbits, hp, hsame⟩

end Connectum.Auth
