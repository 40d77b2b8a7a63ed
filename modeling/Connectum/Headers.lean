import Connectum.JsString
import Mathlib.Logic.Function.Basic

/-! WHATWG header lists, seen through `get`, `set` and `delete`: one value for each normalized
name, several of one name being joined. -/
open JsString

/-- The code units of a token. -/
def isTokenCodeUnit (c : UInt16) : Bool :=
  isDigit c || isLetter c || (js "!#$%&'*+-.^_|~").contains c || c == 0x60

def isHeaderName (s : JsString) : Bool :=
  decide (s ≠ []) && s.all fun c => isTokenCodeUnit c && decide (toLower c = c)

/-- A byte sequence without NUL, LF and CR. -/
def isHeaderValue (s : JsString) : Bool :=
  s.all fun c => decide (c ≤ 0xFF ∧ c ≠ 0x00 ∧ c ≠ 0x0A ∧ c ≠ 0x0D)

/-- A header name, byte-lowercased. -/
def HeaderName := { s : JsString // isHeaderName s = true }

def HeaderValue := { s : JsString // isHeaderValue s = true }

instance : DecidableEq HeaderName := inferInstanceAs (DecidableEq { _s : JsString // _ })

instance : DecidableEq HeaderValue := inferInstanceAs (DecidableEq { _s : JsString // _ })

/-- `none` is a `TypeError`. -/
def HeaderName.ofJs (s : JsString) : Option HeaderName :=
  if h : isHeaderName (s.map toLower) = true then some ⟨_, h⟩ else none

def isHttpWhitespace (c : UInt16) : Bool := c == 0x09 || c == 0x0A || c == 0x0D || c == 0x20

def normalizeValue (s : JsString) : JsString :=
  (s.dropWhile isHttpWhitespace).rdropWhile isHttpWhitespace

/-- `none` is a `TypeError`. -/
def HeaderValue.ofJs (s : JsString) : Option HeaderValue :=
  if h : isHeaderValue (normalizeValue s) = true then some ⟨_, h⟩ else none

theorem HeaderValue.val_ofJs {s : JsString} {value : HeaderValue}
    (h : HeaderValue.ofJs s = some value) : value.val = normalizeValue s := by
  unfold HeaderValue.ofJs at h
  split at h
  · obtain rfl := Option.some.inj h
    rfl
  · cases h

abbrev Headers := HeaderName → Option HeaderValue

namespace Headers
variable {headers out : Headers} {n : HeaderName} {v : JsString}

def get (headers : Headers) (n : HeaderName) : Option JsString := (headers n).map Subtype.val

def delete (headers : Headers) (n : HeaderName) : Headers := Function.update headers n none

def set (headers : Headers) (n : HeaderName) (v : JsString) : Option Headers :=
  (HeaderValue.ofJs v).map fun value => Function.update headers n (some value)

/-- `delete` for each of several names. -/
def deleteEach (headers : Headers) : List JsString → Option Headers
  | [] => some headers
  | s :: names =>
    match HeaderName.ofJs s with
    | none => none
    | some n => deleteEach (headers.delete n) names

/-- Several `set` calls, the first `TypeError` ending them. -/
def setEach (headers : Headers) : List (HeaderName × JsString) → Option Headers
  | [] => some headers
  | (n, v) :: writes =>
    match headers.set n v with
    | none => none
    | some headers => setEach headers writes

@[simp] theorem delete_self : headers.delete n n = none := Function.update_self ..

theorem delete_of_ne {m : HeaderName} (h : m ≠ n) : headers.delete n m = headers m :=
  Function.update_of_ne h ..

theorem deleteEach_cons {s : JsString} {names : List JsString} :
    deleteEach headers (s :: names) = some out ↔
      ∃ n, HeaderName.ofJs s = some n ∧ deleteEach (headers.delete n) names = some out := by
  simp only [deleteEach]
  cases HeaderName.ofJs s <;> simp

/-- No name appears, and the deleted ones are gone. -/
theorem deleteEach_none {names : List JsString} (h : deleteEach headers names = some out)
    (hn : headers n = none) : out n = none := by
  induction names generalizing headers with
  | nil =>
    obtain rfl := Option.some.inj h
    exact hn
  | cons s names ih =>
    obtain ⟨m, -, h⟩ := deleteEach_cons.mp h
    apply ih h
    by_cases hm : n = m
    · rw [hm, delete_self]
    · rw [delete_of_ne hm, hn]

theorem deleteEach_of_mem {names : List JsString} {s : JsString}
    (h : deleteEach headers names = some out) (hs : s ∈ names)
    (hn : HeaderName.ofJs s = some n) : out n = none := by
  induction names generalizing headers with
  | nil => exact absurd hs List.not_mem_nil
  | cons s' names ih =>
    obtain ⟨m, hm, hdelete⟩ := deleteEach_cons.mp h
    rcases List.mem_cons.mp hs with rfl | hs
    · obtain rfl := Option.some.inj (hm.symm.trans hn)
      exact deleteEach_none hdelete delete_self
    · exact ih hdelete hs

theorem deleteEach_of_notMem {names : List JsString} (h : deleteEach headers names = some out)
    (hn : ∀ s ∈ names, HeaderName.ofJs s ≠ some n) : out n = headers n := by
  induction names generalizing headers with
  | nil =>
    obtain rfl := Option.some.inj h
    rfl
  | cons s names ih =>
    obtain ⟨m, hm, h⟩ := deleteEach_cons.mp h
    have hne : n ≠ m := fun hnm => hn s List.mem_cons_self (hnm ▸ hm)
    rw [ih h fun s hs => hn s (List.mem_cons_of_mem _ hs), delete_of_ne hne]

/-- Whether the names are valid does not depend on the header list. -/
theorem deleteEach_of_deleteEach (headers' : Headers) {names : List JsString}
    (h : deleteEach headers names = some out) : ∃ out', deleteEach headers' names = some out' := by
  induction names generalizing headers headers' with
  | nil => exact ⟨headers', rfl⟩
  | cons s names ih =>
    obtain ⟨n, hn, h⟩ := deleteEach_cons.mp h
    obtain ⟨out', hout⟩ := ih (headers'.delete n) h
    exact ⟨out', deleteEach_cons.mpr ⟨n, hn, hout⟩⟩

theorem set_eq_some :
    headers.set n v = some out ↔
      ∃ value, HeaderValue.ofJs v = some value ∧ out = Function.update headers n (some value) := by
  simp [set, eq_comm]

theorem setEach_cons {writes : List (HeaderName × JsString)} :
    setEach headers ((n, v) :: writes) = some out ↔
      ∃ value, HeaderValue.ofJs v = some value ∧
        setEach (Function.update headers n (some value)) writes = some out := by
  simp only [setEach]
  cases hs : headers.set n v with
  | none =>
    have hv : HeaderValue.ofJs v = none := by simpa [set] using hs
    simp [hv]
  | some h =>
    obtain ⟨value, hv, rfl⟩ := set_eq_some.mp hs
    simp [hv]

/-- A name that is not written keeps its value. -/
theorem setEach_of_notMem {writes : List (HeaderName × JsString)}
    (h : setEach headers writes = some out) (hn : n ∉ writes.map Prod.fst) :
    out n = headers n := by
  induction writes generalizing headers with
  | nil =>
    obtain rfl := Option.some.inj h
    rfl
  | cons write writes ih =>
    obtain ⟨value, -, h⟩ := setEach_cons.mp h
    rw [List.map_cons, List.mem_cons, not_or] at hn
    rw [ih h hn.2, Function.update_of_ne hn.1]

/-- A name that is written once has the value that was written. -/
theorem setEach_of_mem {writes : List (HeaderName × JsString)}
    (h : setEach headers writes = some out) (hnodup : (writes.map Prod.fst).Nodup)
    (hmem : (n, v) ∈ writes) : out n = HeaderValue.ofJs v := by
  induction writes generalizing headers with
  | nil => exact absurd hmem List.not_mem_nil
  | cons write writes ih =>
    obtain ⟨value, hvalue, h⟩ := setEach_cons.mp h
    obtain ⟨hnot, hnodup⟩ := List.nodup_cons.mp hnodup
    rcases List.mem_cons.mp hmem with rfl | hmem
    · rw [setEach_of_notMem h hnot, Function.update_self, hvalue]
    · exact ih h hnodup hmem

theorem setEach_eq_none {writes : List (HeaderName × JsString)} :
    setEach headers writes = none ↔ ∃ write ∈ writes, HeaderValue.ofJs write.2 = none := by
  induction writes generalizing headers with
  | nil => simp [setEach]
  | cons write writes ih =>
    cases hvalue : HeaderValue.ofJs write.2 with
    | none => simp [setEach, set, hvalue]
    | some value => simp [setEach, set, hvalue, ih]

/-- Whether the writes succeed depends on the written values only. -/
theorem setEach_of_setEach (headers' : Headers) {writes : List (HeaderName × JsString)}
    (h : setEach headers writes = some out) : ∃ out', setEach headers' writes = some out' := by
  induction writes generalizing headers headers' with
  | nil => exact ⟨headers', rfl⟩
  | cons write writes ih =>
    obtain ⟨value, hvalue, h⟩ := setEach_cons.mp h
    obtain ⟨out', hout⟩ := ih (Function.update headers' write.1 (some value)) h
    exact ⟨out', setEach_cons.mpr ⟨value, hvalue, hout⟩⟩

end Headers
