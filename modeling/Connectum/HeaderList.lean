import Connectum.Headers
import Mathlib.Data.List.Dedup
import Mathlib.Data.List.Sort

/-! WHATWG header lists entry by entry, with the values of one name apart and the iteration that
combines them. -/
open JsString

theorem toLower_of_isHeaderName {s : JsString} (h : isHeaderName s = true) : s.map toLower = s := by
  unfold isHeaderName at h
  obtain ⟨-, hall⟩ := Bool.and_eq_true_iff.mp h
  have hid : ∀ c ∈ s, toLower c = id c := by
    intro c hc
    have htoken := List.all_eq_true.mp hall c hc
    exact of_decide_eq_true (Bool.and_eq_true_iff.mp htoken).2
  rw [List.map_congr_left hid, List.map_id]

@[simp] theorem HeaderName.ofJs_val (n : HeaderName) : HeaderName.ofJs n.val = some n := by
  have hlower := toLower_of_isHeaderName n.property
  unfold HeaderName.ofJs
  rw [dif_pos (by rw [hlower]; exact n.property)]
  exact congrArg some (Subtype.ext hlower)

theorem isHeaderValue_normalizeValue {s : JsString} (h : isHeaderValue s = true) :
    isHeaderValue (normalizeValue s) = true := by
  unfold isHeaderValue at h ⊢
  rw [List.all_eq_true] at h ⊢
  intro c hc
  apply h
  unfold normalizeValue at hc
  exact (List.dropWhile_sublist _).subset ((List.rdropWhile_prefix _ _).subset hc)

theorem HeaderValue.exists_ofJs {s : JsString} (h : isHeaderValue s = true) :
    ∃ value, HeaderValue.ofJs s = some value ∧ value.val = normalizeValue s :=
  ⟨_, dif_pos (isHeaderValue_normalizeValue h), rfl⟩

abbrev HeaderList := List (HeaderName × HeaderValue)

namespace HeaderList
variable {list out : HeaderList} {n m : HeaderName} {v : HeaderValue}

def values (list : HeaderList) (n : HeaderName) : List JsString :=
  (list.filter fun e => e.1 = n).map fun e => e.2.val

/-- `headers.get(name)`, with `none` for `null`. -/
def get (list : HeaderList) (n : HeaderName) : Option JsString :=
  if values list n = [] then none else some ((js ", ").intercalate (values list n))

/-- `none` is a `TypeError`. -/
def append (list : HeaderList) (name value : JsString) : Option HeaderList := do
  let n ← HeaderName.ofJs name
  let v ← HeaderValue.ofJs value
  some (list ++ [(n, v)])

/-- The first value of the name is replaced and the others are removed. -/
def put : HeaderList → HeaderName → HeaderValue → HeaderList
  | [], n, v => [(n, v)]
  | e :: rest, n, v =>
    if e.1 = n then (n, v) :: rest.filter fun e => e.1 ≠ n else e :: put rest n v

/-- `none` is a `TypeError`. -/
def set (list : HeaderList) (name value : JsString) : Option HeaderList := do
  let n ← HeaderName.ofJs name
  let v ← HeaderValue.ofJs value
  some (put list n v)

/-- `new Headers(init)` of the pairs that `init` is iterated as. -/
def fill (init : List (JsString × JsString)) : Option HeaderList :=
  init.foldlM (fun list e => list.append e.1 e.2) []

def names (list : HeaderList) : List HeaderName :=
  (list.map Prod.fst).dedup.insertionSort fun n n' => n.val ≤ n'.val

def setCookie : HeaderName := ⟨js "set-cookie", by decide⟩

/-- The pairs that the header list is iterated as. -/
def entries (list : HeaderList) : List (HeaderName × JsString) :=
  list.names.flatMap fun n =>
    if n = setCookie then (list.values n).map fun s => (n, s)
    else (list.get n).toList.map fun s => (n, s)

/-- Several `set` calls, the first `TypeError` ending them. -/
def setEach (list : HeaderList) (writes : List (HeaderName × JsString)) : Option HeaderList :=
  writes.foldlM (fun list e => list.set e.1.val e.2) list

theorem values_put_self : values (put list n v) n = [v.val] := by
  induction list with
  | nil => simp [put, values]
  | cons e rest ih =>
    unfold put
    split
    next => simp [values]
    next hne =>
      unfold values at ih ⊢
      rw [List.filter_cons_of_neg (by simpa using hne), ih]

theorem values_put_of_ne (h : m ≠ n) : values (put list n v) m = values list m := by
  induction list with
  | nil => simp [put, values, h.symm]
  | cons e rest ih =>
    unfold values at ih ⊢
    unfold put
    split
    next heq =>
      have hboth : (rest.filter fun e => e.1 ≠ n).filter (fun e => e.1 = m) =
          rest.filter fun e => e.1 = m := by
        rw [List.filter_filter]
        apply List.filter_congr
        intro e _
        by_cases he : e.1 = m <;> simp [he, h]
      rw [List.filter_cons_of_neg (by simpa using h.symm), hboth,
        List.filter_cons_of_neg (by simpa [heq] using h.symm)]
    next =>
      rw [List.filter_cons, List.filter_cons]
      split
      · rw [List.map_cons, List.map_cons, ih]
      · exact ih

@[simp] theorem get_put_self : get (put list n v) n = some v.val := by
  rw [get, values_put_self, if_neg (List.cons_ne_nil _ _), List.intercalate_singleton]

theorem get_put_of_ne (h : m ≠ n) : get (put list n v) m = get list m := by
  rw [get, get, values_put_of_ne h]

theorem isHeaderValue_intercalate {parts : List JsString}
    (h : ∀ s ∈ parts, isHeaderValue s = true) :
    isHeaderValue ((js ", ").intercalate parts) = true := by
  unfold isHeaderValue at h ⊢
  apply List.all_eq_true.mpr
  have hcomma : isHeaderValue (js ", ") = true := by decide
  apply (forall_mem_intercalate (List.all_eq_true.mp hcomma)).mpr
  exact fun s hs => List.all_eq_true.mp (h s hs)

theorem isHeaderValue_of_mem_values {s : JsString} (h : s ∈ values list n) :
    isHeaderValue s = true := by
  obtain ⟨e, -, rfl⟩ := List.mem_map.mp h
  exact e.2.property

/-- What is read from a header list may be written into one. -/
theorem isHeaderValue_of_get {s : JsString} (h : get list n = some s) : isHeaderValue s = true := by
  unfold get at h
  split at h
  next => cases h
  next =>
    obtain rfl := Option.some.inj h
    exact isHeaderValue_intercalate fun s hs => isHeaderValue_of_mem_values hs

theorem get_eq_none : get list n = none ↔ n ∉ list.map Prod.fst := by
  unfold get values
  rw [← not_iff_not, not_not]
  simp [List.filter_eq_nil_iff]

theorem mem_names : n ∈ list.names ↔ n ∈ list.map Prod.fst := by
  rw [names, List.mem_insertionSort, List.mem_dedup]

theorem entries_nil : entries [] = [] := rfl

theorem mem_entries {s : JsString} (hn : n ≠ setCookie) :
    (n, s) ∈ list.entries ↔ list.get n = some s := by
  unfold entries
  rw [List.mem_flatMap]
  constructor
  · rintro ⟨m, -, hmem⟩
    split at hmem
    next hm =>
      obtain ⟨_, -, heq⟩ := List.mem_map.mp hmem
      exact absurd ((congrArg Prod.fst heq).symm.trans hm) hn
    next =>
      obtain ⟨_, hget, heq⟩ := List.mem_map.mp hmem
      cases heq
      exact Option.mem_toList.mp hget
  · intro hget
    have hname : n ∈ list.names := by
      rw [mem_names]
      by_contra hnone
      rw [get_eq_none.mpr hnone] at hget
      cases hget
    refine ⟨n, hname, ?_⟩
    rw [if_neg hn, hget]
    exact List.mem_cons_self

/-- The values that are iterated may be written. -/
theorem isHeaderValue_of_mem_entries {e : HeaderName × JsString} (h : e ∈ list.entries) :
    isHeaderValue e.2 = true := by
  unfold entries at h
  obtain ⟨m, -, hmem⟩ := List.mem_flatMap.mp h
  split at hmem
  next =>
    obtain ⟨s, hs, rfl⟩ := List.mem_map.mp hmem
    exact isHeaderValue_of_mem_values hs
  next =>
    obtain ⟨s, hs, rfl⟩ := List.mem_map.mp hmem
    exact isHeaderValue_of_get (Option.mem_toList.mp hs)

theorem set_val (s : JsString) :
    list.set n.val s = (HeaderValue.ofJs s).map fun v => list.put n v := by
  rw [set, HeaderName.ofJs_val]
  cases HeaderValue.ofJs s <;> rfl

theorem setEach_cons {s : JsString} {writes : List (HeaderName × JsString)} :
    setEach list ((n, s) :: writes) =
      (HeaderValue.ofJs s).bind fun v => setEach (list.put n v) writes := by
  rw [setEach, List.foldlM_cons, set_val]
  cases HeaderValue.ofJs s <;> rfl

/-- Where every write of a name has one value, this is the value it ends with. -/
theorem get_setEach {writes : List (HeaderName × JsString)} {s : JsString}
    (h : setEach list writes = some out) (hvalue : ∀ s', (n, s') ∈ writes → s' = s) :
    out.get n = if n ∈ writes.map Prod.fst then some (normalizeValue s) else list.get n := by
  induction writes generalizing list with
  | nil =>
    obtain rfl := Option.some.inj h
    rw [if_neg (by simp)]
  | cons e writes ih =>
    rw [setEach_cons] at h
    obtain ⟨v, hv, hrest⟩ := Option.bind_eq_some_iff.mp h
    rw [ih hrest fun s' hs' => hvalue s' (List.mem_cons_of_mem _ hs'), List.map_cons]
    by_cases hn : n = e.1
    · have hs : e.2 = s := hvalue e.2 (by rw [hn]; exact List.mem_cons_self)
      have hput : (list.put e.1 v).get n = some (normalizeValue s) := by
        rw [hn, get_put_self, HeaderValue.val_ofJs hv, hs]
      rw [hput, ite_self, if_pos (List.mem_cons.mpr (.inl hn))]
    · have hmem : n ∈ e.1 :: writes.map Prod.fst ↔ n ∈ writes.map Prod.fst := by
        rw [List.mem_cons, or_iff_right hn]
      rw [get_put_of_ne hn, if_congr hmem rfl rfl]

theorem exists_setEach (list : HeaderList) {writes : List (HeaderName × JsString)}
    (h : ∀ e ∈ writes, isHeaderValue e.2 = true) : ∃ out, setEach list writes = some out := by
  induction writes generalizing list with
  | nil => exact ⟨list, rfl⟩
  | cons e writes ih =>
    obtain ⟨v, hv, -⟩ := HeaderValue.exists_ofJs (h e List.mem_cons_self)
    obtain ⟨out, hout⟩ := ih (list.put e.1 v) fun e' he' => h e' (List.mem_cons_of_mem _ he')
    refine ⟨out, ?_⟩
    rw [setEach_cons, hv]
    exact hout

theorem exists_setEach_entries (explicit list : HeaderList) :
    ∃ out, setEach list explicit.entries = some out :=
  exists_setEach list fun _ he => isHeaderValue_of_mem_entries he

/-- The iterated values replace those that are there. -/
theorem get_setEach_entries {explicit : HeaderList} (h : setEach list explicit.entries = some out)
    (hn : n ≠ setCookie) :
    out.get n = ((explicit.get n).map normalizeValue).or (list.get n) := by
  cases hget : explicit.get n with
  | none =>
    have hnot : n ∉ explicit.entries.map Prod.fst := by
      intro hmem
      obtain ⟨⟨m, s⟩, he, rfl⟩ := List.mem_map.mp hmem
      rw [(mem_entries hn).mp he] at hget
      cases hget
    have hnone : ∀ s', (n, s') ∈ explicit.entries → s' = [] := fun s' hs' =>
      absurd (List.mem_map_of_mem (f := Prod.fst) hs') hnot
    rw [get_setEach h hnone, if_neg hnot]
    rfl
  | some s =>
    have hmem := (mem_entries hn).mpr hget
    have hvalue : ∀ s', (n, s') ∈ explicit.entries → s' = s := by
      intro s' hs'
      rw [mem_entries hn, hget] at hs'
      exact (Option.some.inj hs').symm
    rw [get_setEach h hvalue, if_pos (List.mem_map_of_mem (f := Prod.fst) hmem)]
    rfl

theorem append_eq_none {name value : JsString} : list.append name value = none ↔
    HeaderName.ofJs name = none ∨ HeaderValue.ofJs value = none := by
  unfold append
  cases HeaderName.ofJs name <;> cases HeaderValue.ofJs value <;> simp

/-- `new Headers(init)` throws if and only if a name or a value is not valid. -/
theorem fill_eq_none {init : List (JsString × JsString)} : fill init = none ↔
    ∃ e ∈ init, HeaderName.ofJs e.1 = none ∨ HeaderValue.ofJs e.2 = none := by
  unfold fill
  generalize ([] : HeaderList) = list
  induction init generalizing list with
  | nil => simp
  | cons e init ih =>
    rw [List.foldlM_cons, List.exists_mem_cons_iff, ← @append_eq_none list]
    cases append list e.1 e.2 with
    | none => simp
    | some list₁ => simpa using ih list₁

end HeaderList
