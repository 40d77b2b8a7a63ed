import Connectum.HeaderList
import Connectum.JsNumber

/-! The frame of a call out of a handler: deadline and headers of the inbound request, with what
the call itself asks for. -/

namespace JsNumber

/-- `a < b`, which is false for `NaN`. -/
def less : JsNumber → JsNumber → Bool
  | .nan, _ | _, .nan => false
  | .infinite negative, .infinite negative' => negative && !negative'
  | .infinite negative, .finite _ => negative
  | .finite _, .infinite negative => !negative
  | .finite q, .finite q' => decide (q < q')

/-- `Math.min`. -/
def min (a b : JsNumber) : JsNumber :=
  if a = .nan ∨ b = .nan then .nan else if a.less b then a else b

theorem less_self (a : JsNumber) : a.less a = false := by
  cases a with
  | nan => rfl
  | infinite negative => cases negative <;> rfl
  | finite q => exact decide_eq_false (lt_irrefl q)

theorem less_asymm {a b : JsNumber} (h : a.less b = true) : b.less a = false := by
  cases a with
  | nan => cases h
  | infinite negative =>
    cases b with
    | nan => rfl
    | infinite negative' => cases negative <;> cases negative' <;> first | rfl | cases h
    | finite q' => simpa [less] using h
  | finite q =>
    cases b with
    | nan => rfl
    | infinite negative => simpa [less] using h
    | finite q' => exact decide_eq_false (not_lt_of_gt (of_decide_eq_true h))

/-- The minimum is one of the two, and neither of them is below it. -/
theorem min_spec (a b : JsNumber) :
    (a.min b = a ∨ a.min b = b) ∧ a.less (a.min b) = false ∧ b.less (a.min b) = false := by
  unfold min
  split
  next hnan =>
    refine ⟨hnan.imp Eq.symm Eq.symm, ?_, ?_⟩
    · cases a <;> rfl
    · cases b <;> rfl
  next =>
    split
    next hless => exact ⟨.inl rfl, less_self a, less_asymm hless⟩
    next hless => exact ⟨.inr rfl, Bool.eq_false_iff.mpr hless, less_self b⟩

end JsNumber

namespace Connectum.Core
open JsString

variable {Signal Values : Type}

/-- What the frame reads of the inbound request; `timeoutMs` is what remains of its deadline when
the frame is built. -/
structure HandlerContext (Signal Values : Type) where
  signal : Signal
  timeoutMs : Option JsNumber := none
  requestHeader : HeaderList := []
  values : Values

/-- `headers` are the pairs that the `HeadersInit` is iterated as. -/
structure CallOptions (Signal : Type) where
  signal : Option Signal := none
  timeoutMs : Option JsNumber := none
  headers : Option (List (JsString × JsString)) := none
  endpoint : Option JsString := none

structure CallFrame (Signal Values : Type) where
  signal : Option Signal
  timeoutMs : Option JsNumber
  headers : Option HeaderList
  contextValues : Option Values

def clampTimeout (caller remaining : Option JsNumber) : Option JsNumber :=
  match caller, remaining with
  | none, remaining => remaining
  | some caller, none => some caller
  | some caller, some remaining => some (caller.min remaining)

/-- One turn of the loop over the allow-list; `none` is a `TypeError`. -/
def propagateOne (requestHeader out : HeaderList) (name : JsString) : Option HeaderList := do
  let n ← HeaderName.ofJs name
  match requestHeader.get n with
  | some value => out.set name value
  | none => some out

def propagate (propagateHeaders : List JsString) (requestHeader out : HeaderList) :
    Option HeaderList :=
  propagateHeaders.foldlM (propagateOne requestHeader) out

/-- The explicit headers replace those that are there; `none` is a `TypeError`. -/
def setExplicit (headers : Option (List (JsString × JsString))) (out : HeaderList) :
    Option HeaderList :=
  match headers with
  | none => some out
  | some init => (HeaderList.fill init).bind fun explicit => out.setEach explicit.entries

/-- `none` is a `TypeError`, and a result of `none` is `undefined`. -/
def buildHeaders (propagateHeaders : List JsString) (hctx : HandlerContext Signal Values)
    (options : Option (CallOptions Signal)) : Option (Option HeaderList) := do
  let out ← propagate propagateHeaders hctx.requestHeader []
  let out ← setExplicit (options.bind CallOptions.headers) out
  some (if (out.entries.map Prod.fst).length > 0 then some out else none)

/-- `none` is a `TypeError` that the call ends with. -/
def buildFrame (propagateHeaders : List JsString) (hctx : HandlerContext Signal Values)
    (options : Option (CallOptions Signal)) : Option (CallFrame Signal Values) := do
  let headers ← buildHeaders propagateHeaders hctx options
  some {
    signal := (options.bind CallOptions.signal).or (some hctx.signal)
    timeoutMs := clampTimeout (options.bind CallOptions.timeoutMs) hctx.timeoutMs
    headers := headers
    contextValues := some hctx.values
  }

/-- The value that a frame sends under a name. -/
def CallFrame.header (frame : CallFrame Signal Values) (n : HeaderName) : Option JsString :=
  frame.headers.bind fun headers => headers.get n

section Propagate

variable {name : JsString} {n : HeaderName} {propagateHeaders : List JsString}
  (requestHeader out : HeaderList)

theorem propagateOne_of_ofJs (hn : HeaderName.ofJs name = some n) :
    ∃ out', propagateOne requestHeader out name = some out' ∧
      out'.get n = ((requestHeader.get n).map normalizeValue).or (out.get n) ∧
      ∀ m, m ≠ n → out'.get m = out.get m := by
  unfold propagateOne
  rw [hn]
  cases hget : requestHeader.get n with
  | none => exact ⟨out, by simp [hget], rfl, fun m _ => rfl⟩
  | some s =>
    obtain ⟨v, hv, hval⟩ := HeaderValue.exists_ofJs (HeaderList.isHeaderValue_of_get hget)
    have hset : out.set name s = some (out.put n v) := by
      rw [HeaderList.set, hn, hv]
      rfl
    refine ⟨out.put n v, by simp [hget, hset], ?_, fun m hm => HeaderList.get_put_of_ne hm⟩
    rw [HeaderList.get_put_self, hval]
    rfl

/-- The loop writes the inbound headers of the allow-list, a name counting in any spelling. -/
theorem propagate_spec (hnames : ∀ name ∈ propagateHeaders, HeaderName.ofJs name ≠ none) :
    ∃ out', propagate propagateHeaders requestHeader out = some out' ∧ ∀ n, out'.get n =
      if some n ∈ propagateHeaders.map HeaderName.ofJs
      then ((requestHeader.get n).map normalizeValue).or (out.get n) else out.get n := by
  induction propagateHeaders generalizing out with
  | nil => exact ⟨out, rfl, fun n => (if_neg List.not_mem_nil).symm⟩
  | cons name rest ih =>
    obtain ⟨n₀, hn₀⟩ := Option.ne_none_iff_exists'.mp (hnames name List.mem_cons_self)
    obtain ⟨out₁, hone, hself, hother⟩ := propagateOne_of_ofJs requestHeader out hn₀
    obtain ⟨out', hrest, hget⟩ := ih out₁
      fun name hname => hnames name (List.mem_cons_of_mem _ hname)
    refine ⟨out', ?_, fun n => ?_⟩
    · rw [propagate, List.foldlM_cons, hone]
      exact hrest
    rw [hget, List.map_cons, hn₀]
    by_cases hn : n = n₀
    · subst hn
      rw [hself, ← Option.or_assoc, Option.or_self, ite_self, if_pos List.mem_cons_self]
    · have hmem : some n ∈ some n₀ :: rest.map HeaderName.ofJs ↔
          some n ∈ rest.map HeaderName.ofJs := by
        rw [List.mem_cons, or_iff_right (fun heq => hn (Option.some.inj heq))]
      rw [hother n hn, if_congr hmem rfl rfl]

theorem propagate_eq_none (hname : ∃ name ∈ propagateHeaders, HeaderName.ofJs name = none) :
    propagate propagateHeaders requestHeader out = none := by
  induction propagateHeaders generalizing out with
  | nil => simp at hname
  | cons name rest ih =>
    rw [propagate, List.foldlM_cons]
    cases hone : propagateOne requestHeader out name with
    | none => rfl
    | some out₁ =>
      apply ih
      obtain ⟨name', hmem, hnone⟩ := hname
      rcases List.mem_cons.mp hmem with rfl | hmem
      · unfold propagateOne at hone
        rw [hnone] at hone
        cases hone
      · exact ⟨name', hmem, hnone⟩

end Propagate

section Frame

variable {propagateHeaders : List JsString}
  {options : Option (CallOptions Signal)} {explicit : HeaderList}

/-- `new Headers(options.headers)`, without headers where the options have none. -/
def explicitHeaders (options : Option (CallOptions Signal)) : Option HeaderList :=
  HeaderList.fill ((options.bind CallOptions.headers).getD [])

theorem setExplicit_eq (out : HeaderList) : setExplicit (options.bind CallOptions.headers) out =
    (explicitHeaders options).bind fun explicit => out.setEach explicit.entries := by
  unfold setExplicit explicitHeaders
  cases options.bind CallOptions.headers with
  | none =>
    show some out = out.setEach (HeaderList.entries [])
    rw [HeaderList.entries_nil]
    rfl
  | some init => rfl

theorem buildHeaders_spec (hctx : HandlerContext Signal Values)
    (hnames : ∀ name ∈ propagateHeaders, HeaderName.ofJs name ≠ none)
    (hexplicit : explicitHeaders options = some explicit) :
    ∃ headers, buildHeaders propagateHeaders hctx options = some headers ∧
      ∀ n, n ≠ HeaderList.setCookie → (headers.bind fun headers => headers.get n) =
        ((explicit.get n).or (if some n ∈ propagateHeaders.map HeaderName.ofJs
          then hctx.requestHeader.get n else none)).map normalizeValue := by
  obtain ⟨out₁, hpropagate, hget₁⟩ := propagate_spec hctx.requestHeader [] hnames
  obtain ⟨out, hset⟩ := explicit.exists_setEach_entries out₁
  have hbuild : buildHeaders propagateHeaders hctx options =
      some (if (out.entries.map Prod.fst).length > 0 then some out else none) := by
    rw [buildHeaders, hpropagate, Option.bind_eq_bind, Option.bind_some, setExplicit_eq, hexplicit,
      Option.bind_some, hset]
    rfl
  refine ⟨_, hbuild, fun n hn => ?_⟩
  have hinbound : out₁.get n = (if some n ∈ propagateHeaders.map HeaderName.ofJs
      then hctx.requestHeader.get n else none).map normalizeValue := by
    have hnil : HeaderList.get [] n = none := rfl
    rw [hget₁, hnil, Option.or_none]
    split <;> rfl
  have hout := HeaderList.get_setEach_entries hset hn
  rw [hinbound, ← Option.map_or] at hout
  rw [← hout]
  split
  next => rfl
  next hempty =>
    cases hs : out.get n with
    | none => rfl
    | some s =>
      have hmem := (HeaderList.mem_entries hn).mpr hs
      exact absurd (List.length_pos_of_mem (List.mem_map_of_mem (f := Prod.fst) hmem)) hempty

theorem buildHeaders_eq_none (hctx : HandlerContext Signal Values) :
    buildHeaders propagateHeaders hctx options = none ↔
      (∃ name ∈ propagateHeaders, HeaderName.ofJs name = none) ∨
        explicitHeaders options = none := by
  constructor
  · intro hnone
    by_contra hvalid
    obtain ⟨hnames, hexplicit⟩ := not_or.mp hvalid
    obtain ⟨explicit, hexplicit⟩ := Option.ne_none_iff_exists'.mp hexplicit
    obtain ⟨headers, hbuild, -⟩ := buildHeaders_spec hctx
      (fun name hname heq => hnames ⟨name, hname, heq⟩) hexplicit
    rw [hbuild] at hnone
    cases hnone
  · intro hinvalid
    rw [buildHeaders, Option.bind_eq_bind]
    rcases hinvalid with hname | hexplicit
    · rw [propagate_eq_none hctx.requestHeader [] hname, Option.bind_none]
    · cases propagate propagateHeaders hctx.requestHeader [] with
      | none => rfl
      | some out => rw [Option.bind_some, setExplicit_eq, hexplicit]; rfl

/-- The timeout is inherited, or the caller's, or the smaller of the two. -/
theorem clampTimeout_spec (caller remaining : Option JsNumber) :
    (caller = none → clampTimeout caller remaining = remaining) ∧
    (remaining = none → clampTimeout caller remaining = caller) ∧
    (∀ r, remaining = some r → ∃ t, clampTimeout caller remaining = some t ∧
      r.less t = false ∧ ∀ c, caller = some c → c.less t = false ∧ (t = c ∨ t = r)) := by
  cases caller with
  | none =>
    refine ⟨fun _ => rfl, fun h => h, fun r hr => ⟨r, hr, r.less_self, fun c hc => ?_⟩⟩
    cases hc
  | some c =>
    cases remaining with
    | none =>
      refine ⟨fun h => ?_, fun _ => rfl, fun r hr => ?_⟩
      · cases h
      · cases hr
    | some r =>
      obtain ⟨hone, hcaller, hremaining⟩ := JsNumber.min_spec c r
      refine ⟨fun h => ?_, fun h => ?_, fun r' hr => ?_⟩
      · cases h
      · cases h
      · obtain rfl := Option.some.inj hr
        refine ⟨c.min r, rfl, hremaining, fun c' hc => ?_⟩
        obtain rfl := Option.some.inj hc
        exact ⟨hcaller, hone⟩

/-- A frame is built unless a name of the allow-list or an explicit header is not valid. Its timeout
is the smaller one of the caller's and the remaining one, as far as they exist, and its headers
are the explicit ones and, under other names, those of the allow-list. -/
theorem buildFrame_cascade (propagateHeaders : List JsString) (hctx : HandlerContext Signal Values)
    (options : Option (CallOptions Signal)) :
    (buildFrame propagateHeaders hctx options = none ↔
      (∃ name ∈ propagateHeaders, HeaderName.ofJs name = none) ∨
        explicitHeaders options = none) ∧
    ∀ frame, buildFrame propagateHeaders hctx options = some frame →
      (options.bind CallOptions.timeoutMs = none → frame.timeoutMs = hctx.timeoutMs) ∧
      (hctx.timeoutMs = none → frame.timeoutMs = options.bind CallOptions.timeoutMs) ∧
      (∀ r, hctx.timeoutMs = some r → ∃ t, frame.timeoutMs = some t ∧ r.less t = false ∧
        ∀ c, options.bind CallOptions.timeoutMs = some c →
          c.less t = false ∧ (t = c ∨ t = r)) ∧
      ∃ explicit, explicitHeaders options = some explicit ∧
        ∀ n, n ≠ HeaderList.setCookie → frame.header n =
          ((explicit.get n).or (if some n ∈ propagateHeaders.map HeaderName.ofJs
            then hctx.requestHeader.get n else none)).map normalizeValue := by
  constructor
  · rw [← buildHeaders_eq_none hctx, buildFrame]
    cases buildHeaders propagateHeaders hctx options <;> simp
  · intro frame hframe
    unfold buildFrame at hframe
    obtain ⟨headers, hheaders, hframe⟩ := Option.bind_eq_some_iff.mp hframe
    obtain rfl := Option.some.inj hframe
    have hvalid : ¬ ((∃ name ∈ propagateHeaders, HeaderName.ofJs name = none) ∨
        explicitHeaders options = none) := by
      rw [← buildHeaders_eq_none hctx, hheaders]
      simp
    obtain ⟨hnames, hexplicit⟩ := not_or.mp hvalid
    obtain ⟨explicit, hexplicit⟩ := Option.ne_none_iff_exists'.mp hexplicit
    obtain ⟨headers', hbuild, hget⟩ := buildHeaders_spec hctx
      (fun name hname heq => hnames ⟨name, hname, heq⟩) hexplicit
    obtain rfl := Option.some.inj (hheaders.symm.trans hbuild)
    obtain ⟨hinherited, hown, hsmaller⟩ :=
      clampTimeout_spec (options.bind CallOptions.timeoutMs) hctx.timeoutMs
    exact ⟨hinherited, hown, hsmaller, explicit, hexplicit, hget⟩

/-- A call with a shorter deadline and a tenant of its own, out of a request with credentials. -/
def inbound : HandlerContext Unit Unit where
  signal := ()
  timeoutMs := some (.finite 5000)
  requestHeader :=
    [(⟨js "x-api-key", by decide⟩, ⟨js "k1", by decide⟩),
      (⟨js "x-tenant", by decide⟩, ⟨js "acme", by decide⟩),
      (⟨js "x-request-id", by decide⟩, ⟨js "r1", by decide⟩)]
  values := ()

def shorter : CallOptions Unit where
  timeoutMs := some (.finite 1000)
  headers := some [(js "X-Tenant", js "globex")]

example : (buildFrame [js "X-Request-Id", js "x-tenant"] inbound (some shorter)).map (fun frame =>
    (frame.timeoutMs, frame.header ⟨js "x-request-id", by decide⟩,
      frame.header ⟨js "x-tenant", by decide⟩, frame.header ⟨js "x-api-key", by decide⟩)) =
    some (some (.finite 1000), some (js "r1"), some (js "globex"), none) := by
  decide

end Frame

end Connectum.Core
