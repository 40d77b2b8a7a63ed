import Connectum.Interceptors.Resilience

/-! How the programs of a chain end: where a response comes from, and what an error tells. -/
namespace Connectum.Interceptors.Chain
open JsString Async

abbrev CallTrace (rt : Runtime) := List (Answered (Call rt) Call.Answer CallState)

variable {rt : Runtime}

/-- The service and the handler of the fallback behave the same in all calls, whatever the
headers: the service answers by how often it has been called, and the handler by the error. -/
def Behaves (script : ℕ → Outcome rt) (handler : Value → Except Value rt.Message) :
    (q : Call rt) → q.Answer → CallState → CallState → Prop
  | .service _, answer, s, t => answer = script s.calls ∧ t.calls = s.calls + 1
  | .handler err, answer, s, t => answer = handler err ∧ t.calls = s.calls
  | _, _, s, t => t.calls = s.calls

/-- The handler of the fallback has returned a value. -/
def Returned : Answered (Call rt) Call.Answer CallState → Prop
  | ⟨.handler _, .ok _, _⟩ => True
  | _ => False

def Quiet (trace : CallTrace rt) : Prop := ∀ x ∈ trace, ¬ Returned x

/-- The response is the handler's, with the headers of the request at the time of its return. -/
structure MadeByFallback (fallback : Option FallbackOptions) (req : Request rt)
    (trace : CallTrace rt) (res : Response rt) : Prop where
  enabled : ∃ options, fallback = some options ∧ (options.skipStreaming && req.stream) = false
  copies : ∃ err message u, ⟨.handler err, Except.ok message, u⟩ ∈ trace ∧
    res = fallbackResponse req message u.header

/-- What the serializer makes of a response to the request. -/
def restoring (serializer : Option SerializerOptions) (req : Request rt) (res : Response rt) :
    Outcome rt :=
  match serializer with
  | none => .ok res
  | some options =>
    if options.skips req.typeName then .ok res else deserializeResponse options res

/-- The service's answer to a call becomes the response. -/
def Delivers (script : ℕ → Outcome rt) (restore : Response rt → Outcome rt) (k : ℕ)
    (res : Response rt) : Prop :=
  ∃ answer, script k = .ok answer ∧ restore answer = .ok res

/-- None of the first answers becomes a response. -/
def Fruitless (script : ℕ → Outcome rt) (restore : Response rt → Outcome rt) (n : ℕ) : Prop :=
  ∀ k < n, ∀ res, ¬ Delivers script restore k res

section
variable {script : ℕ → Outcome rt} {handler : Value → Except Value rt.Message}
  {restore : Response rt → Outcome rt} {req : Request rt} {trace trace' : CallTrace rt}
  {res res' : Response rt} {k k' : ℕ} {fallback : Option FallbackOptions}

theorem quiet_nil : Quiet ([] : CallTrace rt) := fun _ hx => absurd hx List.not_mem_nil

theorem quiet_append : Quiet (trace ++ trace') ↔ Quiet trace ∧ Quiet trace' :=
  List.forall_mem_append

theorem quiet_cons {x : Answered (Call rt) Call.Answer CallState} :
    Quiet (x :: trace) ↔ ¬ Returned x ∧ Quiet trace := List.forall_mem_cons

theorem MadeByFallback.mono (h : MadeByFallback fallback req trace res) (hsub : trace ⊆ trace') :
    MadeByFallback fallback req trace' res := by
  obtain ⟨err, message, u, hmem, hres⟩ := h.copies
  exact ⟨h.enabled, err, message, u, hsub hmem, hres⟩

theorem MadeByFallback.not_quiet (h : MadeByFallback fallback req trace res) : ¬ Quiet trace := by
  obtain ⟨err, message, u, hmem, -⟩ := h.copies
  exact fun hquiet => hquiet _ hmem trivial

theorem fruitless_succ (h : Fruitless script restore k)
    (hk : ∀ res, ¬ Delivers script restore k res) : Fruitless script restore (k + 1) := by
  intro j hj
  rcases Nat.lt_succ_iff_lt_or_eq.mp hj with hj | rfl
  · exact h j hj
  · exact hk

/-- The first answer that becomes a response is the same in all calls. -/
theorem Delivers.unique (h : Delivers script restore k res) (hk : Fruitless script restore k)
    (h' : Delivers script restore k' res') (hk' : Fruitless script restore k') : res = res' := by
  rcases Nat.lt_trichotomy k k' with hlt | rfl | hlt
  · exact absurd h (hk' k hlt res)
  · obtain ⟨answer, hanswer, hrestore⟩ := h
    obtain ⟨answer', hanswer', hrestore'⟩ := h'
    obtain rfl := Except.ok.inj (hanswer.symm.trans hanswer')
    exact Except.ok.inj (hrestore.symm.trans hrestore')
  · exact absurd h' (hk k' hlt res')

end

/-! ### Ends of calls -/

/-- How a program ends that starts before the service has given a response. -/
abbrev Ending (rt : Runtime) := CallTrace rt → CallState → Outcome rt → Prop

section
variable (script : ℕ → Outcome rt) (handler : Value → Except Value rt.Message)
  (restore : Response rt → Outcome rt) (fallback : Option FallbackOptions) (req : Request rt)

def Ends (ending : Ending rt) (program : Program rt (Outcome rt)) : Prop :=
  ∀ s trace t outcome, ExecIn (Behaves script handler) program s trace t outcome →
    Fruitless script restore s.calls → ending trace t outcome

/-- The ending does not depend on what comes before the service is called, and admits an error
there. -/
structure Stable (ending : Ending rt) : Prop where
  prepend : ∀ before trace t outcome, Quiet before → ending trace t outcome →
    ending (before ++ trace) t outcome
  error : ∀ t err, Fruitless script restore t.calls → ending [] t (.error err)

/-- The last answer of the service became the response, by `before`, or none did. -/
def Direct (before : Response rt → Outcome rt) : Ending rt
  | trace, t, .ok res => Quiet trace ∧ ∃ k, t.calls = k + 1 ∧ Fruitless script restore k ∧
      Delivers script before k res
  | trace, t, .error _ => Quiet trace ∧ Fruitless script restore t.calls

/-- The response may also be the one of the fallback. -/
def Exact : Ending rt := fun trace t outcome =>
  Direct script restore restore trace t outcome ∨
    ∃ res, outcome = .ok res ∧ MadeByFallback fallback req trace res

/-- Nothing is known of errors. -/
def Sound : Ending rt := fun trace _ outcome => ∀ res, outcome = .ok res →
  (Quiet trace ∧ ∃ k, Fruitless script restore k ∧ Delivers script restore k res) ∨
    MadeByFallback fallback req trace res

theorem stable_direct (before : Response rt → Outcome rt) :
    Stable script restore (Direct script restore before) where
  prepend b trace t outcome hquiet h := by
    cases outcome with
    | ok res => exact ⟨quiet_append.mpr ⟨hquiet, h.1⟩, h.2⟩
    | error err => exact ⟨quiet_append.mpr ⟨hquiet, h.1⟩, h.2⟩
  error t err h := ⟨quiet_nil, h⟩

theorem stable_exact : Stable script restore (Exact script restore fallback req) where
  prepend b trace t outcome hquiet h := by
    rcases h with hdirect | ⟨res, hres, hmade⟩
    · exact .inl ((stable_direct script restore restore).prepend b trace t outcome hquiet hdirect)
    · exact .inr ⟨res, hres, hmade.mono (List.subset_append_right _ _)⟩
  error t err h := .inl ⟨quiet_nil, h⟩

theorem stable_sound : Stable script restore (Sound script restore fallback req) where
  prepend b trace t outcome hquiet h res hres := by
    rcases h res hres with ⟨htrace, hdelivered⟩ | hmade
    · exact .inl ⟨quiet_append.mpr ⟨hquiet, htrace⟩, hdelivered⟩
    · exact .inr (hmade.mono (List.subset_append_right _ _))
  error t err h res hres := by cases hres

end

section
variable {script : ℕ → Outcome rt} {handler : Value → Except Value rt.Message}
  {restore : Response rt → Outcome rt} {req : Request rt} {ending ending' : Ending rt}
  {program : Program rt (Outcome rt)} {fallback : Option FallbackOptions}

theorem Ends.mono (h : Ends script handler restore ending program)
    (himp : ∀ trace t outcome, ending trace t outcome → ending' trace t outcome) :
    Ends script handler restore ending' program :=
  fun s trace t outcome hrun hs => himp trace t outcome (h s trace t outcome hrun hs)

theorem Direct.exact {trace : CallTrace rt} {t : CallState} {outcome : Outcome rt}
    (h : Direct script restore restore trace t outcome) :
    Exact script restore fallback req trace t outcome := .inl h

theorem Exact.sound {trace : CallTrace rt} {t : CallState} {outcome : Outcome rt}
    (h : Exact script restore fallback req trace t outcome) :
    Sound script restore fallback req trace t outcome := by
  rintro res rfl
  rcases h with ⟨hquiet, k, -, hk, hdelivers⟩ | ⟨res', hres, hmade⟩
  · exact .inl ⟨hquiet, k, hk, hdelivers⟩
  · obtain rfl := Except.ok.inj hres
    exact .inr hmade

theorem ends_throwing (hstable : Stable script restore ending) (err : Value) :
    Ends script handler restore ending (throwing err) := by
  intro s trace t outcome hrun hs
  obtain ⟨rfl, rfl, rfl⟩ := execIn_done_iff.mp hrun
  exact hstable.error t err hs

/-- A question to neither the service nor the handler. -/
def Aside : Call rt → Prop
  | .service _ | .handler _ => False
  | _ => True

theorem calls_of_aside {q : Call rt} (hq : Aside q) {a : q.Answer} {s t : CallState}
    (h : Behaves script handler q a s t) : t.calls = s.calls := by
  cases q with
  | service req => exact hq.elim
  | handler err => exact hq.elim
  | _ => exact h

theorem not_returned_of_aside {x : Answered (Call rt) Call.Answer CallState}
    (hx : Aside x.query) : ¬ Returned x := by
  obtain ⟨q, a, u⟩ := x
  cases q with
  | handler err => exact hx.elim
  | _ => exact id

theorem ends_await (hstable : Stable script restore ending) {q : Call rt} (hq : Aside q)
    {resume : q.Answer → Program rt (Outcome rt)}
    (h : ∀ a, Ends script handler restore ending (resume a)) :
    Ends script handler restore ending (.await q resume) := by
  intro s trace t outcome hrun hs
  obtain ⟨a, u, rest, rfl, hbehaves, hrun⟩ := execIn_await_iff.mp hrun
  rw [← calls_of_aside hq hbehaves] at hs
  have hquiet : Quiet [(⟨q, a, u⟩ : Answered (Call rt) Call.Answer CallState)] :=
    quiet_cons.mpr ⟨not_returned_of_aside hq, quiet_nil⟩
  exact hstable.prepend _ rest t outcome hquiet (h a u rest t outcome hrun hs)

theorem ends_sync {update : CallState → CallState}
    {resume : CallState → Program rt (Outcome rt)} (hcalls : ∀ s, (update s).calls = s.calls)
    (h : ∀ s, Ends script handler restore ending (resume s)) :
    Ends script handler restore ending (.sync update resume) := by
  intro s trace t outcome hrun hs
  rw [← hcalls s] at hs
  exact h s (update s) trace t outcome (execIn_sync_iff.mp hrun) hs

theorem ends_bind {after : Outcome rt → Program rt (Outcome rt)}
    (h : Ends script handler restore ending program)
    (hafter : ∀ first u result, ending first u result → ∀ rest t outcome,
      ExecIn (Behaves script handler) (after result) u rest t outcome →
        ending' (first ++ rest) t outcome) :
    Ends script handler restore ending' (program >>= after) := by
  intro s trace t outcome hrun hs
  obtain ⟨first, u, result, rest, hfirst, hrest, rfl⟩ := execIn_bind_iff.mp hrun
  exact hafter first u result (h s first u result hfirst hs) rest t outcome hrest

theorem ends_catching {handle : Value → Program rt (Outcome rt)}
    (h : Ends script handler restore ending program)
    (hok : ∀ first u res, ending first u (.ok res) → ending' first u (.ok res))
    (herror : ∀ first u err, ending first u (.error err) → ∀ rest t outcome,
      ExecIn (Behaves script handler) (handle err) u rest t outcome →
        ending' (first ++ rest) t outcome) :
    Ends script handler restore ending' (catching program handle) := by
  refine ends_bind h fun first u result hresult rest t outcome hrun => ?_
  cases result with
  | ok res =>
    obtain ⟨rfl, rfl, rfl⟩ := execIn_done_iff.mp hrun
    rw [List.append_nil]
    exact hok first t res hresult
  | error err => exact herror first u err hresult rest t outcome hrun

/-! ### Interceptors that go on or throw -/

/-- What an interceptor makes of the endings of a request. -/
def Lifts (script : ℕ → Outcome rt) (handler : Value → Except Value rt.Message)
    (restore : Response rt → Outcome rt) (req : Request rt) (ending ending' : Ending rt)
    (interceptor : Interceptor rt) : Prop :=
  ∀ next : Next rt, (∀ context, Ends script handler restore ending (next req context)) →
    ∀ context, Ends script handler restore ending' (interceptor next req context)

/-- The questions of an auth interceptor are about authentication. -/
theorem quiet_embed {R : Type} {p : Auth.AuthProgram rt.Session R} {s t : CallState} {r : R}
    {trace : CallTrace rt}
    (h : ExecIn (Behaves script handler) (p.embed .auth (fun _ a => a) CallState.auth
      fun auth s => { s with auth := auth }) s trace t r) : t.calls = s.calls ∧ Quiet trace := by
  have hanswer : ∀ (q : Auth.AuthCall rt.Session) (a : (Call.auth q).Answer) (v w : CallState),
      Behaves script handler (.auth q) a v w → v.calls = s.calls → w.calls = s.calls :=
    fun _ _ _ _ hbehaves hv => Eq.trans hbehaves hv
  have hset : ∀ (auth : Auth.AuthState) (v : CallState), v.calls = s.calls →
      ({ v with auth := auth } : CallState).calls = s.calls := fun _ _ hv => hv
  obtain ⟨hcalls, hasked⟩ := execIn_embed (fun u => u.calls = s.calls) hanswer hset h rfl
  refine ⟨hcalls, fun x hx => ?_⟩
  obtain ⟨q, hq⟩ := hasked x hx
  apply not_returned_of_aside
  rw [hq]
  trivial

theorem lifts_authInterceptor (hstable : Stable script restore ending)
    (interception : Auth.Interception rt.Session) :
    Lifts script handler restore req ending ending (authInterceptor interception) := by
  intro next hnext context
  unfold authInterceptor
  refine ends_sync (fun _ => rfl) fun start s trace t outcome hrun hs => ?_
  obtain ⟨first, u, result, rest, hfirst, hrest, rfl⟩ := execIn_bind_iff.mp hrun
  obtain ⟨hcalls, hquiet⟩ := quiet_embed hfirst
  rw [← hcalls] at hs
  refine hstable.prepend first rest t outcome hquiet ?_
  cases result with
  | ok fwd =>
    refine ends_sync ?_ ?_ u rest t outcome hrest hs
    · exact fun _ => rfl
    · exact fun _ => hnext _
  | error failure =>
    refine ends_await hstable ?_ ?_ u rest t outcome hrest hs
    · trivial
    · exact fun _ => ends_throwing hstable _

theorem lifts_validate (hstable : Stable script restore ending) :
    Lifts script handler restore req ending ending createValidateInterceptor := by
  intro next hnext context
  have haside : Aside (.validate req) := trivial
  refine ends_await hstable haside fun answer => ?_
  cases answer with
  | error err => exact ends_throwing hstable err
  | ok => exact hnext context

theorem lifts_compose {interceptors : List (Interceptor rt)}
    (h : ∀ interceptor ∈ interceptors, Lifts script handler restore req ending ending interceptor) :
    Lifts script handler restore req ending ending (compose interceptors) := by
  induction interceptors with
  | nil => exact fun next hnext => hnext
  | cons interceptor interceptors ih =>
    rw [List.forall_mem_cons] at h
    exact fun next hnext => h.1 _ (ih h.2 next hnext)

/-- An interceptor of the chain, or none where the endings may be weakened. -/
theorem lifts_created {α : Type} {create : α → Created rt} {options : Option α}
    {part : List (Interceptor rt)} (hpart : created create options = .ok part)
    (himp : ∀ trace t outcome, ending trace t outcome → ending' trace t outcome)
    (h : ∀ value interceptor, options = some value → create value = .ok interceptor →
      Lifts script handler restore req ending ending' interceptor) :
    Lifts script handler restore req ending ending' (compose part) := by
  cases options with
  | none =>
    obtain rfl := Except.ok.inj hpart
    exact fun next hnext context => (hnext context).mono himp
  | some value =>
    cases hcreate : create value with
    | error err =>
      rw [created, hcreate] at hpart
      cases hpart
    | ok interceptor =>
      rw [created, hcreate] at hpart
      obtain rfl := Except.ok.inj hpart
      exact h value interceptor rfl hcreate

theorem lifts_skipping {interceptor : Interceptor rt} (skipStreaming : Bool)
    (himp : ∀ trace t outcome, ending trace t outcome → ending' trace t outcome)
    (h : (skipStreaming && req.stream) = false →
      Lifts script handler restore req ending ending' interceptor) :
    Lifts script handler restore req ending ending' (skipping skipStreaming interceptor) := by
  intro next hnext context
  unfold skipping
  split
  next => exact (hnext context).mono himp
  next hintercepted => exact h (Bool.eq_false_iff.mpr hintercepted) next hnext context

/-! ### The inner part of the chain -/

theorem ends_service (context : Option Auth.AuthContext) :
    Ends script handler restore (Direct script restore .ok) (service req context) := by
  intro s trace t outcome hrun hs
  obtain ⟨answer, u, rest, rfl, ⟨hanswer, hcalls⟩, hdone⟩ := execIn_await_iff.mp hrun
  obtain ⟨rfl, rfl, rfl⟩ := execIn_done_iff.mp hdone
  have hquiet : Quiet [(⟨.service req, outcome, t⟩ : Answered (Call rt) Call.Answer CallState)] :=
    quiet_cons.mpr ⟨id, quiet_nil⟩
  cases outcome with
  | ok res => exact ⟨hquiet, s.calls, hcalls, hs, res, hanswer.symm, rfl⟩
  | error err =>
    refine ⟨hquiet, ?_⟩
    rw [hcalls]
    refine fruitless_succ hs fun res hdelivers => ?_
    obtain ⟨answer, hscript, -⟩ := hdelivers
    cases hanswer.trans hscript

/-- An answer that cannot be read becomes no response. -/
theorem ends_serializer {options : SerializerOptions} {next : Next rt}
    (hnext : ∀ req' context, Ends script handler (restoring (some options) req)
      (Direct script (restoring (some options) req) .ok) (next req' context))
    (context : Option Auth.AuthContext) :
    Ends script handler (restoring (some options) req)
      (Direct script (restoring (some options) req) (restoring (some options) req))
      (createSerializerInterceptor options next req context) := by
  unfold createSerializerInterceptor
  split
  next hskips =>
    have hrestore : restoring (some options) req = .ok := funext fun res => if_pos hskips
    have hdirect := hnext req context
    rw [hrestore] at hdirect ⊢
    exact hdirect
  next hskips =>
    have hrestore : restoring (some options) req = deserializeResponse options :=
      funext fun res => if_neg hskips
    rw [hrestore] at hnext ⊢
    split
    next err _ => exact ends_throwing (stable_direct _ _ _) err
    next modifiedReq _ =>
      refine ends_bind (hnext modifiedReq context) ?_
      intro first u result hdirect rest t outcome hrun
      cases result with
      | error err =>
        obtain ⟨rfl, rfl, rfl⟩ := execIn_done_iff.mp hrun
        rw [List.append_nil]
        exact hdirect
      | ok answer =>
        obtain ⟨rfl, rfl, rfl⟩ := execIn_done_iff.mp hrun
        obtain ⟨hquiet, k, hcalls, hk, answer', hscript, hanswer⟩ := hdirect
        obtain rfl := Except.ok.inj hanswer
        rw [List.append_nil]
        cases hres : deserializeResponse options answer' with
        | ok res => exact ⟨hquiet, k, hcalls, hk, answer', hscript, hres⟩
        | error err =>
          refine ⟨hquiet, ?_⟩
          rw [hcalls]
          apply fruitless_succ hk
          intro res hdelivers
          obtain ⟨answer, hanswer, hres'⟩ := hdelivers
          obtain rfl := Except.ok.inj (hscript.symm.trans hanswer)
          cases hres.symm.trans hres'

/-! ### Fallback and retries -/

theorem lifts_fallback {options : FallbackOptions} {interceptor : Interceptor rt}
    (h : createFallbackInterceptor options = .ok interceptor) :
    Lifts script handler restore req (Direct script restore restore)
      (Exact script restore (some options) req) interceptor := by
  simp only [createFallbackInterceptor, checked_eq_ok] at h
  obtain rfl := Except.ok.inj h.2
  refine lifts_skipping _ (fun _ _ _ => Direct.exact) ?_
  intro hintercepted next hnext context
  refine ends_catching (hnext context) ?_ ?_
  · exact fun _ _ _ => Direct.exact
  · intro first u err hdirect rest t outcome hrun
    obtain ⟨answer, v, rest, rfl, ⟨-, hcalls⟩, hrun⟩ := execIn_await_iff.mp hrun
    cases answer with
    | error err' =>
      obtain ⟨rfl, rfl, rfl⟩ := execIn_done_iff.mp hrun
      refine .inl ⟨quiet_append.mpr ⟨hdirect.1, quiet_cons.mpr ⟨id, quiet_nil⟩⟩, ?_⟩
      rw [hcalls]
      exact hdirect.2
    | ok message =>
      obtain ⟨rfl, rfl, rfl⟩ := execIn_sync_done_iff.mp hrun
      refine .inr ⟨_, rfl, ⟨options, rfl, hintercepted⟩, ?_⟩
      exact ⟨err, message, _, List.mem_append_right _ List.mem_cons_self, rfl⟩

/-- An attempt that fails has neither an answer of the service nor a value of the handler. -/
theorem ends_retryPolicy {options : RetryOptions} {fn : Program rt (Outcome rt)}
    (h : Ends script handler restore (Exact script restore fallback req) fn) (retries : ℕ) :
    Ends script handler restore (Exact script restore fallback req)
      (retryPolicy options fn retries) := by
  induction retries with
  | zero => exact h
  | succ retries ih =>
    refine ends_catching h ?_ ?_
    · exact fun _ _ _ hexact => hexact
    · intro first u err hexact rest t outcome hrun
      have hdirect : Quiet first ∧ Fruitless script restore u.calls := by
        rcases hexact with hdirect | ⟨res, hres, -⟩
        · exact hdirect
        · cases hres
      have hstable := stable_exact script restore fallback req
      apply hstable.prepend first rest t outcome hdirect.1
      have hthrow : Ends script handler restore (Exact script restore fallback req)
          (throwing err) := ends_throwing hstable err
      split at hrun
      next =>
        have haside : Aside (.backoff options.initialDelay options.maxDelay : Call rt) := trivial
        refine ends_await hstable haside (fun goesOn => ?_) u rest t outcome hrun hdirect.2
        cases goesOn with
        | true => exact ih
        | false => exact hthrow
      next => exact hthrow u rest t outcome hrun hdirect.2

theorem lifts_retry {options : RetryOptions} {interceptor : Interceptor rt}
    (h : createRetryInterceptor options = .ok interceptor) :
    Lifts script handler restore req (Exact script restore fallback req)
      (Exact script restore fallback req) interceptor := by
  simp only [createRetryInterceptor, checked_eq_ok] at h
  obtain ⟨-, -, -, h⟩ := h
  obtain rfl := Except.ok.inj h
  refine lifts_skipping _ (fun _ _ _ => id) ?_
  exact fun _ next hnext context => ends_retryPolicy (hnext context) _

/-! ### The outer part of the chain -/

/-- Nothing but errors comes of the program. -/
def Fails (script : ℕ → Outcome rt) (handler : Value → Except Value rt.Message)
    (program : Program rt (Outcome rt)) : Prop :=
  ∀ s trace t outcome, ExecIn (Behaves script handler) program s trace t outcome →
    Quiet trace ∧ ∃ err, outcome = .error err

/-- What follows a call returns its response, or throws. -/
def Echoes (script : ℕ → Outcome rt) (handler : Value → Except Value rt.Message)
    (after : Outcome rt → Program rt (Outcome rt)) : Prop :=
  ∀ result s trace t outcome, ExecIn (Behaves script handler) (after result) s trace t outcome →
    Quiet trace ∧ ∀ res, outcome = .ok res → result = .ok res

theorem fails_throwing (err : Value) : Fails script handler (throwing err : Program rt _) := by
  intro s trace t outcome hrun
  obtain ⟨rfl, rfl, -⟩ := execIn_done_iff.mp hrun
  exact ⟨quiet_nil, err, rfl⟩

theorem echoes_done (result : Outcome rt) :
    ∀ s trace t outcome, ExecIn (Behaves script handler) (.done result : Program rt _) s trace t
      outcome → Quiet trace ∧ ∀ res, outcome = .ok res → result = .ok res := by
  intro s trace t outcome hrun
  obtain ⟨rfl, rfl, -⟩ := execIn_done_iff.mp hrun
  exact ⟨quiet_nil, fun _ h => h⟩

theorem quiet_aside {q : Call rt} (hq : Aside q) {a : q.Answer} {u : CallState}
    {rest : CallTrace rt} (hrest : Quiet rest) : Quiet (⟨q, a, u⟩ :: rest) :=
  quiet_cons.mpr ⟨not_returned_of_aside hq, hrest⟩

theorem sound_bind {after : Outcome rt → Program rt (Outcome rt)}
    (h : Ends script handler restore (Sound script restore fallback req) program)
    (hafter : Echoes script handler after) :
    Ends script handler restore (Sound script restore fallback req) (program >>= after) := by
  refine ends_bind h ?_
  intro first u result hsound rest t outcome hrun res hres
  obtain ⟨hquiet, hresult⟩ := hafter result u rest t outcome hrun
  rcases hsound res (hresult res hres) with ⟨htrace, hdelivered⟩ | hmade
  · exact .inl ⟨quiet_append.mpr ⟨htrace, hquiet⟩, hdelivered⟩
  · exact .inr (hmade.mono (List.subset_append_left _ _))

theorem sound_converting {c : ErrorClass} {convert : Program rt (Outcome rt)}
    (hconvert : Fails script handler convert)
    (h : Ends script handler restore (Sound script restore fallback req) program) :
    Ends script handler restore (Sound script restore fallback req)
      (converting c convert program) := by
  refine sound_bind h fun result s trace t outcome hrun => ?_
  cases result with
  | ok res => exact echoes_done (.ok res) s trace t outcome hrun
  | error err =>
    have hfails : Quiet trace ∧ ∃ err, outcome = .error err := by
      dsimp only at hrun
      split at hrun
      next => exact hconvert s trace t outcome hrun
      next => exact fails_throwing err s trace t outcome hrun
    obtain ⟨hquiet, err', rfl⟩ := hfails
    exact ⟨hquiet, fun res hres => nomatch hres⟩

theorem lifts_errorHandler (options : ErrorHandlerOptions) :
    Lifts script handler restore req (Sound script restore fallback req)
      (Sound script restore fallback req) (errorHandler options) := by
  intro next hnext context
  refine sound_bind (hnext context) fun result s trace t outcome hrun => ?_
  obtain ⟨rfl, rfl, -⟩ := execIn_done_iff.mp hrun
  refine ⟨quiet_nil, fun res hres => ?_⟩
  cases result with
  | ok res' => exact hres
  | error err => cases hres

theorem lifts_timeout {options : TimeoutOptions} {interceptor : Interceptor rt}
    (h : createTimeoutInterceptor options = .ok interceptor) :
    Lifts script handler restore req (Sound script restore fallback req)
      (Sound script restore fallback req) interceptor := by
  simp only [createTimeoutInterceptor, checked_eq_ok] at h
  obtain rfl := Except.ok.inj h.2
  refine lifts_skipping _ (fun _ _ _ => id) ?_
  intro _ next hnext context
  refine sound_converting (fails_throwing _) (sound_bind (hnext context) ?_)
  intro result s trace t outcome hrun
  obtain ⟨answer, u, rest, rfl, -, hrest⟩ := execIn_await_iff.mp hrun
  have haside : Aside (.timeout options.duration : Call rt) := trivial
  cases answer with
  | none =>
    obtain ⟨hquiet, hresult⟩ := echoes_done result u rest t outcome hrest
    exact ⟨quiet_aside haside hquiet, hresult⟩
  | some err =>
    obtain ⟨hquiet, err', rfl⟩ := fails_throwing err u rest t outcome hrest
    exact ⟨quiet_aside haside hquiet, fun res hres => nomatch hres⟩

theorem lifts_bulkhead {options : BulkheadOptions} {interceptor : Interceptor rt}
    (h : createBulkheadInterceptor options = .ok interceptor) :
    Lifts script handler restore req (Sound script restore fallback req)
      (Sound script restore fallback req) interceptor := by
  simp only [createBulkheadInterceptor, checked_eq_ok] at h
  obtain ⟨-, -, h⟩ := h
  obtain rfl := Except.ok.inj h
  refine lifts_skipping _ (fun _ _ _ => id) ?_
  intro _ next hnext context
  refine sound_converting ?_ ?_
  · intro s trace t outcome hrun
    obtain ⟨slots, u, rest, rfl, -, hrest⟩ := execIn_await_iff.mp hrun
    obtain ⟨hquiet, herr⟩ := fails_throwing _ u rest t outcome hrest
    have haside : Aside (.bulkheadSlots : Call rt) := trivial
    exact ⟨quiet_aside haside hquiet, herr⟩
  · have haside : Aside (.bulkhead options.capacity options.queueSize : Call rt) := trivial
    refine ends_await (stable_sound script restore fallback req) haside ?_
    intro answer
    cases answer with
    | none => exact hnext context
    | some err => exact ends_throwing (stable_sound script restore fallback req) err

theorem lifts_circuitBreaker {options : CircuitBreakerOptions} {interceptor : Interceptor rt}
    (h : createCircuitBreakerInterceptor options = .ok interceptor) :
    Lifts script handler restore req (Sound script restore fallback req)
      (Sound script restore fallback req) interceptor := by
  simp only [createCircuitBreakerInterceptor, checked_eq_ok] at h
  obtain ⟨-, -, h⟩ := h
  obtain rfl := Except.ok.inj h
  refine lifts_skipping _ (fun _ _ _ => id) ?_
  intro _ next hnext context
  refine sound_converting (fails_throwing _) ?_
  have haside : Aside (.circuitBreaker options.threshold options.halfOpenAfter : Call rt) := trivial
  refine ends_await (stable_sound script restore fallback req) haside ?_
  intro answer
  cases answer with
  | some err => exact ends_throwing (stable_sound script restore fallback req) err
  | none =>
    refine sound_bind (hnext context) ?_
    intro result s trace t outcome hrun
    have hrecorded (failure : Bool) : Aside (.recorded failure : Call rt) := trivial
    cases result with
    | ok res =>
      obtain ⟨_, u, rest, rfl, -, hrest⟩ := execIn_await_iff.mp hrun
      obtain ⟨hquiet, hresult⟩ := echoes_done (.ok res) u rest t outcome hrest
      exact ⟨quiet_aside (hrecorded false) hquiet, hresult⟩
    | error err =>
      obtain ⟨_, u, rest, rfl, -, hrest⟩ := execIn_await_iff.mp hrun
      obtain ⟨hquiet, hresult⟩ := echoes_done (.error err) u rest t outcome hrest
      exact ⟨quiet_aside (hrecorded _) hquiet, hresult⟩

end

end Connectum.Interceptors.Chain
