import Connectum.Events.Middleware

/-! The attempt numbers that a handler's contexts report across the retries of a delivery. -/
namespace Connectum.Events.Middleware
open Async

variable {Message : Type}

abbrev Trace (Message : Type) := List (Answered (Query Message) Query.Answer Dispatch)

/-- The variables of a composed handler are its own. -/
abbrev Alone (q : Query Message) (_ : q.Answer) (s u : Dispatch) : Prop := u = s

def Query.context : Query Message → Option EventContext
  | .handler _ ctx => some ctx
  | .effect _ => none

/-- The contexts that the handler was invoked with. -/
def contexts (trace : Trace Message) : List EventContext :=
  trace.filterMap fun x => x.query.context

/-- The `k`-th invocation reports the attempt of the event and the retries before it. -/
def AttemptsReported (attempt : ℕ) (trace : Trace Message) : Prop :=
  ∀ k ctx, (contexts trace)[k]? = some ctx → ctx.attempt = attempt + k

/-- The first invocation fails with an error that is to be retried, the signal is not aborted by
then nor during the sleep, and the second attempt goes on to its next await. -/
def Retried (options : RetryOptions) (trace : Trace Message) : Prop :=
  ∃ message ctx error delay s t u v x rest,
    trace = ⟨.handler message ctx, .error error, s⟩ :: ⟨.effect .aborted, none, t⟩ ::
      ⟨.effect (.sleep delay), .ok (), u⟩ :: ⟨.effect .aborted, none, v⟩ :: x :: rest ∧
    options.rethrows error = none ∧ options.exhausted 1 = false ∧ options.admits 2 = true

section Asks
variable {I : Dispatch → Prop} {J : RawEvent → Prop} {P : Query Message → Prop}
  {ctx : EventContext} {handler : RawEvent → EventContext → Program Message Outcome}

/-- A `next` call passes on only events in `J`. -/
def Call.Passes (J : RawEvent → Prop) : Call → Prop
  | .next updated => ∀ event, updated = some event → J event
  | .effect _ => True

theorem asks_runWith {nextFn : Option RawEvent → Program Message Outcome} {p : Invocation}
    {C : Call → Prop} (hp : Asks (fun _ => True) C p)
    (hnext : ∀ updated, C (.next updated) → Asks I P (nextFn updated))
    (heffect : ∀ e, P (.effect e)) : Asks I P (runWith nextFn p) := by
  induction p with
  | done outcome => trivial
  | await q resume ih =>
    cases q with
    | next updated => exact (hnext updated hp.1).bind fun outcome => ih outcome (hp.2 outcome)
    | effect e => exact ⟨heffect e, fun a => ih a (hp.2 a)⟩
  | sync update resume ih => exact ih () (hp () trivial).2

theorem asks_guardDispatch {body : RawEvent → Program Message Outcome} {i : ℕ}
    (h : ∀ event, J event → Asks (fun s => J s.currentEvent) P (body event)) :
    Asks (fun s => J s.currentEvent) P (guardDispatch i body) := by
  intro s hs
  constructor
  · dsimp only
    split
    · exact hs
    · exact hs
  · dsimp only
    split
    · trivial
    · refine (h s.currentEvent hs).bind fun outcome => ?_
      cases outcome with
      | error error => exact fun t ht => ⟨ht, trivial⟩
      | ok u => trivial

theorem asks_dispatch {middlewares : List EventMiddleware} {i : ℕ}
    (hmiddlewares : ∀ middleware ∈ middlewares, ∀ event, J event →
      Asks (fun _ => True) (Call.Passes J) (middleware event ctx))
    (hhandler : ∀ event, J event → Asks (fun s => J s.currentEvent) P (handler event ctx))
    (heffect : ∀ e, P (.effect e)) :
    Asks (fun s => J s.currentEvent) P (dispatch handler ctx middlewares i) := by
  induction middlewares generalizing i with
  | nil => exact asks_guardDispatch hhandler
  | cons middleware rest ih =>
    obtain ⟨hmiddleware, hrest⟩ := List.forall_mem_cons.mp hmiddlewares
    refine asks_guardDispatch fun event hevent =>
      asks_runWith (hmiddleware event hevent) (fun updated hupdated s hs => ⟨?_, ih hrest⟩) heffect
    cases updated with
    | none => exact hs
    | some event => exact hupdated event rfl

theorem asks_composeMiddleware {middlewares : List EventMiddleware} {event : RawEvent}
    (hmiddlewares : ∀ middleware ∈ middlewares, ∀ event, J event →
      Asks (fun _ => True) (Call.Passes J) (middleware event ctx))
    (hhandler : ∀ event, J event → Asks (fun s => J s.currentEvent) P (handler event ctx))
    (heffect : ∀ e, P (.effect e)) (hevent : J event) :
    Asks (fun s => J s.currentEvent) P (composeMiddleware middlewares handler event ctx) := by
  cases middlewares with
  | nil => exact hhandler event hevent
  | cons middleware rest =>
    exact fun s _ => ⟨hevent, asks_dispatch hmiddlewares hhandler heffect⟩

theorem traces_composeMiddleware {middlewares : List EventMiddleware} {event : RawEvent}
    {s : Dispatch} {trace : Trace Message} (hne : middlewares ≠ [])
    (h : Traces Alone (composeMiddleware middlewares handler event ctx) s trace) :
    Traces Alone (dispatch handler ctx middlewares 0) { currentEvent := event } trace := by
  cases middlewares with
  | nil => exact absurd rfl hne
  | cons middleware rest => exact traces_sync.mp h

theorem passes_all (p : Invocation) : Asks (fun _ => True) (Call.Passes fun _ => True) p := by
  induction p with
  | done outcome => trivial
  | await q resume ih =>
    refine ⟨?_, ih⟩
    cases q with
    | next updated => exact fun _ _ => trivial
    | effect e => trivial
  | sync update resume ih => exact fun s _ => ⟨trivial, ih s⟩

end Asks

variable {config : MiddlewareConfig} {rounds : ℕ} {route : Route Message} {event : RawEvent}
  {signal : List AbortSource} {s : Dispatch} {trace : Trace Message} {options : RetryOptions}

/-- Every invocation of the handler gets the context that was made before the chain. -/
theorem context_of_mem (h : Traces Alone (deliver config rounds route event signal) s trace) :
    ∀ ctx ∈ contexts trace, ctx = createEventContext event signal := by
  have hasks : Asks (fun _ => True) (fun q : Query Message => ∀ ctx, q.context = some ctx →
      ctx = createEventContext event signal) (deliver config rounds route event signal) := by
    refine asks_composeMiddleware (J := fun _ => True) (fun _ _ _ _ => passes_all _) ?_ ?_ trivial
    · intro event' _
      unfold Route.handle
      split
      next => trivial
      next => exact ⟨fun ctx hctx => (Option.some.inj hctx).symm, fun _ => trivial⟩
    · exact fun e ctx hctx => by cases hctx
  intro ctx hctx
  obtain ⟨x, hx, hcontext⟩ := List.mem_filterMap.mp hctx
  exact hasks.traces (fun _ _ _ _ _ _ => trivial) trivial h x hx ctx hcontext

theorem attemptsReported_iff
    (h : Traces Alone (deliver config rounds route event signal) s trace) :
    AttemptsReported event.attempt trace ↔ (contexts trace).length ≤ 1 := by
  have hctx (k : ℕ) (ctx : EventContext) (hk : (contexts trace)[k]? = some ctx) :
      ctx.attempt = event.attempt := by
    rw [context_of_mem h ctx (List.mem_of_getElem? hk)]
    rfl
  constructor
  · intro hreported
    by_contra hlt
    rw [Nat.not_le] at hlt
    have hsecond := List.getElem?_eq_getElem hlt
    have hattempt := hreported 1 _ hsecond
    rw [hctx 1 _ hsecond] at hattempt
    omega
  · intro hlength k ctx hk
    have hlt := (List.getElem?_eq_some_iff.mp hk).1
    obtain rfl : k = 0 := by omega
    exact hctx 0 ctx hk

section Retry
variable {ctx : EventContext} {i : ℕ} {message : Message} {updated : Option RawEvent}
  {resume : Outcome → Invocation} {K : Outcome → Program Message Outcome} {lastError : Failure}

/-- The `nextFn` of the innermost middleware, at position `i`. -/
def innermost (route : Route Message) (ctx : EventContext) (i : ℕ) (updated : Option RawEvent) :
    Program Message Outcome :=
  .sync (fun s => { s with currentEvent := updated.getD s.currentEvent }) fun _ =>
    dispatch route.handle ctx [] (i + 1)

/-- A `next()` from the position that the index is at invokes the handler. -/
theorem traces_next (h : Traces Alone (runWith (innermost route ctx i)
      (.await (.next updated) resume) >>= K) s trace) (hindex : s.index = i)
    (hmessage : route.fromBinary (updated.getD s.currentEvent).payload = .ok message) :
    trace = [] ∨ ∃ outcome t u rest, trace = ⟨.handler message ctx, outcome, t⟩ :: rest ∧
      Traces Alone (runWith (innermost route ctx i) (resume outcome) >>= K) u rest ∧
      ∀ error, outcome = .error error → u.index = i := by
  have hassoc := Async.bind_assoc (innermost route ctx i updated)
    (fun outcome => runWith (innermost route ctx i) (resume outcome)) K
  cases trace with
  | nil => exact .inl rfl
  | cons x rest =>
    have hguard : ¬ ((i + 1 : ℕ) : ℤ) ≤ s.index := by omega
    have hnext := hassoc ▸ h
    have hrun := traces_sync.mp (traces_sync.mp hnext)
    dsimp only at hrun
    rw [if_neg hguard, if_neg hguard, Route.handle, hmessage] at hrun
    obtain ⟨outcome, t, rfl, rfl, hrest⟩ := traces_await_cons.mp hrun
    cases outcome with
    | ok u => exact .inr ⟨.ok u, _, _, rest, rfl, hrest, fun _ herror => by cases herror⟩
    | error error =>
      exact .inr ⟨.error error, _, _, rest, rfl, traces_sync.mp hrest, fun _ _ => by simp⟩

theorem contexts_eq_nil {p : Program Message Outcome}
    (hp : Asks (fun _ => True) (fun q => q.context = none) p) (h : Traces Alone p s trace) :
    contexts trace = [] := by
  refine List.filterMap_eq_nil_iff.mpr fun x hx => ?_
  exact hp.traces (fun _ _ _ _ _ _ => trivial) trivial h x hx

theorem contexts_effect_cons {e : Effect} {a : e.Answer} {u : Dispatch} :
    contexts (⟨.effect e, a, u⟩ :: trace : Trace Message) = contexts trace := rfl

theorem contexts_handler_cons {a : (Query.handler message ctx).Answer} {u : Dispatch} :
    contexts (⟨.handler message ctx, a, u⟩ :: trace) = ctx :: contexts trace := rfl

/-- The second round of the retry loop, up to the second invocation. -/
theorem traces_second_round
    (hK : ∀ outcome, Asks (fun _ => True) (fun q => q.context = none) (K outcome))
    (hmessage : route.fromBinary event.payload = .ok message) (hindex : s.index = i)
    (h : Traces Alone (runWith (innermost route ctx i)
      (retryLoop options event rounds 2 lastError) >>= K) s trace) :
    (contexts trace = [] ∧ (options.admits 2 = true →
      ∀ v x rest, trace ≠ ⟨.effect .aborted, none, v⟩ :: x :: rest)) ∨
    options.admits 2 = true ∧ ∃ v outcome t rest, trace =
      ⟨.effect .aborted, none, v⟩ :: ⟨.handler message ctx, outcome, t⟩ :: rest := by
  match trace, rounds with
  | [], _ => exact .inl ⟨rfl, fun _ _ _ _ heq => by cases heq⟩
  | x :: trace, 0 =>
    obtain ⟨a, -⟩ := traces_await_cons.mp h
    exact nomatch (a : Empty)
  | x :: trace, rounds + 1 =>
    unfold retryLoop at h
    dsimp only at h
    split at h
    next hadmits =>
      rw [if_pos (by decide)] at h
      obtain ⟨reason, u, rfl, rfl, hrest⟩ := traces_await_cons.mp h
      cases reason with
      | some reason =>
        refine .inl ⟨contexts_effect_cons.trans (contexts_eq_nil (hK _) hrest), ?_⟩
        exact fun _ v x rest heq => by cases heq
      | none =>
        rcases traces_next hrest hindex hmessage with rfl | ⟨outcome, t, -, rest, rfl, -⟩
        · exact .inl ⟨rfl, fun _ v x rest heq => by cases heq⟩
        · exact .inr ⟨hadmits, _, outcome, t, rest, rfl⟩
    next hadmits =>
      exact .inl ⟨contexts_eq_nil (hK _) h, fun h => absurd h hadmits⟩

/-- After the first failure the signal is not aborted by then nor during the sleep, and the second
attempt goes on to its next await. -/
def Resumed (options : RetryOptions) (trace : Trace Message) : Prop :=
  ∃ delay t u v x rest, trace = ⟨.effect .aborted, none, t⟩ ::
    ⟨.effect (.sleep delay), .ok (), u⟩ :: ⟨.effect .aborted, none, v⟩ :: x :: rest ∧
    options.admits 2 = true

theorem retried_error_cons {error : Failure} {t : Dispatch} :
    Retried options (⟨.handler message ctx, .error error, t⟩ :: trace) ↔
      options.rethrows error = none ∧ options.exhausted 1 = false ∧ Resumed options trace := by
  constructor
  · rintro ⟨_, _, _, _, _, _, _, _, _, _, heq, hrethrows, hexhausted, hadmits⟩
    cases heq
    exact ⟨hrethrows, hexhausted, _, _, _, _, _, _, rfl, hadmits⟩
  · rintro ⟨hrethrows, hexhausted, _, _, _, _, _, _, rfl, hadmits⟩
    exact ⟨_, _, _, _, _, _, _, _, _, _, rfl, hrethrows, hexhausted, hadmits⟩

theorem not_retried_ok_cons {u : Unit} {t : Dispatch} :
    ¬ Retried options (⟨.handler message ctx, .ok u, t⟩ :: trace) := by
  rintro ⟨_, _, _, _, _, _, _, _, _, _, heq, -⟩
  cases heq

theorem not_retried_of_contexts (h : contexts trace = []) : ¬ Retried options trace := by
  rintro ⟨_, _, _, _, _, _, _, _, _, _, rfl, -⟩
  cases h

/-- Between the first failure and the second round. -/
theorem traces_wait {error : Failure} {checked : Option Failure → Invocation}
    {slept : Outcome → Invocation}
    (hK : ∀ outcome, Asks (fun _ => True) (fun q => q.context = none) (K outcome))
    (hmessage : route.fromBinary event.payload = .ok message) (hindex : s.index = i)
    (h : Traces Alone (runWith (innermost route ctx i) (.await (.effect .aborted) checked) >>= K)
      s trace)
    (haborted : ∀ reason, checked (some reason) = .done (.error error))
    (hsleeps : checked none = .await (.effect (.sleep (options.delay 1))) slept)
    (hfailed : ∀ reason, slept (.error reason) = .done (.error reason))
    (hagain : slept (.ok ()) = retryLoop options event rounds 2 error) :
    contexts trace = [] ↔ ¬ Resumed options trace := by
  cases trace with
  | nil => exact iff_of_true rfl fun ⟨_, _, _, _, _, _, heq, _⟩ => by cases heq
  | cons y trace =>
    obtain ⟨reason, v, rfl, rfl, hchecked⟩ := traces_await_cons.mp h
    cases reason with
    | some reason =>
      change Traces Alone (runWith (innermost route ctx i) (checked (some reason)) >>= K) v trace
        at hchecked
      rw [haborted] at hchecked
      refine iff_of_true (contexts_effect_cons.trans (contexts_eq_nil (hK _) hchecked)) ?_
      rintro ⟨_, _, _, _, _, _, heq, -⟩
      cases heq
    | none =>
      change Traces Alone (runWith (innermost route ctx i) (checked none) >>= K) v trace at hchecked
      rw [hsleeps] at hchecked
      cases trace with
      | nil => exact iff_of_true rfl fun ⟨_, _, _, _, _, _, heq, _⟩ => by cases heq
      | cons z trace =>
        obtain ⟨outcome, w, rfl, rfl, hslept⟩ := traces_await_cons.mp hchecked
        refine (Eq.congr_left (contexts_effect_cons.trans contexts_effect_cons)).trans ?_
        change Traces Alone (runWith (innermost route ctx i) (slept outcome) >>= K) w trace
          at hslept
        cases outcome with
        | error reason =>
          rw [hfailed] at hslept
          refine iff_of_true (contexts_eq_nil (hK _) hslept) ?_
          rintro ⟨_, _, _, _, _, _, heq, -⟩
          cases heq
        | ok _ =>
          rw [hagain] at hslept
          rcases traces_second_round hK hmessage hindex hslept with
            ⟨hcontexts, hnot⟩ | ⟨hsecond, v, outcome, t, rest, rfl⟩
          · refine iff_of_true hcontexts ?_
            rintro ⟨_, _, _, _, _, _, heq, hsecond⟩
            cases heq
            exact hnot hsecond _ _ _ rfl
          · refine iff_of_false (by simp [contexts, Query.context]) (not_not.mpr ?_)
            exact ⟨_, _, _, _, _, _, rfl, hsecond⟩

/-- From the retry middleware on, the handler is invoked a second time exactly if the first
invocation is retried. -/
theorem traces_retry
    (hK : ∀ outcome, Asks (fun _ => True) (fun q => q.context = none) (K outcome))
    (hmessage : route.fromBinary event.payload = .ok message) (hindex : s.index = i)
    (hcurrent : s.currentEvent = event)
    (h : Traces Alone (runWith (innermost route ctx i)
      (retryLoop options event rounds 1 lastError) >>= K) s trace) :
    (contexts trace).length ≤ 1 ↔ ¬ Retried options trace := by
  have hnone (hcontexts : contexts trace = []) :
      (contexts trace).length ≤ 1 ↔ ¬ Retried options trace := by
    rw [hcontexts]
    exact iff_of_true (Nat.zero_le 1) (not_retried_of_contexts hcontexts)
  match trace, rounds with
  | [], _ => exact hnone rfl
  | x :: trace, 0 =>
    obtain ⟨a, -⟩ := traces_await_cons.mp h
    exact nomatch (a : Empty)
  | x :: trace, rounds + 1 =>
    unfold retryLoop at h
    dsimp only at h
    split at h
    next hadmits =>
      rw [if_neg (by decide)] at h
      have hdecoded : route.fromBinary ((none : Option RawEvent).getD s.currentEvent).payload =
          .ok message := by
        rw [Option.getD_none, hcurrent]
        exact hmessage
      rcases traces_next h hindex hdecoded with heq | ⟨outcome, t, u, rest, heq, hrest, hreset⟩
      · cases heq
      · have hlength : (ctx :: contexts rest).length ≤ 1 ↔ contexts rest = [] := by
          rw [List.length_cons, Nat.succ_le_succ_iff]
          exact Nat.le_zero.trans List.length_eq_zero_iff
        rw [heq, contexts_handler_cons, hlength]
        cases outcome with
        | ok _ => exact iff_of_true (contexts_eq_nil (hK _) hrest) not_retried_ok_cons
        | error error =>
          refine Iff.trans ?_ (not_congr retried_error_cons).symm
          dsimp only at hrest
          split at hrest
          next thrown hthrown =>
            exact iff_of_true (contexts_eq_nil (hK _) hrest) (by simp [hthrown])
          next hrethrows =>
            split at hrest
            next hexhausted =>
              exact iff_of_true (contexts_eq_nil (hK _) hrest) (by simp [hexhausted])
            next hexhausted =>
              rw [traces_wait hK hmessage (hreset error rfl) hrest (fun _ => rfl) rfl
                (fun _ => rfl) rfl]
              simp [hrethrows, hexhausted]
    next => exact hnone (contexts_eq_nil (hK _) h)

/-- The dead letter queue calls `next()` once and only publishes and settles after that. -/
theorem dlqMiddleware_eq (options : DlqOptions) (event : RawEvent) (ctx : EventContext) :
    ∃ resume, dlqMiddleware options event ctx = .await (.next none) resume ∧
      ∀ outcome, Asks (fun _ => True) (fun c => ∃ e, c = .effect e) (resume outcome) := by
  have hnack (outcome : Outcome) : Asks (fun _ => True) (fun c => ∃ e, c = .effect e)
      (.done outcome : Invocation) := trivial
  refine ⟨_, rfl, fun outcome => ?_⟩
  cases outcome with
  | ok _ => trivial
  | error error =>
    dsimp only
    split
    · trivial
    · split
      · trivial
      · refine ⟨⟨_, rfl⟩, fun published => ?_⟩
        cases published with
        | error _ => exact ⟨⟨_, rfl⟩, hnack⟩
        | ok _ =>
          refine ⟨⟨_, rfl⟩, fun acked => ?_⟩
          cases acked with
          | error _ => exact ⟨⟨_, rfl⟩, hnack⟩
          | ok _ => trivial

theorem passes_dlqMiddleware {J : RawEvent → Prop} (options : DlqOptions) (event : RawEvent)
    (ctx : EventContext) :
    Asks (fun _ => True) (Call.Passes J) (dlqMiddleware options event ctx) := by
  obtain ⟨resume, heq, hresume⟩ := dlqMiddleware_eq options event ctx
  rw [heq]
  refine ⟨?_, fun outcome => (hresume outcome).mono ?_⟩
  · exact fun _ h => by cases h
  · rintro _ ⟨e, rfl⟩
    trivial

/-- A retry keeps the payload. -/
theorem passes_retryLoop (options : RetryOptions) (event : RawEvent) (attempt : ℕ) :
    Asks (fun _ => True) (Call.Passes fun e => e.payload = event.payload)
      (retryLoop options event rounds attempt lastError) := by
  induction rounds generalizing attempt lastError with
  | zero => exact ⟨trivial, fun a => nomatch (a : Empty)⟩
  | succ rounds ih =>
    have htry (updated : Option RawEvent) (hupdated : ∀ e, updated = some e →
        e.payload = event.payload) :
        Asks (fun _ => True) (Call.Passes fun e => e.payload = event.payload)
          (tryAttempt options attempt (retryLoop options event rounds (attempt + 1)) updated) := by
      refine ⟨hupdated, fun outcome => ?_⟩
      cases outcome with
      | ok _ => trivial
      | error error =>
        dsimp only
        split
        · trivial
        · split
          · trivial
          · refine ⟨trivial, fun reason => ?_⟩
            cases reason with
            | some _ => trivial
            | none =>
              refine ⟨trivial, fun slept => ?_⟩
              cases slept with
              | error _ => trivial
              | ok _ => exact ih (attempt + 1)
    unfold retryLoop
    dsimp only
    split
    · split
      · refine ⟨trivial, fun reason => ?_⟩
        cases reason with
        | some _ => trivial
        | none => exact htry _ fun e he => Option.some.inj he ▸ rfl
      · exact htry none fun _ h => by cases h
    · trivial

end Retry

theorem asks_settleDispatch (i : ℕ) (outcome : Outcome) :
    Asks (fun _ => True) (fun q => q.context = none)
      (settleDispatch i outcome : Program Message Outcome) := by
  cases outcome with
  | ok _ => trivial
  | error _ => exact fun _ _ => ⟨trivial, trivial⟩

/-- The chain without custom middleware. -/
theorem middlewares_eq (hcustom : config.custom = []) (hretry : config.retry = some options)
    (hroute : route.middleware = none) :
    route.middleware.getD (config.middlewares rounds) =
      config.dlq.toList.map dlqMiddleware ++ [retryMiddleware rounds options] := by
  simp [MiddlewareConfig.middlewares, hcustom, hretry, hroute]

theorem contexts_of_decode_error {error : Failure}
    (h : Traces Alone (deliver config rounds route event signal) s trace)
    (hcustom : config.custom = []) (hretry : config.retry = some options)
    (hroute : route.middleware = none) (herror : route.fromBinary event.payload = .error error) :
    contexts trace = [] := by
  rw [deliver, middlewares_eq hcustom hretry hroute] at h
  have hmiddlewares : ∀ middleware ∈
      config.dlq.toList.map dlqMiddleware ++ [retryMiddleware rounds options],
      ∀ e, e.payload = event.payload → Asks (fun _ => True)
        (Call.Passes fun e => e.payload = event.payload)
        (middleware e (createEventContext event signal)) := by
    intro middleware hmem e he
    rcases List.mem_append.mp hmem with hmem | hmem
    · obtain ⟨dlq, -, rfl⟩ := List.mem_map.mp hmem
      exact passes_dlqMiddleware dlq e _
    · rw [List.mem_singleton.mp hmem, ← he]
      exact passes_retryLoop options e 1
  have hhandler (e : RawEvent) (he : e.payload = event.payload) :
      Asks (fun s : Dispatch => s.currentEvent.payload = event.payload)
        (fun q : Query Message => q.context = none)
        (route.handle e (createEventContext event signal)) := by
    simp only [Route.handle, he, herror]
    trivial
  have hasks := asks_dispatch (i := 0) hmiddlewares hhandler fun _ => rfl
  refine List.filterMap_eq_nil_iff.mpr ?_
  exact hasks.traces (fun _ _ _ _ heq hs => heq ▸ hs) rfl
    (traces_composeMiddleware (List.append_ne_nil_of_right_ne_nil _ (List.cons_ne_nil _ _)) h)

theorem traces_bind₃ {p : Program Message Outcome} {f g k : Outcome → Program Message Outcome}
    (h : Traces Alone (p >>= f >>= g >>= k) s trace) :
    Traces Alone (p >>= fun r => f r >>= fun r => g r >>= k) s trace := by
  rw [← Async.bind_assoc, ← Async.bind_assoc]
  exact h

/-- Nothing but the retry middleware calls the handler again. -/
theorem invoked_once_iff
    (h : Traces Alone (deliver config rounds route event signal) s trace)
    (hcustom : config.custom = []) (hretry : config.retry = some options)
    (hroute : route.middleware = none) :
    (contexts trace).length ≤ 1 ↔ ¬ Retried options trace := by
  cases hmessage : route.fromBinary event.payload with
  | error error =>
    have hnone := contexts_of_decode_error h hcustom hretry hroute hmessage
    rw [hnone]
    exact iff_of_true (Nat.zero_le 1) (not_retried_of_contexts hnone)
  | ok message =>
    rw [deliver, middlewares_eq hcustom hretry hroute] at h
    cases hdlq : config.dlq with
    | none =>
      rw [hdlq] at h
      exact traces_retry (asks_settleDispatch 0) hmessage rfl rfl
        (traces_sync.mp (traces_sync.mp h))
    | some dlq =>
      obtain ⟨resume, hresume, hcatch⟩ :=
        dlqMiddleware_eq dlq event (createEventContext event signal)
      rw [hdlq] at h
      have hrun := traces_sync.mp (traces_sync.mp h)
      dsimp only at hrun
      rw [if_neg (by decide), if_neg (by decide), hresume] at hrun
      have hinner := traces_sync.mp (traces_sync.mp hrun)
      dsimp only at hinner
      rw [if_neg (by decide), if_neg (by decide)] at hinner
      refine traces_retry ?_ hmessage rfl rfl (traces_bind₃ hinner)
      intro outcome
      refine (asks_settleDispatch 1 outcome).bind fun outcome =>
        Asks.bind ?_ (asks_settleDispatch 0)
      exact asks_runWith (hcatch outcome) (fun _ h => by obtain ⟨e, he⟩ := h; cases he) fun _ => rfl

/-- The attempts are reported in a delivery exactly if the handler is invoked at most once. Of the
built-in middleware that is exactly if the first invocation is not retried. -/
theorem attempts_reported_iff_not_retried
    (h : Traces Alone (deliver config rounds route event signal) s trace) :
    (AttemptsReported event.attempt trace ↔ (contexts trace).length ≤ 1) ∧
      ∀ options, config.custom = [] → config.retry = some options → route.middleware = none →
        (AttemptsReported event.attempt trace ↔ ¬ Retried options trace) := by
  have hiff := attemptsReported_iff h
  refine ⟨hiff, fun options hcustom hretry hroute => ?_⟩
  exact hiff.trans (invoked_once_iff h hcustom hretry hroute)

def unlimited : MiddlewareConfig := { retry := some { maxRetries := some (.infinite false) } }

def unitRoute : Route Unit := { fromBinary := fun _ => .ok () }

def firstDelivery : RawEvent := ⟨"1", "orders.created", [], 0, 1, []⟩

def invalid : Failure := { thrown := .error "NonRetryableError" "invalid", nonRetryable := true }

def unavailable : Failure := { thrown := .error "Error" "unavailable" }

/-- The context of the delivery. -/
def firstContext : EventContext := createEventContext firstDelivery []

theorem attempts_reported_iff_not_retried_invalid :
    AttemptsReported 1 [⟨.handler () firstContext, .error invalid, ⟨1, firstDelivery⟩⟩] ↔
      (contexts ([⟨.handler () firstContext, .error invalid, ⟨1, firstDelivery⟩⟩] :
        Trace Unit)).length ≤ 1 := by
  have h : Traces Alone (deliver unlimited 1 unitRoute firstDelivery []) ⟨-1, firstDelivery⟩
      [⟨.handler () firstContext, .error invalid, ⟨1, firstDelivery⟩⟩] :=
    ⟨_, rfl, rfl, trivial⟩
  exact (attempts_reported_iff_not_retried h).1

/-- The second invocation reports the attempt of the first. -/
theorem retried_attempt_not_reported :
    ¬ ∀ (config : MiddlewareConfig) (options : RetryOptions) (rounds : ℕ) (route : Route Unit)
      (event : RawEvent) (signal : List AbortSource) (s : Dispatch) (trace : Trace Unit),
      config.custom = [] → config.retry = some options → route.middleware = none →
      Traces Alone (deliver config rounds route event signal) s trace →
      AttemptsReported event.attempt trace := by
  intro hreported
  have hattempts := hreported unlimited { maxRetries := some (.infinite false) } 2 unitRoute
    firstDelivery [] ⟨-1, firstDelivery⟩
    [⟨.handler () firstContext, .error unavailable, ⟨1, firstDelivery⟩⟩,
      ⟨.effect .aborted, none, ⟨0, firstDelivery⟩⟩,
      ⟨.effect (.sleep (RetryOptions.delay { maxRetries := some (.infinite false) } 1)), .ok (),
        ⟨0, firstDelivery⟩⟩,
      ⟨.effect .aborted, none, ⟨0, firstDelivery⟩⟩,
      ⟨.handler () firstContext, .ok (), ⟨1, { firstDelivery with attempt := 2 }⟩⟩]
    rfl rfl rfl ⟨_, rfl, rfl, _, rfl, rfl, _, rfl, rfl, _, rfl, rfl, _, rfl, rfl, trivial⟩
  exact absurd (hattempts 1 firstContext rfl) (by decide)

end Connectum.Events.Middleware
