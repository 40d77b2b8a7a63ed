import Connectum.Marks
import Connectum.Events.Attempts

/-! The retry middleware against one description of its runs, over all outcomes of `next()` and all
answers about the signal. -/
namespace Connectum.Events.Middleware
open Async

abbrev CallTrace := List (Answered Call Call.Answer Unit)

def nextCall : Answered Call Call.Answer Unit → Option (Option RawEvent × Outcome)
  | ⟨.next updated, outcome, _⟩ => some (updated, outcome)
  | ⟨.effect _, _, _⟩ => none

/-- The `next()` calls of a run, with the events that they pass and their outcomes. -/
def nextCalls (trace : CallTrace) : List (Option RawEvent × Outcome) := trace.filterMap nextCall

/-- The brand of `NonRetryableError` comes first, the one of `RetryableError` second. -/
def NonRetryable (options : RetryOptions) (error : Failure) : Prop :=
  error.nonRetryable = true ∨
    error.retryable = false ∧ ∃ p, options.retryableErrors = some p ∧ p error = .ok false

def Retryable (options : RetryOptions) (error : Failure) : Prop :=
  error.nonRetryable = false ∧
    (error.retryable = true ∨ ∀ p, options.retryableErrors = some p → p error = .ok true)

/-- The predicate is asked about the error and throws. -/
def PredicateThrows (options : RetryOptions) (error thrown : Failure) : Prop :=
  error.nonRetryable = false ∧ error.retryable = false ∧
    ∃ p, options.retryableErrors = some p ∧ p error = .error thrown

/-- What the loop goes on after: a failure that is to be retried, a check that sees no abort, and a
sleep to its end. -/
def GoesOn (options : RetryOptions) : Answered Call Call.Answer Unit → Prop
  | ⟨.next _, outcome, _⟩ => ∃ error, outcome = .error error ∧ Retryable options error
  | ⟨.effect .aborted, reason, _⟩ => reason = none
  | ⟨.effect (.sleep _), outcome, _⟩ => outcome = .ok ()
  | ⟨.effect _, _, _⟩ => False

/-- How the middleware settles, with `count` calls. An abort right after a failure leaves the
failure, and one that a backoff wait meets gives the reason of the signal. -/
inductive Stops (options : RetryOptions) (n count : ℕ) : CallTrace → Outcome → Prop where
  | succeeds {before updated} :
      Stops options n count (before ++ [⟨.next updated, .ok (), ()⟩]) (.ok ())
  | nonRetryable {before updated error} (h : NonRetryable options error) :
      Stops options n count (before ++ [⟨.next updated, .error error, ()⟩]) (.error error)
  | predicateThrows {before updated error thrown} (h : PredicateThrows options error thrown) :
      Stops options n count (before ++ [⟨.next updated, .error error, ()⟩]) (.error thrown)
  | exhausted {before updated error} (h : count = n + 1) :
      Stops options n count (before ++ [⟨.next updated, .error error, ()⟩]) (.error error)
  | abortedBefore {before updated error reason} :
      Stops options n count (before ++ [⟨.next updated, .error error, ()⟩,
        ⟨.effect .aborted, some reason, ()⟩]) (.error error)
  | abortedDuring {before updated error delay reason} :
      Stops options n count (before ++ [⟨.next updated, .error error, ()⟩,
        ⟨.effect .aborted, none, ()⟩, ⟨.effect (.sleep delay), .error reason, ()⟩]) (.error reason)
  | abortedAfter {before updated error delay reason} :
      Stops options n count (before ++ [⟨.next updated, .error error, ()⟩,
        ⟨.effect .aborted, none, ()⟩, ⟨.effect (.sleep delay), .ok (), ()⟩,
        ⟨.effect .aborted, some reason, ()⟩]) (.error reason)
  -- the sum `maxRetries + 1` is rounded
  | inexact {before updated error delay} (h : 2 ^ 53 ≤ n) :
      Stops options n count (before ++ [⟨.next updated, .error error, ()⟩,
        ⟨.effect .aborted, none, ()⟩, ⟨.effect (.sleep delay), .ok (), ()⟩]) (.error error)

/-- A complete run of the middleware, with `maxRetries` being `n`. -/
structure RetryRun (options : RetryOptions) (n : ℕ) (event : RawEvent) (trace : CallTrace)
    (outcome : Outcome) : Prop where
  least : 1 ≤ (nextCalls trace).length
  most : (nextCalls trace).length ≤ n + 1
  attempts : ∀ k call, (nextCalls trace)[k]? = some call →
    (call.1.getD event).attempt = event.attempt + k
  goesOn : ∀ x ∈ trace.dropLast, GoesOn options x
  stops : Stops options n (nextCalls trace).length trace outcome

/-- A run up to the call after the `k`-th. -/
structure Begun (options : RetryOptions) (event : RawEvent) (k : ℕ) (before : CallTrace) :
    Prop where
  calls : (nextCalls before).length = k
  attempts : ∀ j call, (nextCalls before)[j]? = some call →
    (call.1.getD event).attempt = event.attempt + j
  goesOn : ∀ x ∈ before, GoesOn options x

variable {options : RetryOptions} {n k : ℕ} {event : RawEvent} {before trace : CallTrace}
  {error thrown : Failure} {updated : Option RawEvent} {outcome : Outcome}

theorem rethrows_of_none (h : options.rethrows error = none) : Retryable options error := by
  unfold RetryOptions.rethrows at h
  split at h
  · cases h
  next hnon =>
    refine ⟨eq_false_of_ne_true hnon, ?_⟩
    split at h
    next hretryable => exact .inl hretryable
    next =>
      right
      intro p hp
      rw [hp] at h
      dsimp only at h
      split at h
      · cases h
      next htrue => exact htrue
      · cases h

theorem rethrows_of_some (h : options.rethrows error = some thrown) :
    NonRetryable options error ∧ thrown = error ∨ PredicateThrows options error thrown := by
  unfold RetryOptions.rethrows at h
  split at h
  next hnon => exact .inl ⟨.inl hnon, (Option.some.inj h).symm⟩
  next hnon =>
    split at h
    · cases h
    next hretryable =>
      have hnon := eq_false_of_ne_true hnon
      have hretryable := eq_false_of_ne_true hretryable
      split at h
      · cases h
      next p hp =>
        split at h
        next hthrows =>
          obtain rfl := Option.some.inj h
          exact .inr ⟨hnon, hretryable, p, hp, hthrows⟩
        · cases h
        next hfalse =>
          exact .inl ⟨.inr ⟨hretryable, p, hp, hfalse⟩, (Option.some.inj h).symm⟩

theorem exhausted_iff (hlimit : options.limit = .finite n) (attempt : ℕ) :
    options.exhausted attempt = true ↔ n < attempt := by
  unfold RetryOptions.exhausted
  rw [hlimit]
  simp

theorem le_of_not_exhausted (hlimit : options.limit = .finite n) {attempt : ℕ}
    (h : options.exhausted attempt = false) : attempt ≤ n := by
  have hlt : ¬ n < attempt := by
    rw [← exhausted_iff hlimit, h]
    exact Bool.false_ne_true
  omega

theorem admits_one (hlimit : options.limit = .finite n) : options.admits 1 = true := by
  unfold RetryOptions.admits
  rw [hlimit]
  exact JsNumber.one_le_ofRat (by simp)

theorem admits_of_le (hlimit : options.limit = .finite n) (hn : n < 2 ^ 53) {attempt : ℕ}
    (h : attempt ≤ n + 1) : options.admits attempt = true := by
  have hexact := JsNumber.ofRat_natCast (n := n + 1) (by omega)
  unfold RetryOptions.admits
  rw [hlimit]
  rw [Nat.cast_add_one] at hexact
  simp only [hexact, JsNumber.atLeast, decide_eq_true_eq]
  exact_mod_cast h

/-- A round of the loop that goes on to the next one. -/
def failedRound (updated : Option RawEvent) (error : Failure) (delay : ℚ) : CallTrace :=
  [⟨.next updated, .error error, ()⟩, ⟨.effect .aborted, none, ()⟩,
    ⟨.effect (.sleep delay), .ok (), ()⟩]

/-- The last round, from its call on. -/
structure Ends (options : RetryOptions) (n count : ℕ) (updated : Option RawEvent)
    (trace : CallTrace) (outcome : Outcome) : Prop where
  calls : ∃ last, nextCalls trace = [(updated, last)]
  goesOn : ∀ x ∈ trace.dropLast, GoesOn options x
  stops : ∀ before, Stops options n count (before ++ trace) outcome

theorem runs_tryAttempt {again : Failure → Invocation} {count : ℕ}
    (hcount : options.exhausted k = true → count = n + 1)
    (h : Runs (tryAttempt options k again updated) trace (some outcome)) :
    Ends options n count updated trace outcome ∨
      ∃ error rest, trace = failedRound updated error (options.delay k) ++ rest ∧
        Retryable options error ∧ options.exhausted k = false ∧
        Runs (again error) rest (some outcome) := by
  obtain ⟨result, rest, rfl, hresult⟩ := runs_await_some h
  cases result with
  | ok u =>
    obtain ⟨rfl, rfl⟩ := runs_done_some hresult
    exact .inl ⟨⟨_, rfl⟩, by simp, fun before => .succeeds⟩
  | error error =>
    cases hrethrows : options.rethrows error with
    | some thrown =>
      dsimp only at hresult
      rw [hrethrows] at hresult
      obtain ⟨rfl, rfl⟩ := runs_done_some hresult
      refine .inl ⟨⟨_, rfl⟩, by simp, fun before => ?_⟩
      rcases rethrows_of_some hrethrows with ⟨hnon, rfl⟩ | hthrows
      · exact .nonRetryable hnon
      · exact .predicateThrows hthrows
    | none =>
      have hretryable := rethrows_of_none hrethrows
      dsimp only at hresult
      rw [hrethrows] at hresult
      dsimp only at hresult
      have hfailed : GoesOn options ⟨.next updated, .error error, ()⟩ := ⟨error, rfl, hretryable⟩
      cases hexhausted : options.exhausted k with
      | true =>
        rw [if_pos hexhausted] at hresult
        obtain ⟨rfl, rfl⟩ := runs_done_some hresult
        exact .inl ⟨⟨_, rfl⟩, by simp, fun before => .exhausted (hcount hexhausted)⟩
      | false =>
        rw [if_neg (by simp [hexhausted])] at hresult
        obtain ⟨reason, rest, rfl, hreason⟩ := runs_await_some hresult
        cases reason with
        | some reason =>
          obtain ⟨rfl, rfl⟩ := runs_done_some hreason
          exact .inl ⟨⟨_, rfl⟩, by simpa using hfailed, fun before => .abortedBefore⟩
        | none =>
          obtain ⟨slept, rest, rfl, hslept⟩ := runs_await_some hreason
          cases slept with
          | error reason =>
            obtain ⟨rfl, rfl⟩ := runs_done_some hslept
            refine .inl ⟨⟨_, rfl⟩, ?_, fun before => .abortedDuring⟩
            exact List.forall_mem_cons.mpr ⟨hfailed, List.forall_mem_singleton.mpr rfl⟩
          | ok u => exact .inr ⟨error, rest, rfl, hretryable, rfl, hslept⟩

theorem nextCalls_append (first rest : CallTrace) :
    nextCalls (first ++ rest) = nextCalls first ++ nextCalls rest := List.filterMap_append

theorem attempts_concat {calls : List (Option RawEvent × Outcome)}
    {last : Option RawEvent × Outcome} (hlength : calls.length = k)
    (h : ∀ j call, calls[j]? = some call → (call.1.getD event).attempt = event.attempt + j)
    (hlast : (last.1.getD event).attempt = event.attempt + k) :
    ∀ j call, (calls ++ [last])[j]? = some call →
      (call.1.getD event).attempt = event.attempt + j := by
  intro j call hj
  rcases Nat.lt_trichotomy j calls.length with hlt | rfl | hgt
  · rw [List.getElem?_append_left hlt] at hj
    exact h j call hj
  · rw [List.getElem?_concat_length] at hj
    obtain rfl := Option.some.inj hj
    rw [hlength]
    exact hlast
  · rw [List.getElem?_eq_none (by simp; omega)] at hj
    cases hj

theorem begun_nil : Begun options event 0 [] := ⟨rfl, by simp [nextCalls], by simp⟩

theorem Begun.check (h : Begun options event k before) :
    Begun options event k (before ++ [⟨.effect .aborted, none, ()⟩]) := by
  have hcalls : nextCalls (before ++ [⟨.effect .aborted, none, ()⟩]) = nextCalls before := by
    rw [nextCalls_append]
    exact List.append_nil _
  constructor
  · rw [hcalls]
    exact h.calls
  · rw [hcalls]
    exact h.attempts
  · exact List.forall_mem_append.mpr ⟨h.goesOn, List.forall_mem_singleton.mpr rfl⟩

theorem Begun.round {delay : ℚ} (h : Begun options event k before)
    (hattempt : (updated.getD event).attempt = event.attempt + k)
    (hretryable : Retryable options error) :
    Begun options event (k + 1) (before ++ failedRound updated error delay) := by
  have hcalls : nextCalls (before ++ failedRound updated error delay) =
      nextCalls before ++ [(updated, .error error)] := nextCalls_append _ _
  constructor
  · rw [hcalls, List.length_append, h.calls]
    rfl
  · rw [hcalls]
    exact attempts_concat h.calls h.attempts hattempt
  · refine List.forall_mem_append.mpr ⟨h.goesOn, ?_⟩
    exact List.forall_mem_cons.mpr ⟨⟨error, rfl, hretryable⟩,
      List.forall_mem_cons.mpr ⟨rfl, List.forall_mem_singleton.mpr rfl⟩⟩

theorem Begun.ends (h : Begun options event k before) (hk : k ≤ n)
    (hattempt : (updated.getD event).attempt = event.attempt + k)
    (hends : Ends options n (k + 1) updated trace outcome) :
    RetryRun options n event (before ++ trace) outcome := by
  obtain ⟨last, hlast⟩ := hends.calls
  have hcalls : nextCalls (before ++ trace) = nextCalls before ++ [(updated, last)] := by
    rw [nextCalls_append, hlast]
  have hlength : (nextCalls (before ++ trace)).length = k + 1 := by
    rw [hcalls, List.length_append, h.calls]
    rfl
  have hne : trace ≠ [] := by
    rintro rfl
    cases hlast
  constructor
  · omega
  · omega
  · rw [hcalls]
    exact attempts_concat h.calls h.attempts hattempt
  · rw [List.dropLast_append_of_ne_nil hne]
    exact List.forall_mem_append.mpr ⟨h.goesOn, hends.goesOn⟩
  · rw [hlength]
    exact hends.stops before

/-- A run that stops at a check of the next round, which makes no call. -/
theorem Begun.stops (h : Begun options event k before) (hpos : 0 < k)
    (hk : k ≤ n + 1) (hdrop : ∀ x ∈ (before ++ trace).dropLast, x ∈ before)
    (hcalls : nextCalls trace = []) (hstops : Stops options n k (before ++ trace) outcome) :
    RetryRun options n event (before ++ trace) outcome := by
  have hcalls : nextCalls (before ++ trace) = nextCalls before := by
    rw [nextCalls_append, hcalls, List.append_nil]
  constructor
  · rw [hcalls, h.calls]
    exact hpos
  · rw [hcalls, h.calls]
    exact hk
  · rw [hcalls]
    exact h.attempts
  · exact fun x hx => h.goesOn x (hdrop x hx)
  · rw [hcalls, h.calls]
    exact hstops

/-- A round after `k` failed ones. -/
theorem Begun.tryAttempt {again : Failure → Invocation} (h : Begun options event k before)
    (hlimit : options.limit = .finite n) (hk : k ≤ n)
    (hattempt : (updated.getD event).attempt = event.attempt + k)
    (hrun : Runs (tryAttempt options (k + 1) again updated) trace (some outcome))
    (hagain : ∀ {error delay rest}, k + 1 ≤ n →
      Begun options event (k + 1) (before ++ failedRound updated error delay) →
      Runs (again error) rest (some outcome) →
      RetryRun options n event (before ++ failedRound updated error delay ++ rest) outcome) :
    RetryRun options n event (before ++ trace) outcome := by
  have hcount : options.exhausted (k + 1) = true → k + 1 = n + 1 := by
    intro hexhausted
    have := (exhausted_iff hlimit _).mp hexhausted
    omega
  rcases runs_tryAttempt hcount hrun with hends | ⟨error, rest, rfl, hretryable, hexhausted, hrest⟩
  · exact h.ends hk hattempt hends
  · rw [← List.append_assoc]
    exact hagain (le_of_not_exhausted hlimit hexhausted) (h.round hattempt hretryable) hrest

/-- The loop after `k` failed rounds. -/
theorem Begun.retryLoop {rounds : ℕ} {first : CallTrace} {delay : ℚ}
    (h : Begun options event k before) (hlimit : options.limit = .finite n) (hpos : 0 < k)
    (hk : k ≤ n) (hrounds : n < rounds + k)
    (hbefore : before = first ++ failedRound updated error delay)
    (hrun : Runs (retryLoop options event rounds (k + 1) error) trace (some outcome)) :
    RetryRun options n event (before ++ trace) outcome := by
  induction rounds generalizing k before trace first updated error delay with
  | zero => omega
  | succ rounds ih =>
    unfold Middleware.retryLoop at hrun
    dsimp only at hrun
    split at hrun
    next hadmits =>
      rw [if_pos (by omega)] at hrun
      obtain ⟨reason, rest, rfl, hreason⟩ := runs_await_some hrun
      cases reason with
      | some reason =>
        obtain ⟨rfl, rfl⟩ := runs_done_some hreason
        refine h.stops hpos (by omega) (fun x hx => ?_) rfl ?_
        · rwa [List.dropLast_concat] at hx
        · rw [hbefore, failedRound, List.append_assoc]
          exact .abortedAfter
      | none =>
        rw [List.append_cons]
        exact h.check.tryAttempt hlimit hk rfl hreason fun hlt hbegun hrest =>
          ih hbegun (by omega) hlt (by omega) rfl hrest
    next hadmits =>
      obtain ⟨rfl, rfl⟩ := runs_done_some hrun
      have hlarge : 2 ^ 53 ≤ n := by
        by_contra hsmall
        exact hadmits (admits_of_le hlimit (by omega) (by omega))
      refine h.stops hpos (by omega) (fun x hx => ?_) rfl ?_
      · rw [List.append_nil] at hx
        exact (List.dropLast_sublist before).subset hx
      · rw [hbefore, failedRound, List.append_nil]
        exact .inexact hlarge

theorem retryRun_of_runs {rounds : ℕ} {ctx : EventContext} (hlimit : options.limit = .finite n)
    (hrounds : n < rounds)
    (hrun : Runs (retryMiddleware rounds options event ctx) trace (some outcome)) :
    RetryRun options n event trace outcome := by
  cases rounds with
  | zero => omega
  | succ rounds =>
    unfold retryMiddleware Middleware.retryLoop at hrun
    dsimp only at hrun
    rw [if_pos (admits_one hlimit), if_neg (by omega)] at hrun
    exact begun_nil.tryAttempt hlimit (Nat.zero_le n) rfl hrun fun hlt hbegun hrest =>
      hbegun.retryLoop hlimit (by omega) hlt (by omega) rfl hrest

section Asks

theorem asks_tryAttempt {again : Failure → Invocation} {attempt : ℕ}
    (hagain : options.exhausted attempt = false →
      ∀ error, Asks (fun _ => True) (fun q => Nonempty q.Answer) (again error)) :
    Asks (fun _ => True) (fun q => Nonempty q.Answer)
      (tryAttempt options attempt again updated) := by
  refine ⟨⟨.ok ()⟩, fun result => ?_⟩
  cases result with
  | ok u => trivial
  | error error =>
    dsimp only
    cases options.rethrows error with
    | some thrown => trivial
    | none =>
      dsimp only
      split
      next => trivial
      next hexhausted =>
        refine ⟨⟨none⟩, fun reason => ?_⟩
        cases reason with
        | some reason => trivial
        | none =>
          refine ⟨⟨.ok ()⟩, fun slept => ?_⟩
          cases slept with
          | error reason => trivial
          | ok u => exact hagain (eq_false_of_ne_true hexhausted) error

/-- The rounds are enough. -/
theorem asks_retryLoop {rounds : ℕ} (hlimit : options.limit = .finite n) (hk : k ≤ n)
    (hrounds : n < rounds + k) :
    Asks (fun _ => True) (fun q => Nonempty q.Answer)
      (retryLoop options event rounds (k + 1) error) := by
  induction rounds generalizing k error with
  | zero => omega
  | succ rounds ih =>
    have hagain (updated : Option RawEvent) : Asks (fun _ => True) (fun q => Nonempty q.Answer)
        (tryAttempt options (k + 1) (retryLoop options event rounds (k + 1 + 1)) updated) := by
      apply asks_tryAttempt
      intro hexhausted error
      exact ih (le_of_not_exhausted hlimit hexhausted) (by omega)
    unfold retryLoop
    dsimp only
    split
    next =>
      split
      next =>
        refine ⟨⟨none⟩, fun reason => ?_⟩
        cases reason with
        | some reason => trivial
        | none => exact hagain _
      next => exact hagain none
    next => trivial

end Asks

/-- The middleware always settles, and a complete run is as described, whatever the outcomes of
`next()` and whenever the signal is aborted. -/
theorem retryMiddleware_runs {rounds : ℕ} (hlimit : options.limit = .finite n)
    (hrounds : n < rounds) (event : RawEvent) (ctx : EventContext) :
    (∀ trace, Runs (retryMiddleware rounds options event ctx) trace none →
      ∃ rest outcome, Runs (retryMiddleware rounds options event ctx) (trace ++ rest)
        (some outcome)) ∧
    ∀ trace outcome, Runs (retryMiddleware rounds options event ctx) trace (some outcome) →
      RetryRun options n event trace outcome :=
  ⟨fun _ h => (asks_retryLoop hlimit (Nat.zero_le n) hrounds).extends h,
    fun _ _ h => retryRun_of_runs hlimit hrounds h⟩

def onceMore : RetryOptions := { maxRetries := some (.finite 1) }

/-- A failure, a wait and a success. -/
def secondSucceeds : CallTrace :=
  failedRound none unavailable (onceMore.delay 1) ++ [⟨.effect .aborted, none, ()⟩,
    ⟨.next (some { firstDelivery with attempt := 2 }), .ok (), ()⟩]

theorem retryMiddleware_runs_once :
    RetryRun onceMore 1 firstDelivery secondSucceeds (.ok ()) := by
  have hlimit : onceMore.limit = .finite (1 : ℕ) := by simp [onceMore, RetryOptions.limit]
  have hexhausted : ¬ onceMore.exhausted 1 = true := by simp [exhausted_iff hlimit]
  have hadmits : onceMore.admits 2 = true := admits_of_le hlimit (by norm_num) (by norm_num)
  have hrun : Runs (retryMiddleware 2 onceMore firstDelivery firstContext) secondSucceeds
      (some (.ok ())) := by
    unfold retryMiddleware retryLoop
    dsimp only
    rw [if_pos (admits_one hlimit), if_neg (by omega)]
    apply runs_await_cons.mpr ⟨_, rfl, _⟩
    show Runs (if onceMore.exhausted 1 = true then _ else _) _ _
    rw [if_neg hexhausted]
    refine runs_await_cons.mpr ⟨_, rfl, runs_await_cons.mpr ⟨_, rfl, ?_⟩⟩
    show Runs (if onceMore.admits 2 = true then _ else _) _ _
    rw [if_pos hadmits, if_pos (by omega)]
    exact runs_await_cons.mpr ⟨_, rfl, runs_await_cons.mpr ⟨_, rfl, .done⟩⟩
  exact (retryMiddleware_runs hlimit (by omega) firstDelivery firstContext).2 _ _ hrun

/-- The middleware settles with the outcome of its last call, or with the reason of the signal at
the end of a wait. -/
def LastOrReason (trace : CallTrace) (outcome : Outcome) : Prop :=
  ((nextCalls trace).getLast?.map Prod.snd) = some outcome ∨
    ∃ before delay reason, outcome = .error reason ∧
      (trace = before ++ [⟨.effect (.sleep delay), .error reason, ()⟩] ∨
        trace = before ++ [⟨.effect (.sleep delay), .ok (), ()⟩,
          ⟨.effect .aborted, some reason, ()⟩])

/-- What the predicate throws replaces the outcome of the call. -/
theorem retryMiddleware_throws :
    ¬ ∀ (options : RetryOptions) (n rounds : ℕ) (event : RawEvent) (ctx : EventContext)
      (trace : CallTrace) (outcome : Outcome), options.limit = .finite n → n < rounds →
      Runs (retryMiddleware rounds options event ctx) trace (some outcome) →
      LastOrReason trace outcome := by
  intro h
  let options : RetryOptions :=
    { maxRetries := some (.finite 1), retryableErrors := some fun _ => .error invalid }
  have hlimit : options.limit = .finite (1 : ℕ) := by simp [options, RetryOptions.limit]
  have hrun : Runs (retryMiddleware 2 options firstDelivery firstContext)
      [⟨.next none, .error unavailable, ()⟩] (some (.error invalid)) := by
    unfold retryMiddleware retryLoop
    dsimp only
    rw [if_pos (admits_one hlimit), if_neg (by omega)]
    exact runs_await_cons.mpr ⟨_, rfl, .done⟩
  have hnext : ∀ x ∈ ([⟨.next none, .error unavailable, ()⟩] : CallTrace), ∀ e,
      x.query ≠ .effect e := by
    intro x hx e heq
    obtain rfl := List.mem_singleton.mp hx
    cases heq
  rcases h options 1 2 firstDelivery firstContext _ _ hlimit (by omega) hrun with
    hlast | ⟨before, delay, reason, -, hsleep | haborted⟩
  · exact absurd hlast (by decide)
  · exact hnext ⟨.effect (.sleep delay), .error reason, ()⟩ (by rw [hsleep]; simp) _ rfl
  · exact hnext ⟨.effect (.sleep delay), .ok (), ()⟩ (by rw [haborted]; simp) _ rfl

end Connectum.Events.Middleware
