import Connectum.Otel.Interceptor

/-! When the span of a call is ended once, with the status that the call and its stream had. -/
namespace Connectum.Otel
open SpanCall

namespace Iterable

/-- What pull `n` comes to in the wrapper's loop, if it ends it: an error or none. -/
def reaches (iterable : Iterable) (recordMessages : Bool) (n : ℕ) : Option (Option Thrown) :=
  match iterable.pull n with
  | .done => some none
  | .fails error => some (some error)
  | .message (.error error) => if recordMessages then some (some error) else none
  | .message (.ok _) => none

/-- How the consumer's requests end an iteration from pull `n` on, if they do. -/
def ends (iterable : Iterable) (recordMessages : Bool) : ℕ → List Request → Option (Option Thrown)
  | _, [] => none
  | n, .next :: rest =>
    match iterable.reaches recordMessages n with
    | some streamError => some streamError
    | none => iterable.ends recordMessages (n + 1) rest
  | _, .return :: _ =>
    match iterable.closed with
    | .error error => some (some error)
    | .ok () => some none
  | _, .throw error :: _ => some (some error)

/-- An iteration begins with a `next`. -/
def iterated (iterable : Iterable) (recordMessages : Bool) : List Request → Option (Option Thrown)
  | .next :: rest =>
    match iterable.opened with
    | .error error => some (some error)
    | .ok () => iterable.ends recordMessages 0 (.next :: rest)
  | _ => none

end Iterable

/-- An error that the `catch` block can read. -/
def Thrown.Caught (error : Thrown) : Prop :=
  (∃ attributes, buildErrorAttributes error = .ok attributes) ∧
    ∃ message, error.message = .ok message

/-- An error that the `finally` block takes for one and can describe. -/
def Thrown.Described (error : Thrown) : Prop :=
  error.truthy = true ∧ ∃ message, error.describe = .ok message

def responseRequests (actions : List (Side × Request)) : List Request :=
  actions.filterMap fun
    | (.response, r) => some r
    | (.request, _) => none

/-- The condition on a call: an error before the response can be read, a unary response's metrics
are recorded, and a response stream is iterated from a `next` to its end, where its error (if any)
is truthy and can be described. -/
def Call.Concludes (call : Call) (inject : Except Thrown Unit) (options : InterceptorOptions) :
    Prop :=
  match inject, call.response with
  | .error error, _ | .ok (), .error error | .ok (), .ok (.unary (.error error)) => error.Caught
  | .ok (), .ok (.unary (.ok _)) => options.recordMetrics call.metrics = .ok ()
  | .ok (), .ok (.stream iterable) =>
    match options.recordMetrics call.metrics with
    | .error error => error.Caught
    | .ok () => ∃ streamError,
      iterable.iterated options.recordMessages (responseRequests call.consuming) =
        some streamError ∧
        ∀ error, streamError = some error → error.Described

/-- The span is ended exactly once, with status `ERROR` exactly if the call or its stream failed. -/
def Instrumented.EndedOnce (run : Instrumented) : Prop :=
  SpanCall.ends run.calls = 1 ∧
    (status run.calls = .error ↔ (∃ error, run.outcome = .error error) ∨ run.streamFailed = true)

variable {w : Wrapped} {g h : Generator} {r : Request} {actions : List (Side × Request)}
  {request : Option Wrapped} {calls : List SpanCall} {error : Thrown}

namespace Wrapped

theorem finish_of_not_ending (hw : w.endSpanOnComplete = false) (streamError : Option Thrown) :
    w.finish streamError = ([], none) := by
  unfold finish
  rw [if_neg (by rw [hw]; exact Bool.false_ne_true)]

theorem pull_eq (w : Wrapped) (g : Generator) :
    (∃ events, w.iterable.reaches w.recordMessages (g.sequence - 1) = none ∧ Quiet events ∧
      w.pull g = ({ g with phase := .yielded, sequence := g.sequence + 1 }, .message, events)) ∨
    (w.iterable.reaches w.recordMessages (g.sequence - 1) = some none ∧ w.pull g = w.completes g) ∨
    ∃ error, w.iterable.reaches w.recordMessages (g.sequence - 1) = some (some error) ∧
      w.pull g = w.throws g error := by
  unfold pull Iterable.reaches
  cases hpull : w.iterable.pull (g.sequence - 1) with
  | done => exact .inr (.inl ⟨rfl, rfl⟩)
  | fails error => exact .inr (.inr ⟨error, rfl, rfl⟩)
  | message size =>
    cases hrecord : w.recordMessages with
    | false =>
      cases size with
      | ok size => exact .inl ⟨[], rfl, quiet_nil, rfl⟩
      | error error => exact .inl ⟨[], rfl, quiet_nil, rfl⟩
    | true =>
      cases size with
      | ok size => exact .inl ⟨_, rfl, quiet_event _ _, rfl⟩
      | error error => exact .inr (.inr ⟨error, rfl, rfl⟩)

/-- A wrapper that does not end the span records events only. -/
theorem quiet_step (hw : w.endSpanOnComplete = false) (g : Generator) (r : Request) :
    Quiet (w.step g r).2.2 := by
  have hcompletes : Quiet (w.completes g).2.2 := by
    rw [completes, finish_of_not_ending hw]
    exact quiet_nil
  have hthrows (error : Thrown) : Quiet (w.throws g error).2.2 := by
    rw [throws, finish_of_not_ending hw]
    exact quiet_nil
  have hpull : Quiet (w.pull g).2.2 := by
    rcases pull_eq w g with ⟨events, -, hevents, heq⟩ | ⟨-, heq⟩ | ⟨error, -, heq⟩
    · rw [heq]
      exact hevents
    · rw [heq]
      exact hcompletes
    · rw [heq]
      exact hthrows error
  cases r with
  | next =>
    unfold step
    cases g.phase with
    | start =>
      dsimp only
      split
      · exact hthrows _
      · exact hpull
    | yielded => exact hpull
    | completed => exact quiet_nil
  | «return» =>
    unfold step
    cases g.phase with
    | yielded =>
      dsimp only
      split
      · exact hthrows _
      · exact hcompletes
    | start => exact quiet_nil
    | completed => exact quiet_nil
  | throw error =>
    unfold step
    cases g.phase with
    | start => exact quiet_nil
    | yielded => exact hthrows error
    | completed => exact quiet_nil

/-- The calls of an iteration that ends as given: those of the `finally` block among quiet ones, or
quiet ones alone. -/
def Spans (w : Wrapped) (calls : List SpanCall) (failed : Bool) : Option (Option Thrown) → Prop
  | none => Quiet calls
  | some streamError => ∃ before after, calls = before ++ ((w.finish streamError).1 ++ after) ∧
    Quiet before ∧ Quiet after ∧ failed = streamError.isSome

theorem Spans.prepend {failed : Bool} {o : Option (Option Thrown)} (hquiet : Quiet calls)
    {rest : List SpanCall} (h : w.Spans rest failed o) : w.Spans (calls ++ rest) failed o := by
  cases o with
  | none => exact hquiet.append h
  | some streamError =>
    obtain ⟨before, after, rfl, hbefore, hafter, hfailed⟩ := h
    exact ⟨calls ++ before, after, (List.append_assoc ..).symm, hquiet.append hbefore, hafter,
      hfailed⟩

end Wrapped

theorem quiet_consume_none (hrequest : ∀ w, request = some w → w.endSpanOnComplete = false) :
    Quiet (consume request none g h actions).2.2 := by
  induction actions generalizing g h with
  | nil => exact quiet_nil
  | cons action rest ih =>
    obtain ⟨side, r⟩ := action
    cases side with
    | response => exact ih
    | request =>
      cases request with
      | none => exact ih
      | some w => exact (w.quiet_step (hrequest w rfl) g r).append ih

section Response
variable (hrequest : ∀ w, request = some w → w.endSpanOnComplete = false)
include hrequest

/-- After its completion the response stream adds nothing. -/
theorem consume_completed (hphase : h.phase = .completed) :
    Quiet (consume request (some w) g h actions).2.2 ∧
      (consume request (some w) g h actions).2.1.failed = h.failed := by
  induction actions generalizing g h with
  | nil => exact ⟨quiet_nil, rfl⟩
  | cons action rest ih =>
    obtain ⟨side, r⟩ := action
    cases side with
    | request =>
      cases request with
      | none => exact ih hphase
      | some v => exact ⟨(v.quiet_step (hrequest v rfl) g r).append (ih hphase).1, (ih hphase).2⟩
    | response =>
      have hstep : (w.step h r).1.phase = .completed ∧ (w.step h r).1.failed = h.failed ∧
          (w.step h r).2.2 = [] := by
        cases r <;> simp [Wrapped.step, hphase]
      obtain ⟨hnext, hfailed, hcalls⟩ := hstep
      obtain ⟨hquiet, heq⟩ := ih (g := g) hnext
      refine ⟨?_, heq.trans hfailed⟩
      change Quiet ((w.step h r).2.2 ++ _)
      rw [hcalls]
      exact hquiet

theorem spans_completed (streamError : Option Thrown) (hphase : h.phase = .completed)
    (hfailed : h.failed = streamError.isSome) :
    w.Spans ((w.finish streamError).1 ++ (consume request (some w) g h actions).2.2)
      (consume request (some w) g h actions).2.1.failed (some streamError) := by
  obtain ⟨hquiet, heq⟩ : Quiet (consume request (some w) g h actions).2.2 ∧ _ :=
    consume_completed hrequest hphase
  exact ⟨[], _, rfl, quiet_nil, hquiet, heq.trans hfailed⟩

/-- A step that ends the iteration, and what is asked after it. -/
theorem spans_completes {rest : List (Side × Request)} (hfailed : h.failed = false)
    (hstep : w.step h r = w.completes h) :
    w.Spans (consume request (some w) g h ((.response, r) :: rest)).2.2
      (consume request (some w) g h ((.response, r) :: rest)).2.1.failed (some none) := by
  simp only [consume, hstep]
  exact spans_completed hrequest none rfl hfailed

theorem spans_throws {rest : List (Side × Request)} (hstep : w.step h r = w.throws h error) :
    w.Spans (consume request (some w) g h ((.response, r) :: rest)).2.2
      (consume request (some w) g h ((.response, r) :: rest)).2.1.failed (some (some error)) := by
  simp only [consume, hstep]
  exact spans_completed hrequest (some error) rfl rfl

/-- The iteration from a yielded message on. -/
theorem spans_yielded (hphase : h.phase = .yielded) (hsequence : 1 ≤ h.sequence)
    (hfailed : h.failed = false) :
    w.Spans (consume request (some w) g h actions).2.2
      (consume request (some w) g h actions).2.1.failed
      (w.iterable.ends w.recordMessages (h.sequence - 1) (responseRequests actions)) := by
  induction actions generalizing g h with
  | nil => exact quiet_nil
  | cons action rest ih =>
    obtain ⟨side, r⟩ := action
    cases side with
    | request =>
      cases request with
      | none => exact ih hphase hsequence hfailed
      | some v => exact (ih hphase hsequence hfailed).prepend (v.quiet_step (hrequest v rfl) g r)
    | response =>
      cases r with
      | next =>
        have hstep : w.step h .next = w.pull h := by simp [Wrapped.step, hphase]
        simp only [responseRequests, List.filterMap_cons, Iterable.ends]
        rcases w.pull_eq h with ⟨events, hreaches, hevents, heq⟩ | ⟨hreaches, heq⟩ |
          ⟨error, hreaches, heq⟩
        · rw [hreaches]
          simp only [consume, hstep, heq]
          have hrest := ih (g := g) (h := { h with phase := .yielded, sequence := h.sequence + 1 })
            rfl (Nat.le_add_left 1 _) hfailed
          rw [Nat.sub_add_cancel hsequence]
          exact hrest.prepend hevents
        · rw [hreaches]
          exact spans_completes hrequest hfailed (hstep.trans heq)
        · rw [hreaches]
          exact spans_throws hrequest (hstep.trans heq)
      | «return» =>
        simp only [responseRequests, List.filterMap_cons, Iterable.ends]
        cases hclosed : w.iterable.closed with
        | error error =>
          exact spans_throws hrequest (by simp [Wrapped.step, hphase, hclosed])
        | ok _ =>
          exact spans_completes hrequest hfailed (by simp [Wrapped.step, hphase, hclosed])
      | throw error =>
        exact spans_throws hrequest (by simp [Wrapped.step, hphase])

/-- The whole iteration. -/
theorem spans_start :
    w.Spans (consume request (some w) g {} actions).2.2
      (consume request (some w) g {} actions).2.1.failed
      (w.iterable.iterated w.recordMessages (responseRequests actions)) := by
  induction actions generalizing g with
  | nil => exact quiet_nil
  | cons action rest ih =>
    obtain ⟨side, r⟩ := action
    cases side with
    | request =>
      cases request with
      | none => exact ih
      | some v => exact ih.prepend (v.quiet_step (hrequest v rfl) g r)
    | response =>
      cases r with
      | next =>
        simp only [responseRequests, List.filterMap_cons, Iterable.iterated]
        cases hopened : w.iterable.opened with
        | error error =>
          exact spans_throws hrequest (by simp [Wrapped.step, hopened])
        | ok _ =>
          have hstep : w.step {} .next = w.pull {} := by simp [Wrapped.step, hopened]
          simp only [Iterable.ends]
          rcases w.pull_eq {} with ⟨events, hreaches, hevents, heq⟩ | ⟨hreaches, heq⟩ |
            ⟨error, hreaches, heq⟩
          · have hreaches' : w.iterable.reaches w.recordMessages 0 = none := hreaches
            rw [hreaches']
            simp only [consume, hstep, heq]
            exact Wrapped.Spans.prepend hevents (spans_yielded hrequest
              (h := { phase := .yielded, sequence := 2, failed := false }) rfl (by decide) rfl)
          · have hreaches' : w.iterable.reaches w.recordMessages 0 = some none := hreaches
            rw [hreaches']
            exact spans_completes hrequest rfl (hstep.trans heq)
          · have hreaches' : w.iterable.reaches w.recordMessages 0 = some (some error) := hreaches
            rw [hreaches']
            exact spans_throws hrequest (hstep.trans heq)
      | «return» =>
        exact (consume_completed hrequest (w := w) (g := g) (h := { phase := .completed }) rfl).1
      | throw error =>
        exact (consume_completed hrequest (w := w) (g := g)
          (h := { phase := .completed, failed := true }) rfl).1

end Response

theorem endedOnce_iff_of_calls {run : Instrumented} {before middle after : List SpanCall}
    (code : SpanStatusCode) (message : Option String)
    (hcalls : run.calls = before ++ .setStatus code message :: (middle ++ .ended :: after))
    (hbefore : Quiet before) (hmiddle : Quiet middle) (hafter : Quiet after) :
    run.EndedOnce ↔
      (code = .error ↔ (∃ error, run.outcome = .error error) ∨ run.streamFailed = true) := by
  obtain ⟨hends, hstatus⟩ := ended_once code message hbefore hmiddle hafter
  rw [Instrumented.EndedOnce, hcalls, hends, hstatus]
  exact and_iff_right rfl

theorem not_endedOnce_of_quiet {run : Instrumented} (h : Quiet run.calls) : ¬ run.EndedOnce := by
  rintro ⟨hends, -⟩
  rw [h.ends] at hends
  exact absurd hends (by decide)

/-- Of an iteration, the span is ended once with the right status if and only if the iteration
comes to an end whose error can be described. -/
theorem Wrapped.Spans.endedOnce_iff {o : Option (Option Thrown)} {failed : Bool}
    {before : List SpanCall} (h : w.Spans calls failed o) (hw : w.endSpanOnComplete = true)
    (hbefore : Quiet before) :
    (⟨before ++ calls, .ok (), failed⟩ : Instrumented).EndedOnce ↔
      ∃ streamError, o = some streamError ∧
        ∀ error, streamError = some error → error.Described := by
  cases o with
  | none =>
    refine iff_of_false (not_endedOnce_of_quiet (hbefore.append h)) ?_
    rintro ⟨_, heq, -⟩
    cases heq
  | some streamError =>
    obtain ⟨first, last, rfl, hfirst, hlast, rfl⟩ := h
    simp only [Option.some.injEq, exists_eq_left']
    unfold Wrapped.finish
    rw [if_pos hw]
    cases streamError with
    | none =>
      rw [endedOnce_iff_of_calls .ok none (by simp) (hbefore.append hfirst) quiet_nil hlast]
      simp
    | some error =>
      dsimp only
      simp only [Option.some.injEq, forall_eq', Thrown.Described]
      cases htruthy : error.truthy with
      | false =>
        rw [if_neg Bool.false_ne_true,
          endedOnce_iff_of_calls .ok none (by simp) (hbefore.append hfirst) quiet_nil hlast]
        simp
      | true =>
        rw [if_pos rfl]
        cases hdescribe : error.describe with
        | error thrown =>
          refine iff_of_false (not_endedOnce_of_quiet ?_) (by simp)
          exact hbefore.append (hfirst.append ((quiet_exception error).append hlast))
        | ok message =>
          rw [endedOnce_iff_of_calls .error message (by simp)
            (hbefore.append (hfirst.append (quiet_exception error))) quiet_nil hlast]
          simp

/-- After the `catch` the span has been ended once if and only if the error could be read, and it
has not been ended before. -/
theorem endedOnce_failCall {options : InterceptorOptions} {call : Call}
    (hrequest : ∀ w, request = some w → w.endSpanOnComplete = false) (hcalls : Quiet calls) :
    (failCall options call request g calls error).EndedOnce ↔ error.Caught := by
  have hmore : Quiet (consume request none g {} call.consuming).2.2 :=
    quiet_consume_none hrequest
  unfold failCall catchError Thrown.Caught
  cases hattributes : buildErrorAttributes error with
  | error thrown =>
    refine iff_of_false (not_endedOnce_of_quiet (hcalls.append hmore)) (by simp)
  | ok attributes =>
    cases hmessage : error.message with
    | error thrown =>
      refine iff_of_false (not_endedOnce_of_quiet ?_) (by simp)
      exact hcalls.append ((quiet_exception error).append hmore)
    | ok message =>
      rw [endedOnce_iff_of_calls .error message (by simp) (hcalls.append (quiet_exception error))
        (quiet_attributes attributes) hmore]
      simp

theorem not_endedOnce_of_twice {run : Instrumented} {first second : List SpanCall}
    (hcalls : run.calls = first ++ second) (hfirst : ends first = 1) (hsecond : ends second = 1) :
    ¬ run.EndedOnce := by
  rintro ⟨hends, -⟩
  rw [hcalls, ends_append, hfirst, hsecond] at hends
  exact absurd hends (by decide)

/-- A success whose metrics fail has ended the span before the `catch` does. -/
theorem not_endedOnce_failCall_ended {options : InterceptorOptions} {call : Call}
    (hrequest : ∀ w, request = some w → w.endSpanOnComplete = false) (hcalls : Quiet calls) :
    ¬ (failCall options call request g (calls ++ [.setStatus .ok none, .ended])
      error).EndedOnce := by
  have hmore : Quiet (consume request none g {} call.consuming).2.2 :=
    quiet_consume_none hrequest
  have hquiet {caught : List SpanCall} (hcaught : Quiet caught) {outcome : Thrown} :
      ¬ (⟨calls ++ [.setStatus .ok none, .ended] ++
        (caught ++ (consume request none g {} call.consuming).2.2), .error outcome, false⟩ :
          Instrumented).EndedOnce := by
    rw [endedOnce_iff_of_calls .ok none (by simp) hcalls quiet_nil (hcaught.append hmore)]
    simp
  unfold failCall catchError
  cases buildErrorAttributes error with
  | error thrown => exact hquiet quiet_nil
  | ok attributes =>
    cases error.message with
    | error thrown => exact hquiet (quiet_exception error)
    | ok message =>
      exact not_endedOnce_of_twice (by simp) (ended_once .ok none hcalls quiet_nil quiet_nil).1
        (ended_once .error message (quiet_exception error) (quiet_attributes attributes) hmore).1

/-- The span of a call is ended once, with status `ERROR` exactly if the call or its stream
failed, if and only if the call concludes. -/
theorem instrument_endedOnce_iff (requestDirection responseDirection : String)
    (inject : Except Thrown Unit) (options : InterceptorOptions) (call : Call) :
    (instrument requestDirection responseDirection inject options call).EndedOnce ↔
      call.Concludes inject options := by
  have hrequest : ∀ w, requestStream options requestDirection call.request = some w →
      w.endSpanOnComplete = false := by
    intro w hw
    cases hmessage : call.request with
    | unary size => simp [requestStream, hmessage] at hw
    | stream iterable =>
      rw [hmessage] at hw
      exact Option.some.inj hw ▸ rfl
  have hevents : Quiet (requestEvents options requestDirection call.request) := by
    unfold requestEvents
    split
    · split
      · exact quiet_event _ _
      · exact quiet_nil
    · exact quiet_nil
  unfold instrument Call.Concludes
  cases inject with
  | error error => exact endedOnce_failCall hrequest quiet_nil
  | ok _ =>
    have hread : Quiet (requestEvents options requestDirection call.request ++
        (consume (requestStream options requestDirection call.request) none {} {}
          (call.reading.map fun r => (.request, r))).2.2) :=
      hevents.append (quiet_consume_none hrequest)
    cases hresponse : call.response with
    | error error => exact endedOnce_failCall hrequest hread
    | ok response =>
      cases response with
      | stream iterable =>
        cases hmetrics : options.recordMetrics call.metrics with
        | error error => exact endedOnce_failCall hrequest hread
        | ok _ => exact (spans_start hrequest).endedOnce_iff rfl hread
      | unary size =>
        cases size with
        | error error => exact endedOnce_failCall hrequest hread
        | ok size =>
          have hsent : Quiet (requestEvents options requestDirection call.request ++
              (consume (requestStream options requestDirection call.request) none {} {}
                (call.reading.map fun r => (.request, r))).2.2 ++
              (if options.recordMessages then [messageEvent responseDirection 1 size]
                else [])) := by
            refine hread.append ?_
            split
            · exact quiet_event _ _
            · exact quiet_nil
          dsimp only
          cases hmetrics : options.recordMetrics call.metrics with
          | error error =>
            exact iff_of_false (not_endedOnce_failCall_ended hrequest hsent) (by simp)
          | ok _ =>
            rw [endedOnce_iff_of_calls .ok none (by simp; rfl)
              hsent quiet_nil (quiet_consume_none hrequest)]
            simp

theorem endedOnce_iff_concludes (options : InterceptorOptions) (call : Call) :
    ((createOtelInterceptor options call).EndedOnce ↔ call.Concludes (.ok ()) options) ∧
      ((createOtelClientInterceptor options call).EndedOnce ↔
        call.Concludes call.inject options) :=
  ⟨instrument_endedOnce_iff _ _ _ options call, instrument_endedOnce_iff _ _ _ options call⟩

/-- A streamed response whose consumer leaves before the first message. -/
def abandoned : Call where
  request := .unary 0
  response := .ok (.stream { pull := fun _ => .done })
  consuming := [(.response, .return)]

theorem abandoned_stream_not_ended :
    ¬ ∀ options call, (createOtelInterceptor options call).EndedOnce ∧
      (createOtelClientInterceptor options call).EndedOnce := by
  intro hended
  have hends : SpanCall.ends [] = 1 := (hended {} abandoned).1.1
  exact absurd hends (by decide)

end Connectum.Otel
