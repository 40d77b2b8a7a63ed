import Connectum.Marks
import Connectum.Events.Middleware

/-! The one `index` of a composed handler against a flag in every activation of a layer. -/
namespace Connectum.Events.Middleware
open Async

variable {Message S R : Type}

/-- A handler does not see the variables of the composed handler. -/
abbrev Handler (Message : Type) :=
  RawEvent → EventContext → Async (Query Message) Query.Answer Unit Outcome

/-- What becomes of a `next(updated)` of layer `i`, which received an event itself: it invokes the
layer inside it, or the handler, with an event, or it is rejected. Layer 0 is the outermost. -/
inductive Mark where
  | invokes (i : ℕ) (received : RawEvent) (updated : Option RawEvent) (event : RawEvent)
  | refuses (i : ℕ) (updated : Option RawEvent)
  deriving DecidableEq, Repr

abbrev Shown (Message S R : Type) :=
  Async (Marked (Query Message) Mark) (Marked.Answer Query.Answer) S R

/-- An activation of a layer. Its flag says that one of its `next()` calls completed normally. -/
def activation (next refuse : Option RawEvent → Shown Message S Outcome) :
    Bool → Invocation → Shown Message S Outcome
  | _, .done outcome => .done outcome
  | completed, .await (.next updated) resume =>
    (if completed then refuse updated else next updated) >>= fun outcome =>
      activation next refuse (completed || outcome.isOk) (resume outcome)
  | completed, .await (.effect e) resume =>
    .await (.query (.effect e)) fun a => activation next refuse completed (resume a)
  | completed, .sync update resume => activation next refuse completed (resume (update ()))

/-- A `next(updated)` that invokes what is inside layer `i`. The variable is the event passed last. -/
def invokeLatest (i : ℕ) (received : RawEvent) (inner : RawEvent → Shown Message RawEvent Outcome)
    (updated : Option RawEvent) : Shown Message RawEvent Outcome :=
  .sync updated.getD fun current =>
    mark (.invokes i received updated (updated.getD current)) (inner (updated.getD current))

def refuseLatest (i : ℕ) (updated : Option RawEvent) : Shown Message RawEvent Outcome :=
  .sync updated.getD fun _ => mark (.refuses i updated) (.done (.error calledMultipleTimes))

/-- The layers from `i` on, invoked with an event. -/
def layers (handler : Handler Message) (ctx : EventContext) :
    List EventMiddleware → ℕ → RawEvent → Shown Message RawEvent Outcome
  | [], _, event => unmarked (lift (handler event ctx))
  | middleware :: rest, i, event =>
    activation (invokeLatest i event (layers handler ctx rest (i + 1))) (refuseLatest i) false
      (middleware event ctx)

/-- The variables after `dispatch(i)`. -/
def Left (i : ℕ) : Outcome → Dispatch → Prop
  | .ok _, t => (i : ℤ) ≤ t.index
  | .error _, t => t.index = (i : ℤ) - 1

/-- What goes on after the two alike, from the states that they leave. -/
def Continues {M : Type} (i : ℕ) (K : Outcome → Async (Query M) Query.Answer Dispatch R)
    (K' : Outcome → Async (Query M) Query.Answer RawEvent R) : Prop :=
  ∀ outcome t, Left i outcome t → (K outcome).run t = (K' outcome).run t.currentEvent

variable {handler : Handler Message} {ctx : EventContext} {i : ℕ} {s : Dispatch}
  {K : Outcome → Async (Query Message) Query.Answer Dispatch R}
  {K' : Outcome → Async (Query Message) Query.Answer RawEvent R}

/-- `dispatch(i)` from the position of its caller enters its body. -/
theorem run_guardDispatch {body : RawEvent → Program Message Outcome} (hs : s.index = (i : ℤ) - 1) :
    (guardDispatch i body >>= K).run s =
      (body s.currentEvent >>= fun outcome => settleDispatch i outcome >>= K).run
        { s with index := i } := by
  have hguard : ¬ (i : ℤ) ≤ s.index := by omega
  rw [← Async.bind_assoc]
  show (Async.bind (guardDispatch i body) K).run s = _
  simp only [guardDispatch, Async.bind, Async.run, if_neg hguard]
  rfl

theorem run_guardDispatch_refused {body : RawEvent → Program Message Outcome}
    (hs : (i : ℤ) ≤ s.index) :
    (guardDispatch i body >>= K).run s = (K (.error calledMultipleTimes)).run s := by
  show (Async.bind (guardDispatch i body) K).run s = _
  simp only [guardDispatch, Async.bind, Async.run, if_pos hs]

/-- The `catch` leaves the position of the caller. -/
theorem Continues.settle (hK : Continues i K K') {outcome : Outcome} {t : Dispatch}
    (ht : (i : ℤ) ≤ t.index) :
    (settleDispatch i outcome >>= K).run t = (K' outcome).run t.currentEvent := by
  cases outcome with
  | ok u => exact hK (.ok u) t ht
  | error error => exact hK (.error error) { t with index := (i : ℤ) - 1 } rfl

theorem run_dispatch_refused {middlewares : List EventMiddleware}
    {h : RawEvent → EventContext → Program Message Outcome} (hs : (i : ℤ) ≤ s.index) :
    (dispatch h ctx middlewares i >>= K).run s = (K (.error calledMultipleTimes)).run s := by
  cases middlewares with
  | nil => exact run_guardDispatch_refused hs
  | cons middleware rest => exact run_guardDispatch_refused hs

/-- The index is the layer's own position until a `next()` of it completes normally, and deeper
from then on; that is what the flag of the activation says. -/
def Positioned (i : ℕ) (completed : Bool) (s : Dispatch) : Prop :=
  if completed then (i : ℤ) + 1 ≤ s.index else s.index = i

theorem Positioned.le {completed : Bool} (h : Positioned i completed s) : (i : ℤ) ≤ s.index := by
  unfold Positioned at h
  split at h
  · omega
  · omega

theorem positioned_of_left {outcome : Outcome} (h : Left (i + 1) outcome s) :
    Positioned i outcome.isOk s := by
  cases outcome with
  | ok u =>
    have h : ((i + 1 : ℕ) : ℤ) ≤ s.index := h
    show (i : ℤ) + 1 ≤ s.index
    omega
  | error error =>
    have h : s.index = ((i + 1 : ℕ) : ℤ) - 1 := h
    show s.index = i
    omega

theorem run_activation {rest : List EventMiddleware} {event : RawEvent}
    (hrest : ∀ {K K'} {s : Dispatch}, s.index = i → Continues (R := R) (i + 1) K K' →
      (dispatch (fun event ctx => lift (handler event ctx)) ctx rest (i + 1) >>= K).run s =
        ((layers handler ctx rest (i + 1) s.currentEvent).erase >>= K').run s.currentEvent)
    (hK : ∀ outcome t, (i : ℤ) ≤ t.index → (K outcome).run t = (K' outcome).run t.currentEvent)
    {p : Invocation} {completed : Bool} (hs : Positioned i completed s) :
    (runWith (fun updated =>
        .sync (fun s => { s with currentEvent := updated.getD s.currentEvent }) fun _ =>
          dispatch (fun event ctx => lift (handler event ctx)) ctx rest (i + 1)) p >>= K).run s =
      ((activation (invokeLatest i event (layers handler ctx rest (i + 1))) (refuseLatest i)
        completed p).erase >>= K').run s.currentEvent := by
  induction p generalizing s completed with
  | done outcome => exact hK outcome s hs.le
  | await q resume ih =>
    cases q with
    | effect e => exact congrArg (Async.await (Query.effect e)) (funext fun a => ih a hs)
    | next updated =>
      unfold runWith activation
      rw [Async.bind_assoc, erase_bind, Async.bind_assoc]
      cases completed with
      | true =>
        have hindex : ((i + 1 : ℕ) : ℤ) ≤ s.index := by
          have hs : (i : ℤ) + 1 ≤ s.index := hs
          omega
        exact (run_dispatch_refused (s := { s with currentEvent := updated.getD s.currentEvent })
          hindex).trans (ih _ hs)
      | false =>
        refine hrest (s := { s with currentEvent := updated.getD s.currentEvent }) hs ?_
        exact fun outcome t ht => ih outcome (positioned_of_left ht)
  | sync update resume ih => exact ih _ hs

/-- From the position of its caller, `dispatch(i)` does what the layers with their flags do. -/
theorem run_dispatch (handler : Handler Message) (ctx : EventContext) {l : List EventMiddleware}
    (hs : s.index = (i : ℤ) - 1) (hK : Continues i K K') :
    (dispatch (fun event ctx => lift (handler event ctx)) ctx l i >>= K).run s =
      ((layers handler ctx l i s.currentEvent).erase >>= K').run s.currentEvent := by
  induction l generalizing i s K K' with
  | nil =>
    refine (run_guardDispatch hs).trans ?_
    unfold layers
    rw [erase_unmarked]
    exact run_lift_bind fun outcome => hK.settle (Int.le_refl i)
  | cons middleware rest ih =>
    refine (run_guardDispatch hs).trans ?_
    have hposition : Positioned i false { s with index := i } := rfl
    exact run_activation (fun hs hK => ih (by omega) hK) (fun _ _ ht => hK.settle ht) hposition

theorem run_composeMiddleware (handler : Handler Message) (ctx : EventContext)
    (middlewares : List EventMiddleware) (event : RawEvent) (s : Dispatch) :
    (composeMiddleware middlewares (fun event ctx => lift (handler event ctx)) event ctx).run s =
      ((layers handler ctx middlewares 0 event).erase).run event := by
  cases middlewares with
  | nil =>
    unfold layers
    rw [erase_unmarked]
    have h : (lift (handler event ctx) >>= Async.done).run s =
        (lift (handler event ctx) >>= Async.done).run event := run_lift_bind fun _ => rfl
    rw [Async.bind_done, Async.bind_done] at h
    exact h
  | cons middleware rest =>
    have hindex : ({ currentEvent := event } : Dispatch).index = ((0 : ℕ) : ℤ) - 1 := rfl
    have hdone : Continues (M := Message) 0 Async.done Async.done := fun _ _ _ => rfl
    have h := run_dispatch handler ctx (l := middleware :: rest) hindex hdone
    rw [Async.bind_done, Async.bind_done] at h
    exact h

/-- An activation with a completed `next()` invokes no layer any more. -/
theorem activation_completed (next next' refuse : Option RawEvent → Shown Message S Outcome)
    (p : Invocation) : activation next refuse true p = activation next' refuse true p := by
  induction p with
  | done outcome => rfl
  | await q resume ih =>
    cases q with
    | next updated => exact congrArg (refuse updated >>= ·) (funext ih)
    | effect e => exact congrArg (Async.await (Marked.query (Query.effect e))) (funext ih)
  | sync update resume ih => exact ih (update ())

/-- The variables of a composed handler come to one flag in each activation of a layer: a `next()`
after one that completed normally is rejected at once, and one after a failure invokes the layers
inside it again. -/
theorem next_guard (handler : Handler Message) (ctx : EventContext)
    (middlewares : List EventMiddleware) (event : RawEvent) (s : Dispatch) :
    (composeMiddleware middlewares (fun event ctx => lift (handler event ctx)) event ctx).run s =
        ((layers handler ctx middlewares 0 event).erase).run event ∧
      ∀ (next next' refuse : Option RawEvent → Shown Message RawEvent Outcome) (p : Invocation),
        activation next refuse true p = activation next' refuse true p :=
  ⟨run_composeMiddleware handler ctx middlewares event s, activation_completed⟩

end Connectum.Events.Middleware
