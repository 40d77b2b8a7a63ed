import Connectum.Events.NextGuard

/-! Composed middleware against the nested composition, where the events passed to `next()` are
those of the calls and not of the delivery. -/
namespace Connectum.Events.Middleware
open Async

variable {Message R : Type}

/-- A `next(updated)` of the nested composition: without an event it passes on the one that the
layer received itself. -/
def invokeOwn (i : ℕ) (received : RawEvent) (inner : RawEvent → Shown Message Unit Outcome)
    (updated : Option RawEvent) : Shown Message Unit Outcome :=
  mark (.invokes i received updated (updated.getD received)) (inner (updated.getD received))

def refuse (i : ℕ) (updated : Option RawEvent) : Shown Message Unit Outcome :=
  mark (.refuses i updated) (.done (.error calledMultipleTimes))

/-- The nested composition of the layers from `i` on, invoked with an event. -/
def onion (handler : Handler Message) (ctx : EventContext) :
    List EventMiddleware → ℕ → RawEvent → Shown Message Unit Outcome
  | [], _, event => unmarked (lift (handler event ctx))
  | middleware :: rest, i, event =>
    activation (invokeOwn i event (onion handler ctx rest (i + 1))) (refuse i) false
      (middleware event ctx)

def Mark.updated : Mark → Option RawEvent
  | .invokes _ _ updated _ => updated
  | .refuses _ updated => updated

/-- The replacement that was passed last in a delivery of an event, or the event itself. -/
def latest (event : RawEvent) (log : List Mark) : RawEvent :=
  log.foldl (fun current m => m.updated.getD current) event

/-- A `next()` without an event that invokes a layer is made while the event that its caller
received is the latest one. -/
def Fresh (event : RawEvent) (log : List Mark) : Prop :=
  ∀ before i received invoked after,
    log = before ++ .invokes i received none invoked :: after → latest event before = received

theorem fresh_nil (event : RawEvent) : Fresh event [] := by
  intro before i received invoked after heq
  exact absurd heq (by simp)

theorem fresh_cons {event : RawEvent} {m : Mark} {log : List Mark} :
    Fresh event (m :: log) ↔
      (∀ i received invoked, m = .invokes i received none invoked → event = received) ∧
        Fresh (m.updated.getD event) log := by
  constructor
  · intro h
    constructor
    · rintro i received invoked rfl
      exact h [] i received invoked log rfl
    · rintro before i received invoked after rfl
      exact h (m :: before) i received invoked after rfl
  · intro ⟨hhead, htail⟩ before i received invoked after heq
    cases before with
    | nil =>
      obtain ⟨rfl, rfl⟩ := List.cons.inj heq
      exact hhead i received invoked rfl
    | cons m' before =>
      obtain ⟨rfl, rfl⟩ := List.cons.inj heq
      exact htail before i received invoked after rfl

/-- A run of the first is a run of the second if and only if it is fresh from an event on. -/
def Agrees {M : Type} (event : RawEvent) (p q : Shown M Unit R) : Prop :=
  ∀ trace o, Runs p trace o → (Runs q trace o ↔ Fresh event (marks trace))

theorem agrees_done {event : RawEvent} (r : R) :
    Agrees (M := Message) event (.done r) (.done r) := by
  intro trace o h
  refine iff_of_true h ?_
  cases h with
  | begins => exact fresh_nil event
  | done => exact fresh_nil event

theorem agrees_query {event : RawEvent} {q : Query Message} {f g : q.Answer → Shown Message Unit R}
    (h : ∀ a, Agrees event (f a) (g a)) :
    Agrees event (.await (.query q) f) (.await (.query q) g) := by
  intro trace o hp
  cases trace with
  | nil =>
    obtain rfl := runs_await_nil.mp hp
    exact iff_of_true .begins (fresh_nil event)
  | cons x trace =>
    obtain ⟨a, rfl, hrest⟩ := runs_await_cons.mp hp
    refine Iff.trans ?_ (h a trace o hrest)
    refine runs_await_cons.trans ?_
    constructor
    · rintro ⟨a', heq, hq⟩
      cases heq
      exact hq
    · exact fun hq => ⟨a, rfl, hq⟩

theorem agrees_mark {event : RawEvent} {m m' : Mark} {p q : Shown Message Unit R}
    (hm : m = m' ↔ ∀ i received invoked, m = .invokes i received none invoked → event = received)
    (h : m = m' → Agrees (m.updated.getD event) p q) : Agrees event (mark m p) (mark m' q) := by
  intro trace o hp
  cases trace with
  | nil =>
    obtain rfl := runs_await_nil.mp hp
    exact iff_of_true .begins (fresh_nil event)
  | cons x trace =>
    obtain ⟨a, rfl, hrest⟩ := runs_await_cons.mp hp
    show _ ↔ Fresh event (m :: marks trace)
    rw [fresh_cons, ← hm, mark, runs_await_cons]
    constructor
    · rintro ⟨a', heq, hq⟩
      obtain rfl := Marked.mark.inj (congrArg Answered.query heq)
      exact ⟨rfl, (h rfl trace o hrest).mp hq⟩
    · intro ⟨hmark, hfresh⟩
      subst hmark
      exact ⟨a, rfl, (h rfl trace o hrest).mpr hfresh⟩

/-- Two invocations differ if and only if the event is left out and stale. -/
theorem agrees_invokes {event received : RawEvent} {i : ℕ} {updated : Option RawEvent}
    {p q : RawEvent → Shown Message Unit R}
    (h : Agrees (updated.getD event) (p (updated.getD event)) (q (updated.getD event))) :
    Agrees event (mark (.invokes i received updated (updated.getD event)) (p (updated.getD event)))
      (mark (.invokes i received updated (updated.getD received))
        (q (updated.getD received))) := by
  cases updated with
  | none =>
    apply agrees_mark
    · constructor
      · intro heq _ _ _ hm
        cases hm
        exact (Mark.invokes.inj heq).2.2.2
      · intro hfresh
        obtain rfl : event = received := hfresh i received _ rfl
        rfl
    · intro heq
      obtain rfl : event = received := (Mark.invokes.inj heq).2.2.2
      exact h
  | some updated =>
    apply agrees_mark
    · exact iff_of_true rfl fun _ _ _ hm => by cases hm
    · exact fun _ => h

theorem agrees_lift {p : Async (Query Message) Query.Answer Unit Outcome} {event : RawEvent}
    {K : Outcome → Shown Message RawEvent R} {K' : Outcome → Shown Message Unit R}
    (hK : ∀ outcome, Agrees event ((K outcome).run event) ((K' outcome).run ())) :
    Agrees event ((unmarked (lift p) >>= K).run event) ((unmarked (lift p) >>= K').run ()) := by
  induction p with
  | done outcome => exact hK outcome
  | await q resume ih => exact agrees_query ih
  | sync update resume ih => exact ih (update ())

/-- An activation keeps the event that it received, while the layers inside it pass on others. -/
theorem agrees_activation {handler : Handler Message} {ctx : EventContext}
    {rest : List EventMiddleware} {i : ℕ} {received event : RawEvent}
    {K : Outcome → Shown Message RawEvent R} {K' : Outcome → Shown Message Unit R}
    (hrest : ∀ {event K K'},
      (∀ outcome current, Agrees current ((K outcome).run current) ((K' outcome).run ())) →
        Agrees (R := R) event ((layers handler ctx rest (i + 1) event >>= K).run event)
          ((onion handler ctx rest (i + 1) event >>= K').run ()))
    (hK : ∀ outcome current, Agrees current ((K outcome).run current) ((K' outcome).run ()))
    {p : Invocation} {completed : Bool} :
    Agrees event
      ((activation (invokeLatest i received (layers handler ctx rest (i + 1))) (refuseLatest i)
        completed p >>= K).run event)
      ((activation (invokeOwn i received (onion handler ctx rest (i + 1))) (refuse i)
        completed p >>= K').run ()) := by
  induction p generalizing event completed with
  | done outcome => exact hK outcome event
  | await q resume ih =>
    cases q with
    | effect e => exact agrees_query fun a => ih a
    | next updated =>
      unfold activation
      rw [Async.bind_assoc, Async.bind_assoc]
      cases completed with
      | true =>
        exact agrees_mark (iff_of_true rfl fun _ _ _ hm => by cases hm) fun _ => ih _
      | false =>
        -- only here can the two pass on different events
        exact agrees_invokes
          (p := fun event => (layers handler ctx rest (i + 1) event >>= _).run event)
          (q := fun event => (onion handler ctx rest (i + 1) event >>= _).run ())
          (hrest fun outcome current => ih outcome)
  | sync update resume ih => exact ih (update ())

theorem agrees_layers (handler : Handler Message) (ctx : EventContext) (l : List EventMiddleware)
    (i : ℕ) (event : RawEvent) {K : Outcome → Shown Message RawEvent R}
    {K' : Outcome → Shown Message Unit R}
    (hK : ∀ outcome current, Agrees current ((K outcome).run current) ((K' outcome).run ())) :
    Agrees event ((layers handler ctx l i event >>= K).run event)
      ((onion handler ctx l i event >>= K').run ()) := by
  induction l generalizing i event K K' with
  | nil => exact agrees_lift fun outcome => hK outcome event
  | cons middleware rest ih => exact agrees_activation (ih _ _) hK

/-- A run of composed middleware, shown with its `next()` calls, is a run of the nested composition
if and only if it is fresh. -/
theorem runs_onion_iff_fresh (handler : Handler Message) (ctx : EventContext)
    (middlewares : List EventMiddleware) (event : RawEvent) (s : Dispatch) :
    (composeMiddleware middlewares (fun event ctx => lift (handler event ctx)) event ctx).run s =
        ((layers handler ctx middlewares 0 event).run event).erase ∧
      ∀ trace o, Runs ((layers handler ctx middlewares 0 event).run event) trace o →
        (Runs ((onion handler ctx middlewares 0 event).run ()) trace o ↔
          Fresh event (marks trace)) := by
  constructor
  · rw [erase_run]
    exact run_composeMiddleware handler ctx middlewares event s
  · have hdone (outcome : Outcome) (current : RawEvent) :
        Agrees current ((Async.done outcome : Shown Message RawEvent Outcome).run current)
          ((Async.done outcome : Shown Message Unit Outcome).run ()) := agrees_done outcome
    have h := agrees_layers handler ctx middlewares 0 event hdone
    rw [Async.bind_done, Async.bind_done] at h
    exact h

/-- The events of the handler's invocations, all of which have one outcome. -/
def handled (outcome : Outcome) : Async (Query RawEvent) Query.Answer Unit Outcome → List RawEvent
  | .done _ | .await (.effect _) _ => []
  | .await (.handler event _) resume => event :: handled outcome (resume outcome)
  | .sync update resume => handled outcome (resume (update ()))

/-- A middleware that tries once more after a failure. -/
def again : EventMiddleware := fun _ _ =>
  .await (.next none) fun
    | .ok () => .done (.ok ())
    | .error _ => .await (.next none) .done

/-- A middleware that passes on a replacement. -/
def counting : EventMiddleware := fun event _ =>
  .await (.next (some { event with attempt := event.attempt + 1 })) .done

/-- The second `next()` of the outer middleware passes on what the inner one has passed. -/
theorem onion_stale :
    ¬ ∀ (handler : Handler RawEvent) (ctx : EventContext) (middlewares : List EventMiddleware)
      (event : RawEvent) (s : Dispatch), middlewares ≠ [] →
      (composeMiddleware middlewares (fun event ctx => lift (handler event ctx)) event ctx).run s =
        ((onion handler ctx middlewares 0 event).run ()).erase := by
  intro h
  have hrun := h (fun event ctx => .await (.handler event ctx) .done)
    (createEventContext ⟨"1", "order.created", [], 0, 1, []⟩ []) [again, counting]
    ⟨"1", "order.created", [], 0, 1, []⟩ ⟨-1, ⟨"1", "order.created", [], 0, 1, []⟩⟩ (by simp)
  have hattempts :=
    congrArg (fun p => (handled (.error undefinedError) p).map RawEvent.attempt) hrun
  exact absurd hattempts (by decide)

end Connectum.Events.Middleware
