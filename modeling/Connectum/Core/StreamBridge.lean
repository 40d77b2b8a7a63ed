import Connectum.Machine
import Mathlib.Data.List.TakeWhile

/-! The queue between `push` calls and the consumer of a stream's inputs. -/
namespace Connectum.Core

/-- The generator of the iterable: suspended before its first value or at a `yield`, at the
`await` of a promise, or finished. Promises are numbered. -/
inductive Consumer where
  | suspended
  | waiting (promise : ℕ)
  | finished
  deriving DecidableEq, Repr

/-- The variables of `createInputQueue`; `notify` is the promise that it resolves. -/
structure InputQueue (T E : Type*) where
  buffer : List T := []
  closed : Bool := false
  failure : Option E := none
  notify : Option ℕ := none
  consumer : Consumer := .suspended
  promises : ℕ := 0
  resolved : List ℕ := []
  deriving DecidableEq, Repr

namespace InputQueue
variable {T E : Type*}

/-- `next` is the consumer asking for a value, and `resume` its turn after a resolved promise. -/
inductive Action (T E : Type*) where
  | push (value : T)
  | close
  | fail (error : E)
  | next
  | resume
  deriving DecidableEq, Repr

/-- The calls, and what the consumer sees. -/
inductive Event (T E : Type*) where
  | pushed (value : T)
  | closed
  | failed (error : E)
  | received (value : T)
  | ended
  | threw (error : E)
  deriving DecidableEq, Repr

def wake (s : InputQueue T E) : InputQueue T E :=
  match s.notify with
  | none => s
  | some promise => { s with notify := none, resolved := s.resolved ++ [promise] }

/-- The loop of the generator, to its next `yield` or `await` or to its end. -/
def advance (s : InputQueue T E) : InputQueue T E × List (Event T E) :=
  match s.buffer with
  | value :: buffer => ({ s with buffer, consumer := .suspended }, [.received value])
  | [] =>
    match s.failure with
    | some error => ({ s with consumer := .finished }, [.threw error])
    | none =>
      if s.closed then ({ s with consumer := .finished }, [.ended])
      else ({ s with
        notify := some s.promises
        consumer := .waiting s.promises
        promises := s.promises + 1 }, [])

def step : Machine.Step (InputQueue T E) (Action T E) (Event T E)
  | s, .push value =>
    if s.closed || s.failure.isSome then some (s, [.pushed value])
    else some ({ s with buffer := s.buffer ++ [value] }.wake, [.pushed value])
  | s, .close => some ({ s with closed := true }.wake, [.closed])
  | s, .fail error =>
    some ({ s with failure := s.failure.or (some error), closed := true }.wake, [.failed error])
  | s, .next => if s.consumer = .suspended then some s.advance else none
  | s, .resume =>
    match s.consumer with
    | .waiting promise => if promise ∈ s.resolved then some s.advance else none
    | .suspended | .finished => none

/-- The consumer waits for a promise that has not been resolved. -/
def Parked (s : InputQueue T E) : Prop :=
  ∃ promise, s.consumer = .waiting promise ∧ promise ∉ s.resolved

namespace Event

def pushed? : Event T E → Option T
  | .pushed value => some value
  | _ => none

def received? : Event T E → Option T
  | .received value => some value
  | _ => none

def failed? : Event T E → Option E
  | .failed error => some error
  | _ => none

/-- A call after which pushed values are ignored. -/
def terminates : Event T E → Bool
  | .closed | .failed _ => true
  | _ => false

end Event

variable {log more : List (Event T E)} {e : Event T E}

/-- A `close` or `fail` has been called. -/
def Terminated (log : List (Event T E)) : Prop := ∃ e ∈ log, e.terminates = true

/-- The values pushed before the first `close` or `fail`. -/
def accepted (log : List (Event T E)) : List T :=
  (log.takeWhile fun e => !e.terminates).filterMap Event.pushed?

def received (log : List (Event T E)) : List T := log.filterMap Event.received?

def firstFailure (log : List (Event T E)) : Option E := log.findSome? Event.failed?

/-- What the consumer may see next: the accepted values in order, and after all of them the
error of the first `fail`, or the end if there was only a `close`. -/
def Expected (log : List (Event T E)) : Event T E → Prop
  | .received value => received log ++ [value] <+: accepted log
  | .ended => received log = accepted log ∧ Terminated log ∧ firstFailure log = none
  | .threw error => received log = accepted log ∧ firstFailure log = some error
  | .pushed _ | .closed | .failed _ => True

theorem not_terminated_nil : ¬ Terminated ([] : List (Event T E)) := by
  rintro ⟨e, he, -⟩
  cases he

theorem terminated_append : Terminated (log ++ more) ↔ Terminated log ∨ Terminated more := by
  simp only [Terminated, List.mem_append, or_and_right, exists_or]

theorem terminated_singleton : Terminated [e] ↔ e.terminates = true := by
  simp [Terminated]

theorem accepted_of_terminated (h : Terminated log) : accepted (log ++ more) = accepted log := by
  obtain ⟨e, he, hterminates⟩ := h
  unfold accepted
  induction log with
  | nil => cases he
  | cons first log ih =>
    rw [List.cons_append, List.takeWhile_cons, List.takeWhile_cons]
    by_cases hfirst : first.terminates = true
    · simp [hfirst]
    · have hmem : e ∈ log := by
        refine (List.mem_cons.mp he).resolve_left ?_
        rintro rfl
        exact hfirst hterminates
      simp only [hfirst, Bool.not_false, if_true, List.filterMap_cons, ih hmem]

theorem accepted_concat (h : ¬ Terminated log) :
    accepted (log ++ [e]) = accepted log ++ e.pushed?.toList := by
  have hall : ∀ e ∈ log, (!e.terminates) = true := by
    intro e he
    rw [Bool.not_eq_true']
    exact eq_false_of_ne_true fun hterminates => h ⟨e, he, hterminates⟩
  unfold accepted
  rw [List.takeWhile_append_of_pos hall, List.takeWhile_eq_self_iff.mpr hall,
    List.filterMap_append]
  cases e <;> rfl

/-- What the consumer sees is no call. -/
theorem accepted_of_seen (hpushed : e.pushed? = none) : accepted (log ++ [e]) = accepted log := by
  by_cases h : Terminated log
  · exact accepted_of_terminated h
  · rw [accepted_concat h, hpushed]
    exact List.append_nil _

theorem received_concat : received (log ++ [e]) = received log ++ e.received?.toList := by
  unfold received
  rw [List.filterMap_append]
  cases e <;> rfl

theorem firstFailure_concat : firstFailure (log ++ [e]) = (firstFailure log).or e.failed? := by
  unfold firstFailure
  rw [List.findSome?_append]
  cases e <;> rfl

theorem terminated_of_firstFailure {error : E} (h : firstFailure log = some error) :
    Terminated log := by
  obtain ⟨e, he, hfailed⟩ := List.exists_of_findSome?_eq_some h
  refine ⟨e, he, ?_⟩
  cases e with
  | failed error => rfl
  | _ => cases hfailed

/-- What holds between two actions. -/
structure Inv (s : InputQueue T E) (log : List (Event T E)) : Prop where
  received : received log ++ s.buffer = accepted log
  closed : s.closed = true ↔ Terminated log
  failure : s.failure = firstFailure log
  notify : ∀ promise, s.notify = some promise → promise < s.promises
  resolved : ∀ promise ∈ s.resolved, promise < s.promises
  waiting : ∀ promise, s.consumer = .waiting promise → promise ∉ s.resolved →
    s.notify = some promise ∧ s.buffer = [] ∧ s.closed = false
  finished : s.consumer = .finished → s.buffer = [] ∧ s.closed = true
  justified : Machine.Justified Expected log

variable {s t : InputQueue T E} {out : List (Event T E)}

theorem inv_initial : Inv ({} : InputQueue T E) [] where
  received := rfl
  closed := ⟨nofun, fun h => absurd h not_terminated_nil⟩
  failure := rfl
  notify := nofun
  resolved := nofun
  waiting := nofun
  finished := nofun
  justified := Machine.justified_nil

@[simp] theorem wake_buffer (s : InputQueue T E) : s.wake.buffer = s.buffer := by
  unfold wake
  split <;> rfl

@[simp] theorem wake_closed (s : InputQueue T E) : s.wake.closed = s.closed := by
  unfold wake
  split <;> rfl

@[simp] theorem wake_failure (s : InputQueue T E) : s.wake.failure = s.failure := by
  unfold wake
  split <;> rfl

@[simp] theorem wake_consumer (s : InputQueue T E) : s.wake.consumer = s.consumer := by
  unfold wake
  split <;> rfl

@[simp] theorem wake_promises (s : InputQueue T E) : s.wake.promises = s.promises := by
  unfold wake
  split <;> rfl

@[simp] theorem wake_notify (s : InputQueue T E) : s.wake.notify = none := by
  unfold wake
  split
  next h => exact h
  next => rfl

theorem mem_wake_resolved {promise : ℕ} :
    promise ∈ s.wake.resolved ↔ promise ∈ s.resolved ∨ s.notify = some promise := by
  unfold wake
  split
  next h => simp [h]
  next other h => simp [h, eq_comm]

/-- A call changes the buffer or the end of the input, and wakes the consumer. -/
theorem Inv.wake (h : Inv s log) (e : Event T E) (buffer : List T) (closed : Bool)
    (failure : Option E)
    (hreceived : InputQueue.received (log ++ [e]) ++ buffer = accepted (log ++ [e]))
    (hclosed : closed = true ↔ Terminated (log ++ [e]))
    (hfailure : failure = firstFailure (log ++ [e]))
    (hfinished : s.consumer = .finished → buffer = [] ∧ closed = true)
    (hexpected : Expected log e) :
    Inv { s with buffer, closed, failure }.wake (log ++ [e]) := by
  constructor
  · rwa [wake_buffer]
  · rwa [wake_closed]
  · rwa [wake_failure]
  · intro promise hpromise
    rw [wake_notify] at hpromise
    cases hpromise
  · intro promise hpromise
    rw [wake_promises]
    rcases mem_wake_resolved.mp hpromise with hold | hnew
    · exact h.resolved promise hold
    · exact h.notify promise hnew
  · intro promise hwaiting hunresolved
    rw [wake_consumer] at hwaiting
    rw [mem_wake_resolved, not_or] at hunresolved
    exact absurd (h.waiting promise hwaiting hunresolved.1).1 hunresolved.2
  · intro hf
    rw [wake_consumer] at hf
    rw [wake_buffer, wake_closed]
    exact hfinished hf
  · exact Machine.justified_concat.mpr ⟨h.justified, hexpected⟩

/-- A value that is pushed too late changes nothing. -/
theorem Inv.ignored (h : Inv s log) (hclosed : s.closed = true) (value : T) :
    Inv s (log ++ [.pushed value]) := by
  have hterminated := h.closed.mp hclosed
  constructor
  · rw [accepted_of_terminated hterminated, received_concat]
    simpa [Event.received?] using h.received
  · rw [terminated_append]
    exact h.closed.trans (or_iff_left_of_imp fun _ => hterminated).symm
  · rw [firstFailure_concat, h.failure]
    exact (Option.or_none).symm
  · exact h.notify
  · exact h.resolved
  · exact h.waiting
  · exact h.finished
  · exact Machine.justified_concat.mpr ⟨h.justified, trivial⟩

theorem Inv.push (h : Inv s log) {value : T} (hs : s.step (.push value) = some (t, out)) :
    Inv t (log ++ out) := by
  unfold step at hs
  dsimp only at hs
  split at hs
  next hended =>
    obtain ⟨rfl, rfl⟩ := Prod.mk.inj (Option.some.inj hs)
    refine h.ignored ?_ value
    rcases Bool.or_eq_true_iff.mp hended with hclosed | hfailure
    · exact hclosed
    · obtain ⟨error, herror⟩ := Option.isSome_iff_exists.mp hfailure
      exact h.closed.mpr (terminated_of_firstFailure (h.failure ▸ herror))
  next hopen =>
    obtain ⟨rfl, rfl⟩ := Prod.mk.inj (Option.some.inj hs)
    have hclosed : s.closed = false := by
      apply eq_false_of_ne_true
      intro hclosed
      exact hopen (Bool.or_eq_true_iff.mpr (.inl hclosed))
    have hterminated : ¬ Terminated log := fun hterminated => by
      rw [h.closed.mpr hterminated] at hclosed
      cases hclosed
    apply h.wake (.pushed value)
    · rw [accepted_concat hterminated, received_concat, ← h.received]
      simp [Event.received?, Event.pushed?]
    · rw [terminated_append, terminated_singleton]
      exact h.closed.trans (or_iff_left nofun).symm
    · rw [firstFailure_concat]
      exact h.failure.trans Option.or_none.symm
    · intro hf
      exact absurd (h.finished hf).2 (by simp [hclosed])
    · trivial

/-- A call that ends the input. -/
theorem Inv.terminate (h : Inv s log) (e : Event T E) (failure : Option E)
    (hpushed : e.pushed? = none) (hreceived : e.received? = none) (hterminates : e.terminates = true)
    (hfailure : failure = s.failure.or e.failed?) (hexpected : Expected log e) :
    Inv { s with closed := true, failure }.wake (log ++ [e]) := by
  apply h.wake e
  · rw [accepted_of_seen hpushed, received_concat, hreceived]
    simpa using h.received
  · rw [terminated_append, terminated_singleton, hterminates]
    simp
  · rw [firstFailure_concat, ← h.failure]
    exact hfailure
  · intro hf
    exact ⟨(h.finished hf).1, rfl⟩
  · exact hexpected

theorem Inv.close (h : Inv s log) (hs : s.step .close = some (t, out)) : Inv t (log ++ out) := by
  obtain ⟨rfl, rfl⟩ := Prod.mk.inj (Option.some.inj hs)
  exact h.terminate .closed s.failure rfl rfl rfl Option.or_none.symm trivial

theorem Inv.fail (h : Inv s log) {error : E} (hs : s.step (.fail error) = some (t, out)) :
    Inv t (log ++ out) := by
  obtain ⟨rfl, rfl⟩ := Prod.mk.inj (Option.some.inj hs)
  exact h.terminate (.failed error) _ rfl rfl rfl rfl trivial

/-- The consumer sees a value or the end. -/
theorem Inv.seen (h : Inv s log) (e : Event T E) (buffer : List T) (consumer : Consumer)
    (hpushed : e.pushed? = none) (hterminates : e.terminates = false)
    (hreceived : InputQueue.received log ++ (e.received?.toList ++ buffer) = accepted log)
    (hwaiting : ∀ promise, consumer ≠ .waiting promise)
    (hfinished : consumer = .finished → buffer = [] ∧ s.closed = true)
    (hexpected : Expected log e) : Inv { s with buffer, consumer } (log ++ [e]) := by
  have hfailed : e.failed? = none := by
    cases e with
    | failed => cases hterminates
    | _ => rfl
  constructor
  · rw [accepted_of_seen hpushed, received_concat, List.append_assoc]
    exact hreceived
  · rw [terminated_append, terminated_singleton, hterminates]
    exact h.closed.trans (or_iff_left nofun).symm
  · rw [firstFailure_concat, hfailed]
    exact h.failure.trans Option.or_none.symm
  · exact h.notify
  · exact h.resolved
  · exact fun promise hpromise => absurd hpromise (hwaiting promise)
  · exact hfinished
  · exact Machine.justified_concat.mpr ⟨h.justified, hexpected⟩

/-- The loop of the generator shows the consumer what it may expect. -/
theorem Inv.advance (h : Inv s log) : Inv s.advance.1 (log ++ s.advance.2) := by
  have hreceived := h.received
  unfold InputQueue.advance
  split
  next value buffer hbuffer =>
    rw [hbuffer] at hreceived
    refine h.seen _ buffer _ rfl rfl hreceived nofun nofun ?_
    show InputQueue.received log ++ [value] <+: accepted log
    rw [← hreceived]
    exact (List.prefix_append_right_inj _).mpr (List.prefix_append [value] buffer)
  next hbuffer =>
    have hall : InputQueue.received log = accepted log := by
      rw [← hreceived, hbuffer, List.append_nil]
    split
    next error herror =>
      have hfirst : firstFailure log = some error := h.failure ▸ herror
      have hclosed : s.closed = true := h.closed.mpr (terminated_of_firstFailure hfirst)
      exact h.seen _ s.buffer _ rfl rfl hreceived nofun (fun _ => ⟨hbuffer, hclosed⟩)
        ⟨hall, hfirst⟩
    next hfailure =>
      split
      next hclosed =>
        exact h.seen _ s.buffer _ rfl rfl hreceived nofun (fun _ => ⟨hbuffer, hclosed⟩)
          ⟨hall, h.closed.mp hclosed, h.failure ▸ hfailure⟩
      next hopen =>
        rw [List.append_nil]
        refine ⟨hreceived, h.closed, h.failure, ?_, ?_, ?_, nofun, h.justified⟩
        · intro promise hpromise
          obtain rfl := Option.some.inj hpromise
          exact Nat.lt_succ_self _
        · intro promise hpromise
          exact Nat.lt_succ_of_lt (h.resolved promise hpromise)
        · intro promise hpromise _
          obtain rfl := Consumer.waiting.inj hpromise
          exact ⟨rfl, hbuffer, eq_false_of_ne_true hopen⟩

/-- The consumer moves on when it asks for a value, or in its turn after a resolved promise. -/
theorem step_consumer {action : Action T E} (ha : action = .next ∨ action = .resume)
    (hs : s.step action = some (t, out)) : (t, out) = s.advance := by
  rcases ha with rfl | rfl
  · simp only [step] at hs
    split at hs
    · exact (Option.some.inj hs).symm
    · cases hs
  · simp only [step] at hs
    split at hs
    · split at hs
      · exact (Option.some.inj hs).symm
      · cases hs
    · cases hs
    · cases hs

theorem Inv.step (h : Inv s log) {action : Action T E} (hs : s.step action = some (t, out)) :
    Inv t (log ++ out) := by
  cases action with
  | push value => exact h.push hs
  | close => exact h.close hs
  | fail error => exact h.fail hs
  | next =>
    obtain ⟨rfl, rfl⟩ := Prod.mk.inj (step_consumer (.inl rfl) hs)
    exact h.advance
  | resume =>
    obtain ⟨rfl, rfl⟩ := Prod.mk.inj (step_consumer (.inr rfl) hs)
    exact h.advance

theorem inv_run {actions : List (Action T E)}
    (hrun : Machine.run step ({} : InputQueue T E) actions = some (s, log)) : Inv s log :=
  Machine.run_invariant (l := []) (fun _ _ _ _ _ h hs => Inv.step h hs) inv_initial hrun

theorem Inv.parked (h : Inv s log) (hparked : Parked s) : s.buffer = [] ∧ ¬ Terminated log := by
  obtain ⟨promise, hwaiting, hunresolved⟩ := hparked
  obtain ⟨-, hbuffer, hclosed⟩ := h.waiting promise hwaiting hunresolved
  refine ⟨hbuffer, fun hterminated => ?_⟩
  rw [h.closed.mpr hterminated] at hclosed
  cases hclosed

/-- Unless it is parked or finished, it is the consumer's turn. -/
theorem exists_turn (hparked : ¬ Parked s) (hfinished : s.consumer ≠ .finished) :
    ∃ action, (action = .next ∨ action = .resume) ∧ s.step action = some s.advance := by
  cases hconsumer : s.consumer with
  | suspended => exact ⟨.next, .inl rfl, by simp [InputQueue.step, hconsumer]⟩
  | waiting promise =>
    have hresolved : promise ∈ s.resolved := by
      by_contra hunresolved
      exact hparked ⟨promise, hconsumer, hunresolved⟩
    exact ⟨.resume, .inr rfl, by simp [InputQueue.step, hconsumer, hresolved]⟩
  | finished => exact absurd hconsumer hfinished

/-- The consumer, when it goes on by itself, ends up parked or finished, with all values. -/
def Drains (s : InputQueue T E) (log : List (Event T E)) : Prop :=
  ∃ actions t more, (∀ action ∈ actions, action = .next ∨ action = .resume) ∧
    Machine.run step s actions = some (t, more) ∧ received (log ++ more) = accepted log ∧
    (Terminated log → t.consumer = .finished) ∧ (¬ Terminated log → Parked t)

theorem Drains.cons {action : Action T E} (ha : action = .next ∨ action = .resume)
    (hs : s.step action = some (t, [e])) (hpushed : e.pushed? = none)
    (hterminates : e.terminates = false) (h : Drains t (log ++ [e])) : Drains s log := by
  obtain ⟨actions, u, more, hactions, hrun, hreceived, hfinished, hparked⟩ := h
  have hsame : Terminated (log ++ [e]) ↔ Terminated log := by
    rw [terminated_append, terminated_singleton, hterminates]
    exact or_iff_left nofun
  rw [hsame] at hfinished hparked
  rw [List.append_assoc, accepted_of_seen hpushed] at hreceived
  exact ⟨action :: actions, u, [e] ++ more, List.forall_mem_cons.mpr ⟨ha, hactions⟩,
    Machine.run_cons.mpr ⟨t, [e], more, hs, hrun, rfl⟩, hreceived, hfinished, hparked⟩

theorem Drains.refl (hall : received log = accepted log)
    (hfinished : Terminated log → s.consumer = .finished) (hparked : ¬ Terminated log → Parked s) :
    Drains s log :=
  ⟨[], s, [], by simp, by simp, by simpa using hall, hfinished, hparked⟩

/-- The last value has been seen: the consumer sees the end, or parks. -/
theorem Inv.drains_of_empty (h : Inv s log) (hbuffer : s.buffer = [])
    (hconsumer : s.consumer ≠ .finished) : Drains s log := by
  have hall : InputQueue.received log = accepted log := by
    rw [← h.received, hbuffer, List.append_nil]
  by_cases hparked : Parked s
  · exact .refl hall (fun hterminated => absurd hterminated (h.parked hparked).2) fun _ => hparked
  obtain ⟨action, ha, hs⟩ := exists_turn hparked hconsumer
  have hlast (e : Event T E) (hpushed : e.pushed? = none) (hterminates : e.terminates = false)
      (hreceived : e.received? = none) (hend : Terminated log)
      (hadvance : s.advance = ({ s with consumer := .finished }, [e])) : Drains s log := by
    have hdone : Drains { s with consumer := .finished } (log ++ [e]) := by
      refine .refl ?_ (fun _ => rfl) fun hopen => ?_
      · rw [received_concat, accepted_of_seen hpushed, hreceived, hall]
        exact List.append_nil _
      · exact absurd (terminated_append.mpr (.inl hend)) hopen
    exact .cons ha (hs.trans (congrArg some hadvance)) hpushed hterminates hdone
  cases hfailure : s.failure with
  | some error =>
    have hend : Terminated log := terminated_of_firstFailure (h.failure ▸ hfailure)
    exact hlast (.threw error) rfl rfl rfl hend (by simp [InputQueue.advance, hbuffer, hfailure])
  | none =>
    cases hclosed : s.closed with
    | true =>
      exact hlast .ended rfl rfl rfl (h.closed.mp hclosed)
        (by simp [InputQueue.advance, hbuffer, hfailure, hclosed])
    | false =>
      have hopen : ¬ Terminated log := fun hterminated => by
        rw [h.closed.mpr hterminated] at hclosed
        cases hclosed
      have hadvance : s.advance = ({ s with
          notify := some s.promises
          consumer := .waiting s.promises
          promises := s.promises + 1 }, []) := by
        simp [InputQueue.advance, hbuffer, hfailure, hclosed]
      have hfresh : s.promises ∉ s.resolved := fun hmem => Nat.lt_irrefl _ (h.resolved _ hmem)
      rw [hadvance] at hs
      exact ⟨[action], _, [], by simpa using ha, Machine.run_cons.mpr ⟨_, [], [], hs, rfl, rfl⟩,
        by simpa using hall, fun hterminated => absurd hterminated hopen,
        fun _ => ⟨s.promises, rfl, hfresh⟩⟩

/-- Neither a value nor the end is ever stuck: no wake-up is lost. -/
theorem Inv.drains (h : Inv s log) (hconsumer : s.consumer ≠ .finished) : Drains s log := by
  induction hbuffer : s.buffer generalizing s log with
  | nil => exact h.drains_of_empty hbuffer hconsumer
  | cons value buffer ih =>
    have hparked : ¬ Parked s := by
      intro hparked
      rw [(h.parked hparked).1] at hbuffer
      cases hbuffer
    obtain ⟨action, ha, hs⟩ := exists_turn hparked hconsumer
    have hadvance : s.advance = ({ s with buffer, consumer := .suspended }, [.received value]) := by
      unfold InputQueue.advance
      rw [hbuffer]
    rw [hadvance] at hs
    have hnext := h.step hs
    exact .cons ha hs rfl rfl (ih hnext nofun rfl)

/-- Whatever the order of the calls and of the consumer's turns, the consumer sees the accepted
values in order and only then the end; it parks only while there is nothing to see, and it gets
everything if it goes on. -/
theorem delivers_in_order {actions : List (Action T E)}
    (hrun : Machine.run step ({} : InputQueue T E) actions = some (s, log)) :
    Machine.Justified Expected log ∧
      (s.consumer = .finished → received log = accepted log ∧ Terminated log) ∧
      (s.consumer ≠ .finished → Drains s log) ∧
      (Parked s → s.buffer = [] ∧ ¬ Terminated log) := by
  have h := inv_run hrun
  refine ⟨h.justified, fun hfinished => ?_, h.drains, h.parked⟩
  obtain ⟨hbuffer, hclosed⟩ := h.finished hfinished
  refine ⟨?_, h.closed.mp hclosed⟩
  rw [← h.received, hbuffer, List.append_nil]

/-- A `fail` after `close` that the parked consumer has been woken by, but not seen yet. -/
theorem delivers_in_order_failed :
    received (T := ℕ) (E := String)
      [.pushed 1, .received 1, .pushed 2, .closed, .failed "aborted", .pushed 3, .received 2,
        .threw "aborted"] =
      accepted (T := ℕ) (E := String)
        [.pushed 1, .received 1, .pushed 2, .closed, .failed "aborted", .pushed 3, .received 2,
          .threw "aborted"] := by
  have hrun : ∃ s : InputQueue ℕ String, s.consumer = .finished ∧ Machine.run step {}
      [.next, .push 1, .resume, .next, .push 2, .close, .fail "aborted", .push 3, .resume, .next] =
      some (s, [.pushed 1, .received 1, .pushed 2, .closed, .failed "aborted", .pushed 3,
        .received 2, .threw "aborted"]) := ⟨_, rfl, rfl⟩
  obtain ⟨s, hfinished, hrun⟩ := hrun
  exact ((delivers_in_order hrun).2.1 hfinished).1

end InputQueue
end Connectum.Core
