import Connectum.Events.Delivery
import Connectum.Events.Kafka.Envelope

/-! The `eachBatch` callback of the Kafka consumer, as the KafkaJS runner calls it, and where
the consumer fetches next after it has returned. -/
namespace Connectum.Events.Kafka

/-- The configuration of `consumer.run`, with the defaults of KafkaJS. -/
structure RunConfig where
  autoCommit : Bool := true
  autoCommitInterval : Option ℕ := none
  autoCommitThreshold : Option ℕ := none
  eachBatchAutoResolve : Bool := true

/-- The configuration that `subscribe` runs the consumer with. -/
def runConfig : RunConfig := { autoCommit := false }

structure Batch where
  topic : String
  messages : List KafkaMessage
  lastOffset : ℕ
  le_last : ∀ m ∈ messages, m.offset ≤ lastOffset

/-- Calls of the KafkaJS consumer. The argument of a commit is the message on whose behalf it
is made; the call itself carries none. -/
inductive ConsumerCall where
  | resolveOffset (offset : ℕ)
  | commitOffsetsIfNecessary (offset : ℕ)
  deriving DecidableEq, Repr

/-- The `ack` and `nack` closures of a message, of which the second sets `nacked` instead when
it is asked to requeue. -/
def consumerCalls (offset : ℕ) : AdapterCall → List ConsumerCall
  | .ack => [.resolveOffset offset, .commitOffsetsIfNecessary offset]
  | .nack requeue =>
    if requeue = false then [.resolveOffset offset, .commitOffsetsIfNecessary offset] else []

def requeues : AdapterCall → Bool
  | .ack => false
  | .nack requeue => requeue

/-- A message that was handed to the bus, with its `nacked` variable. -/
structure Handled where
  message : KafkaMessage
  delivery : Delivery
  nacked : Bool
  deriving DecidableEq, Repr

/-- The message's callback rejected, or it was nacked with requeue. -/
def Handled.failed (h : Handled) : Bool := h.nacked || h.delivery.rejected

/-- Where the callback is: at the head of the loop, at one of its two awaits, or done. -/
inductive BatchPhase where
  | ready
  | handling
  | heartbeating
  | returned
  | threw
  deriving DecidableEq, Repr

structure EachBatch where
  handled : List Handled
  rest : List KafkaMessage
  phase : BatchPhase
  deriving DecidableEq, Repr

/-- `settled` continues after the callback of the current message; `bus` is a step of any
message handed over so far, at any time. -/
inductive BatchAction where
  | next (env : Environment) (draining : Bool)
  | bus (i : ℕ) (a : DeliveryAction)
  | settled
  | heartbeat (ok : Bool)

namespace EachBatch

variable {Handler : Type*}

def started (batch : Batch) : EachBatch := ⟨[], batch.messages, .ready⟩

/-- After a normal return the runner resolves the last offset of the batch. -/
def finish (batch : Batch) (s : EachBatch) : EachBatch × List ConsumerCall :=
  ({ s with phase := .returned },
    if runConfig.eachBatchAutoResolve then [.resolveOffset batch.lastOffset] else [])

def deliver (o : BusOptions Handler) (batch : Batch) (env : Environment) (draining : Bool)
    (message : KafkaMessage) : Handled × List ConsumerCall :=
  let r := Delivery.receive o.topicHandlerMap draining o.signals
    (rawEvent env batch.topic message)
  (⟨message, r.1, r.2.any requeues⟩, r.2.flatMap (consumerCalls message.offset))

def step (o : BusOptions Handler) (batch : Batch) (s : EachBatch) :
    BatchAction → Option (EachBatch × List ConsumerCall)
  | .next env draining =>
    if s.phase = .ready then
      match s.rest with
      | [] => some (s.finish batch)
      | message :: rest =>
        let r := deliver o batch env draining message
        some (⟨s.handled ++ [r.1], rest, .handling⟩, r.2)
    else none
  | .bus i a =>
    match s.handled[i]? with
    | none => none
    | some h =>
      match h.delivery.step a with
      | none => none
      | some r =>
        some ({ s with
          handled := s.handled.set i
            { h with delivery := r.1, nacked := h.nacked || r.2.any requeues } },
          r.2.flatMap (consumerCalls h.message.offset))
  | .settled =>
    if s.phase = .handling then
      match s.handled.getLast? with
      | none => none
      | some h =>
        match h.delivery.outcome with
        | none => none
        | some false => some (s.finish batch)
        | some true =>
          if h.nacked then some (s.finish batch) else some ({ s with phase := .heartbeating }, [])
    else none
  | .heartbeat ok =>
    if s.phase = .heartbeating then
      some ({ s with phase := if ok then .ready else .threw }, [])
    else none

/-- What a step of the callback can do: a new message, a step of a message, an end, or a
wait. -/
inductive Step (o : BusOptions Handler) (batch : Batch) (s : EachBatch) :
    BatchAction → EachBatch → List ConsumerCall → Prop where
  | delivers {env draining message rest} (hp : s.phase = .ready) (hr : s.rest = message :: rest) :
      Step o batch s (.next env draining)
        ⟨s.handled ++ [(deliver o batch env draining message).1], rest, .handling⟩
        (deliver o batch env draining message).2
  | bus {i a h d cs} (hi : s.handled[i]? = some h) (hd : Delivery.Step h.delivery a d cs) :
      Step o batch s (.bus i a)
        { s with handled := s.handled.set i ⟨h.message, d, h.nacked || cs.any requeues⟩ }
        (cs.flatMap (consumerCalls h.message.offset))
  | finishes {a} : Step o batch s a (s.finish batch).1 (s.finish batch).2
  | waits {a phase} (hp : phase ≠ .returned) : Step o batch s a { s with phase } []

theorem step_cases {o : BusOptions Handler} {batch : Batch} {s t : EachBatch} {a : BatchAction}
    {out : List ConsumerCall} (h : s.step o batch a = some (t, out)) :
    Step o batch s a t out := by
  have hfinish {a : BatchAction} (he : s.finish batch = (t, out)) : Step o batch s a t out := by
    have hstep : Step o batch s a (s.finish batch).1 (s.finish batch).2 := .finishes
    rwa [he] at hstep
  cases a with
  | next env draining =>
    simp only [step] at h
    split at h
    next hp =>
      split at h
      next => exact hfinish (Option.some.inj h)
      next message rest hr =>
        obtain ⟨rfl, rfl⟩ := Prod.mk.inj (Option.some.inj h)
        exact .delivers hp hr
    next => simp at h
  | bus i a =>
    simp only [step] at h
    split at h
    next => simp at h
    next x hi =>
      split at h
      next => simp at h
      next r hr =>
        obtain ⟨rfl, rfl⟩ := Prod.mk.inj (Option.some.inj h)
        exact .bus hi (Delivery.step_cases hr)
  | settled =>
    simp only [step] at h
    split at h
    next =>
      split at h
      next => simp at h
      next x _ =>
        split at h
        next => simp at h
        next => exact hfinish (Option.some.inj h)
        next =>
          split at h
          next => exact hfinish (Option.some.inj h)
          next =>
            obtain ⟨rfl, rfl⟩ := Prod.mk.inj (Option.some.inj h)
            exact .waits (by decide)
    next => simp at h
  | heartbeat ok =>
    simp only [step] at h
    split at h
    next =>
      obtain ⟨rfl, rfl⟩ := Prod.mk.inj (Option.some.inj h)
      exact .waits (by cases ok <;> decide)
    next => simp at h

/-- Offsets resolved by a sequence of calls. -/
def resolved (log : List ConsumerCall) : List ℕ :=
  log.filterMap fun
    | .resolveOffset offset => some offset
    | .commitOffsetsIfNecessary _ => none

/-- The messages handed over and those left make up the batch. -/
def Partitioned (batch : Batch) (s : EachBatch) : Prop :=
  s.handled.map Handled.message ++ s.rest = batch.messages

theorem Partitioned.step {o : BusOptions Handler} {batch : Batch} {s t : EachBatch}
    {a : BatchAction} {out : List ConsumerCall} (h : Partitioned batch s)
    (hstep : Step o batch s a t out) : Partitioned batch t := by
  cases hstep with
  | @delivers env draining message rest hp hr =>
    rw [Partitioned, ← h, hr]
    simp [deliver]
  | @bus i a x d cs hi hd =>
    have hset : (s.handled.set i ⟨x.message, d, x.nacked || cs.any requeues⟩).map
        Handled.message = s.handled.map Handled.message := by
      apply List.ext_getElem?
      intro j
      by_cases hij : i = j
      · subst hij
        have hlt := (List.getElem?_eq_some_iff.mp hi).1
        simp [hlt, ← (List.getElem?_eq_some_iff.mp hi).2]
      · simp [List.getElem?_set_ne hij]
    rw [Partitioned, hset]
    exact h
  | finishes => exact h
  | waits => exact h

/-- A commit is made on behalf of a message of the batch. -/
theorem Step.commit_mem {o : BusOptions Handler} {batch : Batch} {s t : EachBatch}
    {a : BatchAction} {out : List ConsumerCall} {offset : ℕ} (h : Step o batch s a t out)
    (hs : Partitioned batch s) (hc : .commitOffsetsIfNecessary offset ∈ out) :
    ∃ m ∈ batch.messages, m.offset = offset := by
  have hcalls {m : KafkaMessage} {cs : List AdapterCall}
      (hm : .commitOffsetsIfNecessary offset ∈ cs.flatMap (consumerCalls m.offset)) :
      m.offset = offset := by
    obtain ⟨c, -, hmem⟩ := List.mem_flatMap.mp hm
    cases c with
    | ack => simpa [consumerCalls, eq_comm] using hmem
    | nack requeue => cases requeue <;> simp [consumerCalls, eq_comm] at hmem ⊢; exact hmem
  cases h with
  | @delivers env draining message rest hp hr =>
    refine ⟨message, ?_, hcalls hc⟩
    rw [← hs, hr]
    simp
  | @bus i a x d cs hi hd =>
    refine ⟨x.message, ?_, hcalls hc⟩
    rw [← hs]
    exact List.mem_append_left _ (List.mem_map_of_mem (List.mem_of_getElem? hi))
  | finishes => simp [finish, runConfig] at hc
  | waits => simp at hc

/-- A batch that has returned has its last offset resolved. -/
theorem Step.returned {o : BusOptions Handler} {batch : Batch} {s t : EachBatch}
    {a : BatchAction} {log out : List ConsumerCall} (h : Step o batch s a t out)
    (hs : s.phase = .returned → batch.lastOffset ∈ resolved log) (ht : t.phase = .returned) :
    batch.lastOffset ∈ resolved (log ++ out) := by
  rw [resolved, List.filterMap_append]
  cases h with
  | delivers => cases ht
  | bus => exact List.mem_append_left _ (hs ht)
  | finishes => simp [finish, runConfig]
  | waits hp => exact absurd ht hp

/-- Documented behaviour of the consumer: it fetches next after the highest resolved offset. -/
def FetchesAfterResolved (nextFetch : ℕ → List ℕ → ℕ) : Prop :=
  ∀ position offsets, ∀ offset ∈ offsets, offset < nextFetch position offsets

/-- No failed message, and no later message of its batch, lies before the next fetch. -/
def KeepsFailed (batch : Batch) (s : EachBatch) (next : ℕ) : Prop :=
  ∀ (i : ℕ) (h : Handled), s.handled[i]? = some h → h.failed = true →
    ∀ m ∈ batch.messages.drop i, next ≤ m.offset

/-- When `eachBatch` has returned, the failed messages of the batch are fetched again if and
only if there are none: the runner has resolved the whole batch. -/
theorem keepsFailed_iff {nextFetch : ℕ → List ℕ → ℕ} (hnext : FetchesAfterResolved nextFetch)
    (position : ℕ) (o : BusOptions Handler) (batch : Batch) {as : List BatchAction}
    {s : EachBatch} {log : List ConsumerCall}
    (hrun : Machine.run (EachBatch.step o batch) (started batch) as = some (s, log))
    (hreturned : s.phase = .returned) :
    KeepsFailed batch s (nextFetch position (resolved log)) ↔
      ∀ h ∈ s.handled, h.failed = false := by
  have hbatch : Partitioned batch s := Machine.run_preserves
    (fun _ _ _ _ h hs => h.step (step_cases hs)) (show Partitioned batch (started batch) from rfl)
    hrun
  have hresolved : s.phase = .returned → batch.lastOffset ∈ resolved log :=
    Machine.run_invariant (l := [])
      (I := fun s log => s.phase = .returned → batch.lastOffset ∈ resolved log)
      (fun _ _ _ _ _ h hs => (step_cases hs).returned h) (by simp [started]) hrun
  have hlast := hnext position _ _ (hresolved hreturned)
  constructor
  · intro hkeeps h hmem
    by_contra hfailed
    obtain ⟨i, hi⟩ := List.mem_iff_getElem?.mp hmem
    have hmessage : batch.messages[i]? = some h.message := by
      have hlt : i < s.handled.length := (List.getElem?_eq_some_iff.mp hi).1
      rw [← hbatch, List.getElem?_append_left (by simpa using hlt)]
      simp [hi]
    have hdrop : h.message ∈ batch.messages.drop i := by
      apply List.mem_of_getElem? (i := 0)
      simpa using hmessage
    have hle := hkeeps i h hi (by simpa using hfailed) h.message hdrop
    have hbound := batch.le_last h.message (List.mem_of_getElem? hmessage)
    omega
  · intro hnone i h hi hfailed
    simp [hnone h (List.mem_of_getElem? hi)] at hfailed

/-- A consumer that fetches right after the highest resolved offset. -/
def afterHighest (position : ℕ) (offsets : List ℕ) : ℕ :=
  offsets.foldl (fun next offset => max next (offset + 1)) position

theorem le_afterHighest (position : ℕ) (offsets : List ℕ) :
    position ≤ afterHighest position offsets := by
  induction offsets generalizing position with
  | nil => exact Nat.le_refl position
  | cons offset offsets ih =>
    exact Nat.le_trans (Nat.le_max_left position (offset + 1)) (ih _)

theorem fetchesAfterResolved_afterHighest : FetchesAfterResolved afterHighest := by
  intro position offsets
  induction offsets generalizing position with
  | nil => simp
  | cons first offsets ih =>
    intro offset hmem
    rcases List.mem_cons.mp hmem with rfl | hrest
    · have hle := le_afterHighest (max position (offset + 1)) offsets
      have hmax := Nat.le_max_right position (offset + 1)
      exact Nat.lt_of_lt_of_le (Nat.lt_of_succ_le hmax) hle
    · exact ih _ offset hrest

/-- Two messages of one topic, and surroundings to read them in. -/
def userMessage (offset : ℕ) : KafkaMessage := ⟨offset, none, none, [], none⟩

def userBatch : Batch :=
  ⟨"user.created", [userMessage 5, userMessage 6], 6, by simp [userMessage]⟩

def epoch : Environment := ⟨"uuid", 0, fun _ => none, fun _ => none, fun _ => ""⟩

def userDelivery (offset : ℕ) (phase : Phase) : Delivery :=
  .handed (createEventContext (rawEvent epoch "user.created" (userMessage offset))
    userOptions.signals) false phase

theorem keepsFailed_iff_completed :
    KeepsFailed userBatch ⟨[⟨userMessage 5, userDelivery 5 .resolved, false⟩,
      ⟨userMessage 6, userDelivery 6 .resolved, false⟩], [], .returned⟩ 7 := by
  have hrun : Machine.run (EachBatch.step userOptions userBatch) (started userBatch)
      [.next epoch false, .bus 0 .handlerReturns, .bus 0 (.brokerAnswers true), .settled,
        .heartbeat true, .next epoch false, .bus 1 .handlerReturns, .bus 1 (.brokerAnswers true),
        .settled, .heartbeat true, .next epoch false] =
      some (⟨[⟨userMessage 5, userDelivery 5 .resolved, false⟩,
        ⟨userMessage 6, userDelivery 6 .resolved, false⟩], [], .returned⟩,
        [.resolveOffset 5, .commitOffsetsIfNecessary 5, .resolveOffset 6,
          .commitOffsetsIfNecessary 6, .resolveOffset 6]) := by decide
  exact (keepsFailed_iff fetchesAfterResolved_afterHighest 5 userOptions userBatch hrun rfl).mpr
    (by decide)

/-- A handler that throws on the first of two messages: the batch returns normally, and both
messages lie before the next fetch. -/
theorem thrown_message_skipped :
    ¬ ∀ nextFetch : ℕ → List ℕ → ℕ, FetchesAfterResolved nextFetch →
      ∀ (position : ℕ) (batch : Batch) (as : List BatchAction) (s : EachBatch)
        (log : List ConsumerCall),
      Machine.run (EachBatch.step userOptions batch) (started batch) as = some (s, log) →
      s.phase = .returned → KeepsFailed batch s (nextFetch position (resolved log)) := by
  intro h
  have hrun : Machine.run (EachBatch.step userOptions userBatch) (started userBatch)
      [.next epoch false, .bus 0 .handlerThrows, .settled] =
      some (⟨[⟨userMessage 5, userDelivery 5 .rejected, false⟩], [userMessage 6], .returned⟩,
        [.resolveOffset 6]) := by decide
  have hkeeps := h _ fetchesAfterResolved_afterHighest 5 _ _ _ _ hrun rfl
  exact absurd (hkeeps 0 _ rfl rfl (userMessage 6) (by decide)) (by decide)

end EachBatch
end Connectum.Events.Kafka
