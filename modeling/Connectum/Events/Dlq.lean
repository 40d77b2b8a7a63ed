import Connectum.Events.Kafka.EachBatch

/-! The dead letter queue middleware around one delivery, and how the Kafka, Redis and NATS
adapters settle the event on its source. -/
namespace Connectum.Events

/-- A thrown value, as error serializers see it. -/
inductive Thrown where
  | error (name message : String)
  | other
  deriving DecidableEq, Repr

def defaultErrorSerializer : Thrown → String
  | .error name _ => name
  | .other => "UnknownError"

/-- A custom serializer can itself throw, which is `none`. -/
structure DlqOptions where
  topic : String
  errorSerializer : Option (Thrown → Option String) := none

def DlqOptions.serializeError (options : DlqOptions) (error : Thrown) : Option String :=
  match options.errorSerializer with
  | some serialize => serialize error
  | none => some (defaultErrorSerializer error)

def dlqMetadata (event : RawEvent) (error : String) : List (String × String) :=
  [("dlq.original-topic", event.eventType), ("dlq.original-id", event.eventId),
    ("dlq.error", error), ("dlq.attempt", toString event.attempt)]

/-- The message that the event came from. A Kafka message is part of a batch. -/
inductive Source where
  | kafka (offset lastOffset : ℕ)
  | redis (key group entryId : String)
  | nats
  deriving DecidableEq, Repr

inductive SourceCommand where
  | kafka (call : Kafka.ConsumerCall)
  | xack (key group entryId : String)
  | natsAck
  | natsNak
  | natsTerm
  deriving DecidableEq, Repr

/-- The `ack` and `nack` closures of the three adapters. -/
def Source.settle : Source → AdapterCall → List SourceCommand
  | .kafka offset _, c => (Kafka.consumerCalls offset c).map .kafka
  | .redis key group entryId, .ack => [.xack key group entryId]
  -- without XACK the entry stays pending and is reclaimed
  | .redis key group entryId, .nack requeue =>
    if requeue = false then [.xack key group entryId] else []
  | .nats, .ack => [.natsAck]
  | .nats, .nack requeue => if requeue = false then [.natsTerm] else [.natsNak]

/-- What the adapter does when the delivery callback rejects. -/
def Source.onRejected : Source → List SourceCommand
  | .kafka _ _ | .redis _ _ _ => []
  | .nats => [.natsNak]

/-- After this command the source does not redeliver the event. -/
def SourceCommand.final : SourceCommand → Bool
  | .kafka (.resolveOffset _) | .xack _ _ _ | .natsAck | .natsTerm => true
  | .kafka (.commitOffsetsIfNecessary _) | .natsNak => false

namespace Dlq

/-- The await at which the middleware is suspended. -/
inductive Phase where
  | running
  | publishing
  | acking
  | nacking
  | finished
  deriving DecidableEq, Repr

/-- `failed` says that `next()` has rejected, and `stored` whether the event is on the DLQ
topic, once the publish has ended. -/
structure State where
  delivery : Delivery
  phase : Phase
  failed : Bool
  stored : Option Bool
  deriving DecidableEq, Repr

/-- A publish that resolves has stored the event; one that rejects may have. `batchReturned`
is the end of the Kafka batch. -/
inductive Action where
  | nextResolves
  | nextRejects (error : Thrown)
  | published (ok stored : Bool)
  | settled (ok : Bool)
  | brokerAnswers (ok : Bool)
  | batchReturned
  deriving DecidableEq, Repr

inductive Output where
  | publish (topic : String) (payload : List UInt8) (metadata : List (String × String))
  | source (command : SourceCommand)
  deriving DecidableEq, Repr

namespace State

def started (event : RawEvent) (signal : List AbortSource) : State :=
  ⟨.handed (createEventContext event signal) false .handling, .running, false, none⟩

/-- A step of the delivery, with its adapter calls made on the source. -/
def advance (source : Source) (s : State) (a : DeliveryAction) (phase : Phase) :
    Option (State × List Output) :=
  match s.delivery.step a with
  | none => none
  | some (delivery, calls) =>
    some ({ s with delivery, phase }, (calls.flatMap source.settle).map .source)

/-- The middleware rejects, and so does the delivery callback. -/
def reject (source : Source) (s : State) : Option (State × List Output) :=
  match s.advance source .handlerThrows .finished with
  | none => none
  | some (s', out) => some (s', out ++ source.onRejected.map .source)

def step (options : DlqOptions) (source : Source) (event : RawEvent) (s : State) :
    Action → Option (State × List Output)
  | .nextResolves =>
    if s.phase = .running then s.advance source .handlerReturns .finished else none
  | .nextRejects error =>
    if s.phase = .running then
      if event.eventType = options.topic then reject source { s with failed := true }
      else match options.serializeError error with
        | none => reject source { s with failed := true }
        | some text =>
          some ({ s with phase := .publishing, failed := true },
            [.publish options.topic event.payload (dlqMetadata event text)])
    else none
  | .published ok stored =>
    if s.phase = .publishing then
      if ok then advance source { s with stored := some true } .ack .acking
      else advance source { s with stored := some stored } (.nack (some false)) .nacking
    else none
  | .settled ok =>
    match s.phase with
    | .acking =>
      if ok then s.advance source .handlerReturns .finished
      else s.advance source (.nack (some false)) .nacking
    | .nacking => if ok then s.advance source .handlerReturns .finished else s.reject source
    | _ => none
  | .brokerAnswers ok =>
    if s.phase = .finished then s.advance source (.brokerAnswers ok) .finished else none
  | .batchReturned =>
    match source with
    | .kafka _ lastOffset =>
      if s.delivery.outcome.isSome ∧ Kafka.runConfig.eachBatchAutoResolve then
        some (s, [.source (.kafka (.resolveOffset lastOffset))])
      else none
    | .redis _ _ _ | .nats => none

end State

/-- The source has been told not to redeliver the event. -/
def Settled (log : List Output) : Prop := ∃ c, .source c ∈ log ∧ c.final = true

/-- The handler has finally failed, and the event is neither on the DLQ topic nor redelivered. -/
def Lost (s : State) (log : List Output) : Prop :=
  s.failed = true ∧ s.stored ≠ some true ∧ Settled log

theorem settled_append {log out : List Output} :
    Settled (log ++ out) ↔ Settled log ∨ Settled out := by
  simp only [Settled, List.mem_append, or_and_right, exists_or]

theorem not_settled_nil : ¬ Settled [] := by simp [Settled]

/-- Both settlements that the middleware makes are final. -/
theorem settled_settle (source : Source) {c : AdapterCall} (hc : c ≠ .nack true) :
    Settled ((source.settle c).map .source) := by
  cases c with
  | ack => cases source <;> exact ⟨_, List.mem_cons_self, rfl⟩
  | nack requeue =>
    cases requeue with
    | true => exact absurd rfl hc
    | false => cases source <;> exact ⟨_, List.mem_cons_self, rfl⟩

theorem not_settled_onRejected (source : Source) :
    ¬ Settled (source.onRejected.map .source) := by
  cases source <;> simp [Settled, Source.onRejected, SourceCommand.final]

/-- The handler is running and nothing has settled the context. -/
def Unsettled (d : Delivery) : Prop :=
  ∃ ctx, d = .handed ctx false .handling ∧ ctx.settled = false

/-- The middleware has settled the context and is still running. -/
def SettledByContext (d : Delivery) : Prop :=
  ∃ ctx, d = .handed ctx true .handling ∧ ctx.settled = true

variable {source : Source} {s t : State} {out : List Output} {a : DeliveryAction} {phase : Phase}

theorem advance_cases (h : s.advance source a phase = some (t, out)) :
    ∃ d calls, Delivery.Step s.delivery a d calls ∧ t = { s with delivery := d, phase } ∧
      out = (calls.flatMap source.settle).map .source := by
  simp only [State.advance] at h
  split at h
  next => simp at h
  next d calls hd =>
    obtain ⟨rfl, rfl⟩ := Prod.mk.inj (Option.some.inj h)
    exact ⟨d, calls, Delivery.step_cases hd, rfl, rfl⟩

/-- The first settlement of the context reaches the source. -/
theorem advance_settles (callback : Settlement) (h : s.advance source a phase = some (t, out))
    (hd : Unsettled s.delivery) (ha : a.callback = some callback) :
    SettledByContext t.delivery ∧ t = { s with delivery := t.delivery, phase } ∧
      out = (source.settle callback.adapterCall).map .source := by
  obtain ⟨ctx, hctx, ho⟩ := hd
  obtain ⟨d, calls, hstep, rfl, rfl⟩ := advance_cases h
  rw [hctx] at hstep
  cases hstep with
  | settles hb _ =>
    obtain rfl := Option.some.inj (hb.symm.trans ha)
    refine ⟨⟨_, rfl, rfl⟩, rfl, by simp⟩
  | ignored _ hs => simp [ho] at hs
  | _ => simp [DeliveryAction.callback] at ha

/-- A second settlement does nothing. -/
theorem advance_ignored (h : s.advance source a phase = some (t, out))
    (hd : SettledByContext s.delivery) (ha : a.callback.isSome = true) :
    t = { s with phase } ∧ out = [] := by
  obtain ⟨ctx, hctx, hs⟩ := hd
  obtain ⟨d, calls, hstep, rfl, rfl⟩ := advance_cases h
  have hsame : d = s.delivery ∧ calls = [] := by
    rw [hctx] at hstep ⊢
    cases hstep with
    | settles _ ho => simp [hs] at ho
    | ignored => exact ⟨rfl, rfl⟩
    | _ => simp [DeliveryAction.callback] at ha
  obtain ⟨rfl, rfl⟩ := hsame
  exact ⟨rfl, rfl⟩

/-- The end of the composed handler makes no call once the context is settled. -/
theorem advance_ends (h : s.advance source a phase = some (t, out)) (ha : a.callback = none)
    (hd : SettledByContext s.delivery ∨ a = .handlerThrows ∨ ∃ ok, a = .brokerAnswers ok) :
    t = { s with delivery := t.delivery, phase } ∧ out = [] := by
  obtain ⟨d, calls, hstep, rfl, rfl⟩ := advance_cases h
  have hnone : calls = [] := by
    rcases hd with ⟨ctx, hctx, hs⟩ | hend
    · rw [hctx] at hstep
      cases hstep with
      | settles hb => simp [hb] at ha
      | _ => rfl
    · exact hstep.no_call hend
  subst hnone
  exact ⟨rfl, rfl⟩

theorem reject_cases (h : s.reject source = some (t, out)) :
    t = { s with delivery := t.delivery, phase := .finished } ∧
      out = source.onRejected.map .source := by
  simp only [State.reject] at h
  split at h
  next => simp at h
  next u calls hu =>
    obtain ⟨rfl, rfl⟩ := Prod.mk.inj (Option.some.inj h)
    obtain ⟨ht, rfl⟩ := advance_ends hu rfl (.inr (.inl rfl))
    exact ⟨ht, List.nil_append _⟩

/-- What is known in each phase of the middleware. -/
def Known (source : Source) (s : State) (log : List Output) : Phase → Prop
  | .running => Unsettled s.delivery ∧ s.failed = false ∧ s.stored = none ∧ ¬ Settled log
  | .publishing => Unsettled s.delivery ∧ s.failed = true ∧ s.stored = none
  | .acking | .nacking => SettledByContext s.delivery ∧ s.stored ≠ none
  | .finished => s.stored = none → s.failed = true →
    ∀ offset lastOffset, source ≠ .kafka offset lastOffset

structure Consistent (source : Source) (s : State) (log : List Output) : Prop where
  settled : s.stored = some false → s.failed = true ∧ Settled log
  unsettled : s.stored = none → s.failed = true → ¬ Settled log
  known : Known source s log s.phase

theorem consistent_started (source : Source) (event : RawEvent) (signal : List AbortSource) :
    Consistent source (State.started event signal) [] where
  settled h := nomatch h
  unsettled _ h := nomatch h
  known := ⟨⟨_, rfl, rfl⟩, rfl, rfl, not_settled_nil⟩

/-- The middleware ends with the source told nothing more than to redeliver. -/
theorem consistent_of_finished {log : List Output} (hp : t.phase = .finished)
    (hout : ¬ Settled out) (hsettled : t.stored = some false → t.failed = true ∧ Settled log)
    (hunsettled : t.stored = none → t.failed = true → ¬ Settled log)
    (hk : Known source t log .finished) : Consistent source t (log ++ out) where
  settled hs := ⟨(hsettled hs).1, settled_append.mpr (.inl (hsettled hs).2)⟩
  unsettled hs hf h := (settled_append.mp h).elim (hunsettled hs hf) hout
  known := by
    rw [hp]
    exact hk

section Steps
variable {options : DlqOptions} {event : RawEvent} {log : List Output}

/-- The middleware returns after a settlement. -/
theorem Consistent.returned (h : Consistent source s log) (hd : SettledByContext s.delivery)
    (hstored : s.stored ≠ none)
    (hs : s.advance source .handlerReturns .finished = some (t, out)) :
    Consistent source t (log ++ out) := by
  obtain ⟨ht, rfl⟩ := advance_ends hs rfl (.inl hd)
  rw [ht]
  exact consistent_of_finished rfl not_settled_nil h.settled (fun hnone => absurd hnone hstored)
    fun hnone => absurd hnone hstored

theorem Consistent.nextResolves (h : Consistent source s log)
    (hs : s.step options source event .nextResolves = some (t, out)) :
    Consistent source t (log ++ out) := by
  have hknown := h.known
  simp only [State.step] at hs
  split at hs
  next hp =>
    rw [hp] at hknown
    obtain ⟨-, hf, hnone, -⟩ := hknown
    obtain ⟨d, calls, -, rfl, rfl⟩ := advance_cases hs
    exact ⟨fun hst => absurd (hnone.symm.trans hst) nofun,
      fun _ hfail => absurd (hf.symm.trans hfail) nofun,
      fun _ hfail => absurd (hf.symm.trans hfail) nofun⟩
  next => simp at hs

/-- A throwing serializer is excluded for Kafka, where the end of the batch resolves the event. -/
theorem Consistent.nextRejects {error : Thrown} (htopic : event.eventType ≠ options.topic)
    (hserializer : ∀ offset lastOffset, source = .kafka offset lastOffset →
      options.serializeError error ≠ none)
    (h : Consistent source s log)
    (hs : s.step options source event (.nextRejects error) = some (t, out)) :
    Consistent source t (log ++ out) := by
  have hknown := h.known
  simp only [State.step] at hs
  split at hs
  next hp =>
    rw [hp] at hknown
    obtain ⟨hd, -, hnone, hunsettled⟩ := hknown
    split at hs
    next hthrows =>
      obtain ⟨ht, rfl⟩ := reject_cases hs
      rw [ht]
      exact consistent_of_finished rfl (not_settled_onRejected source)
        (fun hst => absurd (hnone.symm.trans hst) nofun) (fun _ _ => hunsettled)
        fun _ _ offset lastOffset hsource => hserializer offset lastOffset hsource hthrows
    next text _ =>
      obtain ⟨rfl, rfl⟩ := Prod.mk.inj (Option.some.inj hs)
      refine ⟨fun hst => absurd (hnone.symm.trans hst) nofun, fun _ _ hset => ?_, hd, rfl, hnone⟩
      exact (settled_append.mp hset).elim hunsettled (by simp [Settled])
  next => simp at hs

theorem Consistent.published {ok stored : Bool} (h : Consistent source s log)
    (hs : s.step options source event (.published ok stored) = some (t, out)) :
    Consistent source t (log ++ out) := by
  have hknown := h.known
  simp only [State.step] at hs
  split at hs
  next hp =>
    rw [hp] at hknown
    obtain ⟨hd, hf, -⟩ := hknown
    split at hs
    next =>
      obtain ⟨hsettled, ht, -⟩ := advance_settles .onAck hs hd rfl
      rw [ht]
      exact ⟨nofun, nofun, hsettled, nofun⟩
    next =>
      obtain ⟨hsettled, ht, rfl⟩ := advance_settles (.onNack false) hs hd rfl
      have hfinal := settled_settle source (c := .nack false) (by decide)
      rw [ht]
      exact ⟨fun _ => ⟨hf, settled_append.mpr (.inr hfinal)⟩, nofun, hsettled, nofun⟩
  next => simp at hs

theorem Consistent.settledCall {ok : Bool} (h : Consistent source s log)
    (hs : s.step options source event (.settled ok) = some (t, out)) :
    Consistent source t (log ++ out) := by
  have hknown := h.known
  simp only [State.step] at hs
  split at hs
  next hp =>
    rw [hp] at hknown
    obtain ⟨hd, hstored⟩ := hknown
    split at hs
    next => exact h.returned hd hstored hs
    next =>
      -- the nack after a failed ack reaches nothing
      obtain ⟨rfl, rfl⟩ := advance_ignored hs hd rfl
      rw [List.append_nil]
      exact ⟨h.settled, h.unsettled, hd, hstored⟩
  next hp =>
    rw [hp] at hknown
    obtain ⟨hd, hstored⟩ := hknown
    split at hs
    next => exact h.returned hd hstored hs
    next =>
      obtain ⟨ht, rfl⟩ := reject_cases hs
      rw [ht]
      exact consistent_of_finished rfl (not_settled_onRejected source) h.settled
        (fun hnone => absurd hnone hstored) fun hnone => absurd hnone hstored
  next => simp at hs

theorem Consistent.brokerAnswers {ok : Bool} (h : Consistent source s log)
    (hs : s.step options source event (.brokerAnswers ok) = some (t, out)) :
    Consistent source t (log ++ out) := by
  have hknown := h.known
  simp only [State.step] at hs
  split at hs
  next hp =>
    rw [hp] at hknown
    obtain ⟨ht, rfl⟩ := advance_ends hs rfl (.inr (.inr ⟨ok, rfl⟩))
    rw [ht]
    exact consistent_of_finished rfl not_settled_nil h.settled h.unsettled hknown
  next => simp at hs

/-- Once the delivery callback has settled, the middleware has ended. -/
theorem Known.finished_of_outcome {phase : Phase} (hknown : Known source s log phase)
    (hend : s.delivery.outcome.isSome = true) : phase = .finished := by
  cases phase with
  | finished => rfl
  | running | publishing =>
    obtain ⟨ctx, hctx, -⟩ := hknown.1
    simp [hctx, Delivery.outcome] at hend
  | acking | nacking =>
    obtain ⟨ctx, hctx, -⟩ := hknown.1
    simp [hctx, Delivery.outcome] at hend

theorem Consistent.batchReturned (h : Consistent source s log)
    (hs : s.step options source event .batchReturned = some (t, out)) :
    Consistent source t (log ++ out) := by
  simp only [State.step] at hs
  split at hs
  next offset lastOffset =>
    split at hs
    next hend =>
      obtain ⟨rfl, rfl⟩ := Prod.mk.inj (Option.some.inj hs)
      have hp := h.known.finished_of_outcome hend.1
      have hknown := h.known
      rw [hp] at hknown
      refine ⟨fun hst => ?_, fun hnone hfail => ?_, ?_⟩
      · exact ⟨(h.settled hst).1, settled_append.mpr (.inl (h.settled hst).2)⟩
      · exact absurd rfl (hknown hnone hfail offset lastOffset)
      · rw [hp]
        exact hknown
    next => simp at hs
  next => simp at hs
  next => simp at hs

theorem Consistent.step {a : Action} (htopic : event.eventType ≠ options.topic)
    (hserializer : ∀ offset lastOffset, source = .kafka offset lastOffset →
      ∀ error, options.serializeError error ≠ none)
    (h : Consistent source s log) (hs : s.step options source event a = some (t, out)) :
    Consistent source t (log ++ out) := by
  cases a with
  | nextResolves => exact h.nextResolves hs
  | nextRejects error =>
    exact h.nextRejects htopic
      (fun offset lastOffset hk => hserializer offset lastOffset hk error) hs
  | published ok stored => exact h.published hs
  | settled ok => exact h.settledCall hs
  | brokerAnswers ok => exact h.brokerAnswers hs
  | batchReturned => exact h.batchReturned hs

end Steps

def userOptions : DlqOptions := { topic := "user.dlq" }

theorem serializeError_userOptions (error : Thrown) : userOptions.serializeError error ≠ none :=
  Option.some_ne_none _

end Dlq
end Connectum.Events
