import Connectum.Events.Kafka.EachBatch

/-! A consumer of one partition over any number of batches, and the offsets that it commits.
The KafkaJS client is a parameter. -/
namespace Connectum.Events.Kafka

/-- What `resolveOffset` and `commitOffsetsIfNecessary` do to the client, and the committed
offset of the partition. -/
structure Client (σ : Type*) where
  committed : σ → Option ℕ
  resolveOffset : σ → ℕ → σ
  commitOffsetsIfNecessary : RunConfig → σ → σ

/-- Documented behaviour: resolving does not commit, and `commitOffsetsIfNecessary()` commits
only by the configured interval or threshold. -/
structure Client.Documented {σ : Type*} (client : Client σ) : Prop where
  resolve : ∀ s offset, client.committed (client.resolveOffset s offset) = client.committed s
  commit : ∀ config s, config.autoCommitInterval = none → config.autoCommitThreshold = none →
    client.committed (client.commitOffsetsIfNecessary config s) = client.committed s

/-- The client, the batches fetched so far, of which the last is being consumed, and the calls
of `commitOffsetsIfNecessary` with the message they are made for and how they have settled. -/
structure Session (σ : Type*) where
  client : σ
  batches : List (Batch × EachBatch)
  commits : List (ℕ × Option Bool)

inductive SessionAction where
  | fetch (batch : Batch)
  | each (b : ℕ) (a : BatchAction)
  | answered (k : ℕ) (ok : Bool)

namespace Session

variable {σ : Type*} {Handler : Type*}

def started (client : σ) : Session σ := ⟨client, [], []⟩

/-- One call of the client. -/
def call (client : Client σ) (s : Session σ) : ConsumerCall → Session σ
  | .resolveOffset offset => { s with client := client.resolveOffset s.client offset }
  | .commitOffsetsIfNecessary offset =>
    { s with
      client := client.commitOffsetsIfNecessary runConfig s.client
      commits := s.commits ++ [(offset, none)] }

/-- A message is not fetched from before the committed offset. -/
def fetchable (client : Client σ) (s : Session σ) (batch : Batch) : Bool :=
  batch.messages.all fun m => (client.committed s.client).all fun c => c ≤ m.offset

/-- The batches of a partition are consumed one after the other. -/
def between (s : Session σ) : Bool :=
  s.batches.all fun b => b.2.phase = .returned || b.2.phase = .threw

def step (client : Client σ) (o : BusOptions Handler) (s : Session σ) :
    SessionAction → Option (Session σ × List ConsumerCall)
  | .fetch batch =>
    if s.between ∧ s.fetchable client batch then
      some ({ s with batches := s.batches ++ [(batch, EachBatch.started batch)] }, [])
    else none
  | .each b a =>
    match s.batches[b]? with
    | none => none
    | some (batch, each) =>
      match each.step o batch a with
      | none => none
      | some (each', out) =>
        some (out.foldl (call client) { s with batches := s.batches.set b (batch, each') }, out)
  | .answered k ok =>
    match s.commits[k]? with
    | some (offset, none) => some ({ s with commits := s.commits.set k (offset, some ok) }, [])
    | _ => none

/-- The `ack()` or `nack(false)` of a message has resolved. -/
def acknowledged (s : Session σ) (offset : ℕ) : Prop := (offset, some true) ∈ s.commits

/-- The committed offset is beyond the message, so that it is not consumed again. -/
def durable (client : Client σ) (s : Session σ) (offset : ℕ) : Prop :=
  ∃ c, client.committed s.client = some c ∧ offset < c

/-- Nothing has been committed since `c₀`, and no message lies before that commit. -/
structure Uncommitted (client : Client σ) (c₀ : σ) (s : Session σ) : Prop where
  committed : client.committed s.client = client.committed c₀
  batches : ∀ b ∈ s.batches, EachBatch.Partitioned b.1 b.2 ∧
    ∀ m ∈ b.1.messages, ∀ c, client.committed c₀ = some c → c ≤ m.offset
  commits : ∀ e ∈ s.commits, ∀ c, client.committed c₀ = some c → c ≤ e.1

theorem uncommitted_started (client : Client σ) (c₀ : σ) :
    Uncommitted client c₀ (started c₀) where
  committed := rfl
  batches := by simp [started]
  commits := by simp [started]

theorem Uncommitted.call {client : Client σ} (hclient : client.Documented) {c₀ : σ}
    {s : Session σ} (h : Uncommitted client c₀ s) (out : List ConsumerCall)
    (hout : ∀ offset, .commitOffsetsIfNecessary offset ∈ out →
      ∀ c, client.committed c₀ = some c → c ≤ offset) :
    Uncommitted client c₀ (out.foldl (Session.call client) s) := by
  induction out generalizing s with
  | nil => exact h
  | cons call out ih =>
    refine ih ?_ fun offset hc => hout offset (List.mem_cons_of_mem call hc)
    cases call with
    | resolveOffset offset =>
      exact ⟨(hclient.resolve s.client offset).trans h.committed, h.batches, h.commits⟩
    | commitOffsetsIfNecessary offset =>
      refine ⟨(hclient.commit runConfig s.client rfl rfl).trans h.committed, h.batches, ?_⟩
      intro e he
      rcases List.mem_append.mp he with hold | hnew
      · exact h.commits e hold
      · obtain rfl := List.mem_singleton.mp hnew
        exact hout offset List.mem_cons_self

theorem Uncommitted.step {client : Client σ} (hclient : client.Documented) {c₀ : σ}
    {o : BusOptions Handler} {s t : Session σ} {a : SessionAction} {out : List ConsumerCall}
    (h : Uncommitted client c₀ s) (hs : s.step client o a = some (t, out)) :
    Uncommitted client c₀ t := by
  cases a with
  | fetch batch =>
    simp only [Session.step] at hs
    split at hs
    next hfetch =>
      obtain ⟨rfl, -⟩ := Prod.mk.inj (Option.some.inj hs)
      refine ⟨h.committed, fun b hb => ?_, h.commits⟩
      rcases List.mem_append.mp hb with hold | hnew
      · exact h.batches b hold
      · obtain rfl := List.mem_singleton.mp hnew
        refine ⟨rfl, fun m hm c hc => ?_⟩
        have hall := List.all_eq_true.mp hfetch.2 m hm
        simpa [h.committed, hc] using hall
    next => simp at hs
  | each b a =>
    simp only [Session.step] at hs
    split at hs
    next => simp at hs
    next batch each hb =>
      split at hs
      next => simp at hs
      next each' calls he =>
        obtain ⟨rfl, rfl⟩ := Prod.mk.inj (Option.some.inj hs)
        obtain ⟨hpart, hmessages⟩ := h.batches _ (List.mem_of_getElem? hb)
        have hstep := EachBatch.step_cases he
        have hbatches : Uncommitted client c₀
            { s with batches := s.batches.set b (batch, each') } := by
          refine ⟨h.committed, fun b' hb' => ?_, h.commits⟩
          rcases List.mem_or_eq_of_mem_set hb' with hold | rfl
          · exact h.batches b' hold
          · exact ⟨hpart.step hstep, hmessages⟩
        refine hbatches.call hclient _ fun offset hc => ?_
        obtain ⟨m, hm, rfl⟩ := hstep.commit_mem hpart hc
        exact hmessages m hm
  | answered k ok =>
    simp only [Session.step] at hs
    split at hs
    next offset hk =>
      obtain ⟨rfl, -⟩ := Prod.mk.inj (Option.some.inj hs)
      refine ⟨h.committed, h.batches, fun e he => ?_⟩
      rcases List.mem_or_eq_of_mem_set he with hold | rfl
      · exact h.commits e hold
      · exact h.commits (offset, none) (List.mem_of_getElem? hk)
    next => simp at hs

/-- Acknowledgements are durable, over any number of batches, if and only if there are none:
neither `ack()` nor `nack(false)` commits anything. -/
theorem acknowledged_durable_iff {client : Client σ} (hclient : client.Documented) (c₀ : σ)
    (o : BusOptions Handler) {as : List SessionAction} {s : Session σ} {log : List ConsumerCall}
    (hrun : Machine.run (Session.step client o) (started c₀) as = some (s, log)) :
    (∀ offset, s.acknowledged offset → s.durable client offset) ↔
      ∀ offset, ¬ s.acknowledged offset := by
  have hs : Uncommitted client c₀ s := Machine.run_preserves
    (fun _ _ _ _ h hs => h.step hclient hs) (uncommitted_started client c₀) hrun
  constructor
  · intro hdurable offset hack
    obtain ⟨c, hc, hlt⟩ := hdurable offset hack
    have hle : c ≤ offset := hs.commits _ hack c (hs.committed ▸ hc)
    omega
  · intro hnone offset hack
    exact absurd hack (hnone offset)

/-- A client that keeps the highest resolved offset and commits by the configured interval or
threshold. -/
def autoCommitting : Client (ℕ × Option ℕ) where
  committed := Prod.snd
  resolveOffset := fun s offset => (max s.1 (offset + 1), s.2)
  commitOffsetsIfNecessary := fun config s =>
    if config.autoCommitInterval = none ∧ config.autoCommitThreshold = none then s
    else (s.1, some s.1)

theorem documented_autoCommitting : autoCommitting.Documented where
  resolve _ _ := rfl
  commit config s hinterval hthreshold := by simp [autoCommitting, hinterval, hthreshold]

/-- The first message of the batch was acked automatically, and its commit has succeeded. -/
def ackedSession : Session (ℕ × Option ℕ) where
  client := (6, some 5)
  batches := [(EachBatch.userBatch, ⟨[⟨EachBatch.userMessage 5,
    EachBatch.userDelivery 5 .autoAcking, false⟩], [EachBatch.userMessage 6], .handling⟩)]
  commits := [(5, some true)]

theorem run_ackedSession : Machine.run (Session.step autoCommitting userOptions)
    (started (5, some 5))
    [.fetch EachBatch.userBatch, .each 0 (.next EachBatch.epoch false),
      .each 0 (.bus 0 .handlerReturns), .answered 0 true] =
    some (ackedSession, [.resolveOffset 5, .commitOffsetsIfNecessary 5]) := rfl

theorem acknowledged_durable_iff_acked :
    ¬ ∀ offset, ackedSession.acknowledged offset → ackedSession.durable autoCommitting offset :=
  fun h => (acknowledged_durable_iff documented_autoCommitting (5, some 5) userOptions
    run_ackedSession).mp h 5 (by simp [acknowledged, ackedSession])

/-- An acked message whose commit has succeeded is not beyond the committed offset. -/
theorem acked_message_not_durable :
    ¬ ∀ (σ : Type) (client : Client σ), client.Documented → ∀ (c₀ : σ)
      (as : List SessionAction) (s : Session σ) (log : List ConsumerCall),
      Machine.run (Session.step client userOptions) (started c₀) as = some (s, log) →
      ∀ offset, s.acknowledged offset → s.durable client offset := by
  intro h
  obtain ⟨c, hc, hlt⟩ := h _ autoCommitting documented_autoCommitting _ _ _ _ run_ackedSession 5
    (by simp [acknowledged, ackedSession])
  obtain rfl : 5 = c := Option.some.inj hc
  omega

end Session
end Connectum.Events.Kafka
