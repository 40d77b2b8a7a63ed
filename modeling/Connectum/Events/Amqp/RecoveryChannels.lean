import Connectum.Events.Amqp.Recovery
import Mathlib.Data.List.Nodup

/-! What one step of the adapter can do, and which record a channel belongs to, through every
interleaving. -/
namespace Connectum.Events.Amqp.Recovery

/-- The index at which the replay goes on and the record that it starts. -/
def Replay.cursor : Replay → Option (ℕ × ℕ)
  | .starting next job => some (next, job.record)
  | _ => none

/-- The record that a call of `disconnect()` takes down. -/
def Disconnecting.visited : Disconnecting → Option ℕ
  | .visiting _ r _ _ => some r
  | _ => none

namespace Adapter
variable {options : AmqpAdapterOptions} {s s' t : Adapter} {a : Action} {r q : ℕ}
  {out : List Event}

/-- All that a step can do. -/
inductive Stepped (options : AmqpAdapterOptions) (s : Adapter) :
    Action → Adapter → List Event → Prop
  | connect (hidle : s.link = .idle) (hcalls : s.disconnects = []) :
    Stepped options s .connect { s with link := .down } []
  | opened (hdown : s.link = .down) :
    Stepped options s .opened
      { s with link := .up, replay := some .creatingPublishChannel } []
  | publishChannelCreated (hreplay : s.replay = some .creatingPublishChannel) :
    Stepped options s .publishChannelCreated
      { s with publishChannel := true, replay := some .applyingTopology } []
  | topologyApplied (hreplay : s.replay = some .applyingTopology) :
    Stepped options s .topologyApplied (s.continueReplay 0) []
  | connected (hup : s.link = .up) (hreplay : s.replay = none) :
    Stepped options s .connected { s with connection := true } []
  | connectFailed (hdown : s.link = .down) :
    Stepped options s .connectFailed { s with publishChannel := false } []
  | connectRejected (hdown : s.link = .down) (hconnection : s.connection = false) :
    Stepped options s .connectRejected { s with link := .idle, publishChannel := false } []
  | lost (text : String) (hup : s.link = .up) :
    Stepped options s (.lost text) (s.lose options text).1 (s.lose options text).2
  | subscribe (record : SubscriptionRecord) (patterns : List String) (group : Option String)
    (hconnection : s.connection = true) (hactive : record.active = true)
    (hchannel : record.channel = none) :
    Stepped options s (.subscribe patterns group)
      { s with
        records := s.records ++ [record]
        subscribes := s.subscribes ++ [⟨s.records.length, .creatingChannel⟩] } []
  | notConnected (patterns : List String) (group : Option String)
    (hconnection : s.connection = false) :
    Stepped options s (.subscribe patterns group) s [.subscribeRejected .notConnected]
  | channelCreated (job : Job) (uuid : String) (r : ℕ) (record : SubscriptionRecord)
    (hup : s.link = .up) (hjob : s.findJob job = some ⟨r, .creatingChannel⟩)
    (hrecord : s.records[r]? = some record) :
    Stepped options s (.channelCreated job uuid) (s.configure options r record uuid job) []
  | commandAnswered (job : Job) (consumerTag : String) (r channel : ℕ) (queueName : String)
    (answered command : SetupCommand) (rest : List SetupCommand) (hup : s.link = .up)
    (hjob : s.findJob job = some ⟨r, .configuring channel queueName answered (command :: rest)⟩) :
    Stepped options s (.answered job consumerTag)
      (s.setPhase (.configuring channel queueName command rest) job) []
  | consumeAnswered (job : Job) (consumerTag : String) (r channel : ℕ) (queueName : String)
    (answered : SetupCommand) (hup : s.link = .up)
    (hjob : s.findJob job = some ⟨r, .configuring channel queueName answered []⟩) :
    Stepped options s (.answered job consumerTag)
      (s.finishStart r channel consumerTag queueName job).1
      (s.finishStart r channel consumerTag queueName job).2
  | refused (r : ℕ) (text : String) (job : Starting)
    (hjob : s.findJob (.subscribe r) = some job) :
    Stepped options s (.refused r text) (s.removeSubscribe r)
      [.subscribeRejected (job.error options text)]
  | unsubscribe (r : ℕ) (hr : r < s.records.length)
    (hsubscribed : ∀ job ∈ s.subscribes, job.record ≠ r) :
    Stepped options s (.unsubscribe r) (s.unsubscribe r).1 (s.unsubscribe r).2
  | unsubscribeAnswered (call : ℕ) (ok : Bool) (u : Unsubscribing)
    (hu : s.unsubscribes[call]? = some u) :
    Stepped options s (.unsubscribeAnswered call ok) (s.unsubscribeAnswered call u ok).1
      (s.unsubscribeAnswered call u ok).2
  | disconnect : Stepped options s .disconnect s.disconnect.1 s.disconnect.2
  | disconnectAnswered (call : ℕ) (ok : Bool) (d : Disconnecting) (t : Adapter)
    (out : List Event) (hd : s.disconnects[call]? = some d)
    (hanswered : s.disconnectAnswered call ok d = some (t, out)) :
    Stepped options s (.disconnectAnswered call ok) t out
  | connectionClosed (call : ℕ) (text : String)
    (hd : s.disconnects[call]? = some .closingConnection) :
    Stepped options s (.connectionClosed call text) (s.connectionClosed options call text).1
      (s.connectionClosed options call text).2

theorem step_cases (h : step options s a = some (s', out)) : Stepped options s a s' out := by
  cases a with
  | connect =>
    simp only [step, Option.ite_none_right_eq_some, Option.some.injEq, Prod.mk.injEq] at h
    obtain ⟨⟨hidle, hcalls⟩, rfl, rfl⟩ := h
    exact .connect hidle hcalls
  | opened =>
    simp only [step, Option.ite_none_right_eq_some, Option.some.injEq, Prod.mk.injEq] at h
    obtain ⟨hdown, rfl, rfl⟩ := h
    exact .opened hdown
  | publishChannelCreated =>
    simp only [step] at h
    split at h
    next hreplay =>
      obtain ⟨rfl, rfl⟩ := Prod.mk.inj (Option.some.inj h)
      exact .publishChannelCreated hreplay
    next => cases h
  | topologyApplied =>
    simp only [step] at h
    split at h
    next hreplay =>
      obtain ⟨rfl, rfl⟩ := Prod.mk.inj (Option.some.inj h)
      exact .topologyApplied hreplay
    next => cases h
  | connected =>
    simp only [step] at h
    split at h
    next hup hreplay =>
      obtain ⟨rfl, rfl⟩ := Prod.mk.inj (Option.some.inj h)
      exact .connected hup hreplay
    next => cases h
  | connectFailed =>
    simp only [step, Option.ite_none_right_eq_some, Option.some.injEq, Prod.mk.injEq] at h
    obtain ⟨hdown, rfl, rfl⟩ := h
    exact .connectFailed hdown
  | connectRejected =>
    simp only [step, Option.ite_none_right_eq_some, Option.some.injEq, Prod.mk.injEq] at h
    obtain ⟨⟨hdown, hconnection⟩, rfl, rfl⟩ := h
    exact .connectRejected hdown hconnection
  | lost text =>
    simp only [step, Option.ite_none_right_eq_some, Option.some.injEq] at h
    obtain ⟨hup, h⟩ := h
    obtain ⟨rfl, rfl⟩ := Prod.mk.inj h
    exact .lost text hup
  | subscribe patterns group =>
    simp only [step] at h
    split at h
    next hconnection =>
      obtain ⟨rfl, rfl⟩ := Prod.mk.inj (Option.some.inj h)
      exact .subscribe _ patterns group hconnection rfl rfl
    next hconnection =>
      obtain ⟨rfl, rfl⟩ := Prod.mk.inj (Option.some.inj h)
      exact .notConnected patterns group (Bool.eq_false_iff.mpr hconnection)
  | channelCreated job uuid =>
    simp only [step] at h
    split at h
    next r hup hjob =>
      obtain ⟨record, hrecord, h⟩ := Option.map_eq_some_iff.mp h
      obtain ⟨rfl, rfl⟩ := Prod.mk.inj h
      exact .channelCreated job uuid r record hup hjob hrecord
    next => cases h
  | answered job consumerTag =>
    simp only [step] at h
    split at h
    next r channel queueName answered command rest hup hjob =>
      obtain ⟨rfl, rfl⟩ := Prod.mk.inj (Option.some.inj h)
      exact .commandAnswered job consumerTag r channel queueName answered command rest hup hjob
    next r channel queueName answered hup hjob =>
      obtain ⟨rfl, rfl⟩ := Prod.mk.inj (Option.some.inj h)
      exact .consumeAnswered job consumerTag r channel queueName answered hup hjob
    next => cases h
  | refused r text =>
    obtain ⟨job, hjob, h⟩ := Option.map_eq_some_iff.mp h
    obtain ⟨rfl, rfl⟩ := Prod.mk.inj h
    exact .refused r text job hjob
  | unsubscribe r =>
    simp only [step, Option.ite_none_right_eq_some, Option.some.injEq] at h
    obtain ⟨⟨hr, hsubscribed⟩, h⟩ := h
    obtain ⟨rfl, rfl⟩ := Prod.mk.inj h
    exact .unsubscribe r hr hsubscribed
  | unsubscribeAnswered call ok =>
    obtain ⟨u, hu, h⟩ := Option.map_eq_some_iff.mp h
    obtain ⟨rfl, rfl⟩ := Prod.mk.inj h
    exact .unsubscribeAnswered call ok u hu
  | disconnect =>
    obtain ⟨rfl, rfl⟩ := Prod.mk.inj (Option.some.inj h)
    exact .disconnect
  | disconnectAnswered call ok =>
    obtain ⟨d, hd, h⟩ := Option.bind_eq_some_iff.mp h
    exact .disconnectAnswered call ok d s' out hd h
  | connectionClosed call text =>
    simp only [step, Option.ite_none_right_eq_some, Option.some.injEq] at h
    obtain ⟨hd, h⟩ := h
    obtain ⟨rfl, rfl⟩ := Prod.mk.inj h
    exact .connectionClosed call text hd

theorem getElem?_update (s : Adapter) (r i : ℕ) (f : SubscriptionRecord → SubscriptionRecord) :
    (s.update r f).records[i]? = s.records[i]?.map fun x => if r = i then f x else x := by
  rw [update, List.getElem?_modify]
  rfl

@[simp] theorem length_update (s : Adapter) (r : ℕ) (f : SubscriptionRecord → SubscriptionRecord) :
    (s.update r f).records.length = s.records.length := List.length_modify ..

theorem isActive_update {f : SubscriptionRecord → SubscriptionRecord}
    (hf : ∀ record, (f record).active = record.active) :
    (s.update r f).isActive q = s.isActive q := by
  rw [isActive, isActive, getElem?_update]
  cases s.records[q]? with
  | none => rfl
  | some record =>
    simp only [Option.map_some, Option.any_some]
    split
    next => exact hf record
    next => rfl

theorem channelOf_update {f : SubscriptionRecord → SubscriptionRecord} (hne : r ≠ q) :
    (s.update r f).channelOf q = s.channelOf q := by
  rw [channelOf, channelOf, getElem?_update]
  simp [hne]

@[simp] theorem isActive_clear : (s.clear r).isActive q = s.isActive q :=
  isActive_update fun _ => rfl

@[simp] theorem isActive_store (channel : ℕ) (consumerTag queueName : String) :
    (s.store r channel consumerTag queueName).isActive q = s.isActive q :=
  isActive_update fun _ => rfl

theorem isActive_deactivate :
    (s.deactivate r).isActive q = (s.isActive q && decide (q ≠ r)) := by
  rw [isActive, isActive, deactivate, getElem?_update]
  cases s.records[q]? with
  | none => rfl
  | some record =>
    by_cases h : r = q
    · simp [h]
    · simp [h, Ne.symm h]

@[simp] theorem channelOf_deactivate : (s.deactivate r).channelOf q = s.channelOf q := by
  rw [channelOf, channelOf, deactivate, getElem?_update]
  cases s.records[q]? with
  | none => rfl
  | some record =>
    simp only [Option.map_some, Option.bind_some]
    split <;> rfl

theorem channelOf_clear : (s.clear r).channelOf q = if r = q then none else s.channelOf q := by
  by_cases h : r = q
  · subst h
    rw [if_pos rfl, channelOf, clear, getElem?_update]
    cases s.records[r]? <;> simp
  · rw [if_neg h]
    exact channelOf_update h

theorem channelOf_store (channel : ℕ) (consumerTag queueName : String)
    (hr : r < s.records.length) :
    (s.store r channel consumerTag queueName).channelOf q =
      if r = q then some channel else s.channelOf q := by
  by_cases h : r = q
  · subst h
    rw [if_pos rfl, channelOf, store, getElem?_update, List.getElem?_eq_getElem hr]
    simp
  · rw [if_neg h]
    exact channelOf_update h

@[simp] theorem isActive_serve (channel : ℕ) (consumerTag queueName : String) :
    (s.serve r channel consumerTag queueName).isActive q = s.isActive q :=
  isActive_store channel consumerTag queueName

theorem channelOf_serve (channel : ℕ) (consumerTag queueName : String)
    (hr : r < s.records.length) :
    (s.serve r channel consumerTag queueName).channelOf q =
      if r = q then some channel else s.channelOf q :=
  channelOf_store channel consumerTag queueName hr

theorem lt_of_isActive (h : s.isActive r = true) : r < s.records.length := by
  by_contra hr
  rw [isActive, List.getElem?_eq_none (not_lt.mp hr)] at h
  cases h

theorem lt_of_channelOf {channel : ℕ} (h : s.channelOf r = some channel) :
    r < s.records.length := by
  by_contra hr
  rw [channelOf, List.getElem?_eq_none (not_lt.mp hr)] at h
  cases h

theorem isActive_congr (h : s'.records = s.records) : s'.isActive r = s.isActive r := by
  rw [isActive, isActive, h]

theorem channelOf_congr (h : s'.records = s.records) : s'.channelOf r = s.channelOf r := by
  rw [channelOf, channelOf, h]

/-- The calls of `startConsumer`. -/
def jobs (s : Adapter) : List Starting := (s.findJob .replay).toList ++ s.subscribes

/-- A record that is in the registry, or that the replay or a `disconnect()` has taken from it. -/
def Engaged (s : Adapter) (r : ℕ) : Prop :=
  r ∈ s.subscriptionRecords ∨ (∃ next, s.replay.bind Replay.cursor = some (next, r)) ∨
    ∃ d ∈ s.disconnects, d.visited = some r

theorem findJob_replay {job : Starting} :
    s.findJob .replay = some job ↔ ∃ next, s.replay = some (.starting next job) := by
  simp only [findJob]
  split
  next next job' hreplay => simp [hreplay]
  next hreplay =>
    constructor
    · intro h
      cases h
    · rintro ⟨next, h⟩
      exact absurd h (hreplay next job)

theorem mem_jobs {job : Starting} :
    job ∈ s.jobs ↔ (∃ next, s.replay = some (.starting next job)) ∨ job ∈ s.subscribes := by
  rw [jobs, List.mem_append, Option.mem_toList, findJob_replay]

theorem mem_jobs_of_findJob {j : Job} {job : Starting} (h : s.findJob j = some job) :
    job ∈ s.jobs := by
  cases j with
  | replay => exact mem_jobs.mpr (.inl (findJob_replay.mp h))
  | subscribe r => exact mem_jobs.mpr (.inr (List.mem_of_find?_eq_some h))

theorem mem_subscribes_of_findJob {job : Starting} (h : s.findJob (.subscribe r) = some job) :
    job ∈ s.subscribes ∧ job.record = r := by
  refine ⟨List.mem_of_find?_eq_some h, ?_⟩
  have hr := List.find?_some h
  exact of_decide_eq_true hr

theorem engaged_of_findJob {job : Starting} (h : s.findJob .replay = some job) :
    s.Engaged job.record := by
  obtain ⟨next, hreplay⟩ := findJob_replay.mp h
  exact .inr (.inl ⟨next, by rw [hreplay]; rfl⟩)

theorem bind_cursor_congr {x y : Option Replay}
    (h : x.map Replay.cursor = y.map Replay.cursor) :
    x.bind Replay.cursor = y.bind Replay.cursor := by
  cases x <;> cases y <;> simp_all

/-- What the change of a call's phase leaves as it is. -/
theorem setPhase_spec {j : Job} {job : Starting} (phase : StartPhase)
    (h : s.findJob j = some job) :
    ∃ replay subscribes, s.setPhase phase j =
        { s with replay := replay, subscribes := subscribes } ∧
      replay.map Replay.cursor = s.replay.map Replay.cursor ∧
      (∀ job' ∈ subscribes, ∃ job'' ∈ s.subscribes, job''.record = job'.record) ∧
      ∀ job' ∈ ({ s with replay := replay, subscribes := subscribes } : Adapter).jobs,
        job' ∈ s.jobs ∨ (job'.record = job.record ∧ job'.phase = phase) := by
  cases j with
  | replay =>
    obtain ⟨next, hreplay⟩ := findJob_replay.mp h
    refine ⟨some (.starting next { job with phase := phase }), s.subscribes, ?_, ?_, ?_, ?_⟩
    · rw [setPhase, hreplay]
    · rw [hreplay]
      rfl
    · exact fun job' hjob' => ⟨job', hjob', rfl⟩
    · intro job' hjob'
      rcases mem_jobs.mp hjob' with ⟨next', hstarting⟩ | hmem
      · obtain ⟨rfl, rfl⟩ := Replay.starting.inj (Option.some.inj hstarting)
        exact .inr ⟨rfl, rfl⟩
      · exact .inl (mem_jobs.mpr (.inr hmem))
  | subscribe r =>
    obtain ⟨-, hrecord⟩ := mem_subscribes_of_findJob h
    refine ⟨s.replay, s.subscribes.map fun job' =>
      if job'.record = r then { job' with phase := phase } else job', rfl, rfl, ?_, ?_⟩
    · intro job' hjob'
      obtain ⟨job'', hmem, rfl⟩ := List.mem_map.mp hjob'
      refine ⟨job'', hmem, ?_⟩
      split <;> rfl
    · intro job' hjob'
      rcases mem_jobs.mp hjob' with hstarting | hmem
      · exact .inl (mem_jobs.mpr (.inl hstarting))
      · obtain ⟨job'', hjob'', rfl⟩ := List.mem_map.mp hmem
        split
        next heq => exact .inr ⟨heq.trans hrecord.symm, rfl⟩
        next => exact .inl (mem_jobs.mpr (.inr hjob''))

/-- Where the loop of `onSetup` comes to: its end, or the next active record. -/
theorem replayFrom_cases (s : Adapter) (next : ℕ) (rest : List ℕ) :
    ((∀ r ∈ rest, s.isActive r = false) ∧ s.replayFrom next rest = none) ∨
      ∃ before r after, rest = before ++ r :: after ∧ (∀ q ∈ before, s.isActive q = false) ∧
        s.isActive r = true ∧
        s.replayFrom next rest =
          some (.starting (next + before.length + 1) ⟨r, .creatingChannel⟩) := by
  induction rest generalizing next with
  | nil => exact .inl ⟨by simp, rfl⟩
  | cons r rest ih =>
    cases hr : s.isActive r with
    | true => exact .inr ⟨[], r, rest, rfl, by simp, hr, by simp [replayFrom, hr]⟩
    | false =>
      have hfrom : s.replayFrom next (r :: rest) = s.replayFrom (next + 1) rest := by
        simp [replayFrom, hr]
      rw [hfrom]
      rcases ih (next + 1) with ⟨hrest, hnone⟩ | ⟨before, q, after, rfl, hbefore, hq, hsome⟩
      · refine .inl ⟨?_, hnone⟩
        intro q hq
        rcases List.mem_cons.mp hq with rfl | hq
        · exact hr
        · exact hrest q hq
      · refine .inr ⟨r :: before, q, after, rfl, ?_, hq, ?_⟩
        · intro q' hq'
          rcases List.mem_cons.mp hq' with rfl | hq'
          · exact hr
          · exact hbefore q' hq'
        · rw [hsome, List.length_cons]
          congr 2
          omega

theorem replayFrom_eq_none_or (s : Adapter) (next : ℕ) (rest : List ℕ) :
    s.replayFrom next rest = none ∨ ∃ next', ∃ r ∈ rest,
      s.replayFrom next rest = some (.starting next' ⟨r, .creatingChannel⟩) := by
  rcases s.replayFrom_cases next rest with ⟨-, hnone⟩ | ⟨before, r, after, rfl, -, -, hsome⟩
  · exact .inl hnone
  · exact .inr ⟨_, r, by simp, hsome⟩

/-- What follows the loop of `disconnect()`. -/
theorem closing_cases (publishChannel connection : Bool) :
    (∀ d ∈ (if publishChannel then some Disconnecting.closingPublishChannel
        else if connection then some .closingConnection else none), d.visited = none) ∧
      ((if publishChannel then some Disconnecting.closingPublishChannel
        else if connection then some .closingConnection else none) = none →
        connection = false) := by
  cases publishChannel <;> cases connection <;> simp [Disconnecting.visited]

/-- Where the loop of `disconnect()` comes to: a record with a channel, or what follows it. Records
without one are detached on the way, which keeps `P`. -/
theorem disconnectFrom_cases {P : Adapter → Prop} {rest : List ℕ}
    (hdetach : ∀ t r, P t → r ∈ rest → P (t.detach r)) (hs : P s) (next : ℕ) :
    ∃ t, P t ∧
      ((∃ next' r channel command, r ∈ rest ∧ t.channelOf r = some channel ∧
          s.disconnectFrom next rest = (t, some (.visiting next' r channel command))) ∨
        ∃ d, (∀ d' ∈ d, d'.visited = none) ∧ (d = none → t.connection = false) ∧
          s.disconnectFrom next rest = ({ t with subscriptionRecords := [] }, d)) := by
  induction rest generalizing s next with
  | nil =>
    obtain ⟨hleft, hnone⟩ := closing_cases s.publishChannel s.connection
    exact ⟨s, hs, .inr ⟨_, hleft, hnone, rfl⟩⟩
  | cons r rest ih =>
    rw [disconnectFrom]
    split
    next channel hchannel =>
      rw [Option.ite_none_right_eq_some] at hchannel
      exact ⟨s, hs, .inl ⟨next + 1, r, channel, s.firstTeardown r, List.mem_cons_self, hchannel.2,
        rfl⟩⟩
    next =>
      obtain ⟨t, ht, hcases⟩ :=
        ih (fun t q hq hmem => hdetach t q hq (List.mem_cons_of_mem _ hmem))
          (hdetach s r hs List.mem_cons_self) (next + 1)
      refine ⟨t, ht, ?_⟩
      rcases hcases with ⟨next', q, channel, command, hq, hcases⟩ | hcases
      · exact .inl ⟨next', q, channel, command, List.mem_cons_of_mem _ hq, hcases⟩
      · exact .inr hcases

/-- Every channel belongs to the record that it was created for; the record of a `subscribe()` that
has not ended is nobody else's. -/
structure Owned (s : Adapter) : Prop where
  nodup : s.subscriptionRecords.Nodup
  engaged : ∀ r, s.Engaged r → r < s.records.length
  created : ∀ r ∈ s.channels, r < s.records.length
  stored : ∀ r channel, s.channelOf r = some channel → s.channels[channel]? = some r
  consuming : ∀ c ∈ s.consumers, s.channels[c.1]? = some c.2
  configuring : ∀ job ∈ s.jobs, ∀ channel, job.channel = some channel →
    s.channels[channel]? = some job.record
  subscribing : ∀ job ∈ s.subscribes,
    ¬ s.Engaged job.record ∧ s.isActive job.record = true ∧ s.channelOf job.record = none
  unsubscribing : ∀ u ∈ s.unsubscribes,
    s.isActive u.record = false ∧ s.channels[u.channel]? = some u.record

theorem owned_initial : Owned {} := by
  refine ⟨List.nodup_nil, ?_, ?_, ?_, ?_, ?_, ?_, ?_⟩ <;>
    simp [Engaged, channelOf, jobs, findJob]

/-- The calls and the consumers of `s'` are some of those of `s`. -/
structure Shrinks (s s' : Adapter) : Prop where
  records : s'.records = s.records := by rfl
  channels : s'.channels = s.channels := by rfl
  registry : s'.subscriptionRecords.Sublist s.subscriptionRecords := by exact .refl _
  replay : s'.replay = s.replay ∨ s'.replay.bind Replay.cursor = none := by exact .inl rfl
  consumers : s'.consumers ⊆ s.consumers := by exact List.Subset.refl _
  subscribes : s'.subscribes ⊆ s.subscribes := by exact List.Subset.refl _
  unsubscribes : ∀ u ∈ s'.unsubscribes, ∃ u' ∈ s.unsubscribes,
      u'.record = u.record ∧ u'.channel = u.channel := by
    exact fun u hu => ⟨u, hu, rfl, rfl⟩
  visited : ∀ d ∈ s'.disconnects, ∀ r, d.visited = some r → s.Engaged r := by
    exact fun d hd _ hr => .inr (.inr ⟨d, hd, hr⟩)

theorem Shrinks.engaged (h : Shrinks s s') (hr : s'.Engaged r) : s.Engaged r := by
  rcases hr with hregistry | ⟨next, hcursor⟩ | ⟨d, hd, hvisited⟩
  · exact .inl (h.registry.subset hregistry)
  · rcases h.replay with heq | hnone
    · exact .inr (.inl ⟨next, by rw [← heq, hcursor]⟩)
    · rw [hnone] at hcursor
      cases hcursor
  · exact h.visited d hd r hvisited

theorem Shrinks.jobs (h : Shrinks s s') {job : Starting} (hjob : job ∈ s'.jobs) :
    job ∈ s.jobs := by
  rcases mem_jobs.mp hjob with ⟨next, hreplay⟩ | hsubscribe
  · rcases h.replay with heq | hnone
    · exact mem_jobs.mpr (.inl ⟨next, heq ▸ hreplay⟩)
    · rw [hreplay] at hnone
      cases hnone
  · exact mem_jobs.mpr (.inr (h.subscribes hsubscribe))

theorem Owned.shrink (h : Owned s) (hs : Shrinks s s') : Owned s' where
  nodup := h.nodup.sublist hs.registry
  engaged r hr := by
    rw [hs.records]
    exact h.engaged r (hs.engaged hr)
  created := by
    rw [hs.records, hs.channels]
    exact h.created
  stored r channel hchannel := by
    rw [hs.channels]
    exact h.stored r channel (channelOf_congr hs.records ▸ hchannel)
  consuming c hc := by
    rw [hs.channels]
    exact h.consuming c (hs.consumers hc)
  configuring job hjob := by
    rw [hs.channels]
    exact h.configuring job (hs.jobs hjob)
  subscribing job hjob := by
    obtain ⟨hengaged, hactive, hchannel⟩ := h.subscribing job (hs.subscribes hjob)
    rw [isActive_congr hs.records, channelOf_congr hs.records]
    exact ⟨fun hr => hengaged (hs.engaged hr), hactive, hchannel⟩
  unsubscribing u hu := by
    obtain ⟨u', hu', hrecord, hchannel⟩ := hs.unsubscribes u hu
    rw [isActive_congr hs.records, hs.channels, ← hrecord, ← hchannel]
    exact h.unsubscribing u' hu'

/-- The update of a record that no call of `subscribe()` holds. -/
theorem Owned.update {f : SubscriptionRecord → SubscriptionRecord} (h : Owned s)
    (hsubscribes : ∀ job ∈ s.subscribes, job.record ≠ r)
    (hactive : ∀ q, s.isActive q = false → (s.update r f).isActive q = false)
    (hstored : ∀ channel, (s.update r f).channelOf r = some channel →
      s.channels[channel]? = some r) : Owned (s.update r f) where
  nodup := h.nodup
  engaged q hq := by
    rw [length_update]
    exact h.engaged q hq
  created := by
    rw [length_update]
    exact h.created
  stored q channel hchannel := by
    by_cases hq : r = q
    · subst hq
      exact hstored channel hchannel
    · rw [channelOf_update hq] at hchannel
      exact h.stored q channel hchannel
  consuming := h.consuming
  configuring := h.configuring
  subscribing job hjob := by
    obtain ⟨hengaged, hjobActive, hchannel⟩ := h.subscribing job hjob
    have hne := (hsubscribes job hjob).symm
    refine ⟨hengaged, ?_, ?_⟩
    · rw [isActive, getElem?_update, List.getElem?_eq_getElem (lt_of_isActive hjobActive)]
      rw [isActive, List.getElem?_eq_getElem (lt_of_isActive hjobActive)] at hjobActive
      simpa [hne] using hjobActive
    · rw [channelOf_update hne]
      exact hchannel
  unsubscribing u hu := ⟨hactive _ (h.unsubscribing u hu).1, (h.unsubscribing u hu).2⟩

theorem Owned.deactivate (h : Owned s) (hsubscribes : ∀ job ∈ s.subscribes, job.record ≠ r) :
    Owned (s.deactivate r) := by
  refine h.update hsubscribes ?_ ?_
  · intro q hq
    have hdeactivated := isActive_deactivate (s := s) (r := r) (q := q)
    rw [hq, Bool.false_and] at hdeactivated
    exact hdeactivated
  · intro channel hchannel
    have hkept := channelOf_deactivate (s := s) (r := r) (q := r)
    exact h.stored r channel (hkept ▸ hchannel)

theorem Owned.clear (h : Owned s) (hsubscribes : ∀ job ∈ s.subscribes, job.record ≠ r) :
    Owned (s.clear r) := by
  refine h.update hsubscribes ?_ ?_
  · intro q hq
    have hkept := isActive_clear (s := s) (r := r) (q := q)
    exact hkept.trans hq
  · intro channel hchannel
    have hcleared := channelOf_clear (s := s) (r := r) (q := r)
    rw [if_pos rfl] at hcleared
    exact absurd (hcleared.symm.trans hchannel) nofun

theorem Owned.store {channel : ℕ} (h : Owned s) (consumerTag queueName : String)
    (hsubscribes : ∀ job ∈ s.subscribes, job.record ≠ r)
    (hchannel : s.channels[channel]? = some r) :
    Owned (s.store r channel consumerTag queueName) := by
  refine h.update hsubscribes ?_ ?_
  · intro q hq
    have hkept := isActive_store (s := s) (r := r) (q := q) channel consumerTag queueName
    exact hkept.trans hq
  · intro channel' hchannel'
    have hr : r < s.records.length := h.created r (List.mem_of_getElem? hchannel)
    have hstored := channelOf_store (q := r) channel consumerTag queueName hr
    rw [if_pos rfl] at hstored
    obtain rfl := Option.some.inj (hstored.symm.trans hchannel')
    exact hchannel

theorem Owned.setPhase {j : Job} {job : Starting} {phase : StartPhase} (h : Owned s)
    (hjob : s.findJob j = some job)
    (hphase : ∀ channel, Starting.channel ⟨job.record, phase⟩ = some channel →
      s.channels[channel]? = some job.record) : Owned (s.setPhase phase j) := by
  obtain ⟨replay, subscribes, heq, hcursor, hsubscribes, hjobs⟩ := setPhase_spec phase hjob
  have hengaged : ∀ r, ({ s with replay := replay, subscribes := subscribes } : Adapter).Engaged r →
      s.Engaged r := by
    rintro r (hr | ⟨next, hr⟩ | hr)
    · exact .inl hr
    · refine .inr (.inl ⟨next, ?_⟩)
      rw [← hr, bind_cursor_congr hcursor]
    · exact .inr (.inr hr)
  rw [heq]
  refine ⟨h.nodup, fun r hr => h.engaged r (hengaged r hr), h.created, h.stored, h.consuming,
    ?_, ?_, h.unsubscribing⟩
  · intro job' hjob' channel hchannel
    rcases hjobs job' hjob' with hmem | ⟨hrecord, hnew⟩
    · exact h.configuring job' hmem channel hchannel
    · rw [hrecord]
      apply hphase
      rw [← hchannel, Starting.channel, Starting.channel, hnew]
  · intro job' hjob'
    obtain ⟨job'', hmem, hrecord⟩ := hsubscribes job' hjob'
    obtain ⟨hfree, hactive, hchannel⟩ := h.subscribing job'' hmem
    rw [hrecord] at hfree hactive hchannel
    exact ⟨fun hr => hfree (hengaged _ hr), hactive, hchannel⟩

theorem Owned.extend (h : Owned s) (hr : r < s.records.length) :
    Owned { s with channels := s.channels ++ [r] } := by
  have hkept : ∀ {channel q : ℕ}, s.channels[channel]? = some q →
      (s.channels ++ [r])[channel]? = some q := fun hq =>
    (List.getElem?_append_left (List.getElem?_eq_some_iff.mp hq).1).trans hq
  refine ⟨h.nodup, h.engaged, ?_, fun q channel hq => hkept (h.stored q channel hq),
    fun c hc => hkept (h.consuming c hc),
    fun job hjob channel hchannel => hkept (h.configuring job hjob channel hchannel),
    h.subscribing, fun u hu => ⟨(h.unsubscribing u hu).1, hkept (h.unsubscribing u hu).2⟩⟩
  intro q hq
  rcases List.mem_append.mp hq with hq | hq
  · exact h.created q hq
  · rw [List.mem_singleton.mp hq]
    exact hr

theorem Owned.continueReplay (h : Owned s) (next : ℕ) : Owned (s.continueReplay next) := by
  have hreplay := s.replayFrom_eq_none_or next (s.subscriptionRecords.drop next)
  have hengaged : ∀ r, (s.continueReplay next).Engaged r → s.Engaged r := by
    rintro r (hr | ⟨next', hr⟩ | hr)
    · exact .inl hr
    · refine .inl (List.mem_of_mem_drop (i := next) ?_)
      simp only [Adapter.continueReplay] at hr
      rcases hreplay with hnone | ⟨next'', q, hq, hsome⟩
      · rw [hnone] at hr
        cases hr
      · rw [hsome] at hr
        obtain ⟨-, rfl⟩ := Prod.mk.inj (Option.some.inj hr)
        exact hq
    · exact .inr (.inr hr)
  refine ⟨h.nodup, fun r hr => h.engaged r (hengaged r hr), h.created, h.stored, h.consuming,
    ?_, ?_, h.unsubscribing⟩
  · intro job hjob channel hchannel
    rcases mem_jobs.mp hjob with ⟨next', hstarting⟩ | hmem
    · simp only [Adapter.continueReplay] at hstarting
      rcases hreplay with hnone | ⟨next'', q, hq, hsome⟩
      · rw [hnone] at hstarting
        cases hstarting
      · rw [hsome] at hstarting
        obtain ⟨-, rfl⟩ := Replay.starting.inj (Option.some.inj hstarting)
        cases hchannel
    · exact h.configuring job (mem_jobs.mpr (.inr hmem)) channel hchannel
  · intro job hjob
    obtain ⟨hfree, hrest⟩ := h.subscribing job hjob
    exact ⟨fun hr => hfree (hengaged _ hr), hrest⟩

theorem Owned.serve {channel : ℕ} (h : Owned s) (consumerTag queueName : String)
    (hsubscribes : ∀ job ∈ s.subscribes, job.record ≠ r)
    (hchannel : s.channels[channel]? = some r) :
    Owned (s.serve r channel consumerTag queueName) := by
  have hstored := h.store consumerTag queueName hsubscribes hchannel
  refine ⟨hstored.nodup, hstored.engaged, hstored.created, hstored.stored, ?_,
    hstored.configuring, hstored.subscribing, hstored.unsubscribing⟩
  intro c hc
  rcases List.mem_append.mp hc with hc | hc
  · exact h.consuming c hc
  · rw [List.mem_singleton.mp hc]
    exact hchannel

theorem Owned.register (h : Owned s) (hr : r < s.records.length)
    (hfree : r ∉ s.subscriptionRecords) (hsubscribes : ∀ job ∈ s.subscribes, job.record ≠ r) :
    Owned { s with subscriptionRecords := s.subscriptionRecords ++ [r] } := by
  have hengaged : ∀ q, ({ s with
      subscriptionRecords := s.subscriptionRecords ++ [r] } : Adapter).Engaged q →
      s.Engaged q ∨ q = r := by
    rintro q (hq | hq)
    · rcases List.mem_append.mp hq with hq | hq
      · exact .inl (.inl hq)
      · exact .inr (List.mem_singleton.mp hq)
    · exact .inl (.inr hq)
  refine ⟨?_, ?_, h.created, h.stored, h.consuming, h.configuring, ?_, h.unsubscribing⟩
  · rw [← List.concat_eq_append]
    exact (List.nodup_concat _ _).mpr ⟨hfree, h.nodup⟩
  · intro q hq
    rcases hengaged q hq with hq | rfl
    · exact h.engaged q hq
    · exact hr
  · intro job hjob
    obtain ⟨hjobFree, hrest⟩ := h.subscribing job hjob
    refine ⟨fun hq => ?_, hrest⟩
    rcases hengaged _ hq with hq | hq
    · exact hjobFree hq
    · exact hsubscribes job hjob hq

theorem Owned.subscribe {record : SubscriptionRecord} (h : Owned s) (hactive : record.active = true)
    (hchannel : record.channel = none) :
    Owned { s with
      records := s.records ++ [record]
      subscribes := s.subscribes ++ [⟨s.records.length, .creatingChannel⟩] } := by
  have hlt : ∀ {q : ℕ}, q < s.records.length → q < (s.records ++ [record]).length := by
    intro q hq
    rw [List.length_append]
    exact Nat.lt_add_right _ hq
  have hkept : ∀ {q : ℕ}, q < s.records.length →
      (s.records ++ [record])[q]? = s.records[q]? := List.getElem?_append_left
  have hlast : (s.records ++ [record])[s.records.length]? = some record :=
    List.getElem?_concat_length
  refine ⟨h.nodup, fun r hr => hlt (h.engaged r hr), fun r hr => hlt (h.created r hr), ?_,
    h.consuming, ?_, ?_, ?_⟩
  · intro r channel hr
    simp only [channelOf] at hr
    rcases lt_trichotomy r s.records.length with hlt | rfl | hgt
    · rw [hkept hlt] at hr
      exact h.stored r channel hr
    · rw [hlast, Option.bind_some, hchannel] at hr
      cases hr
    · rw [List.getElem?_eq_none (by rw [List.length_append]; exact hgt)] at hr
      cases hr
  · intro job hjob channel hjobChannel
    rcases mem_jobs.mp hjob with hreplay | hmem
    · exact h.configuring job (mem_jobs.mpr (.inl hreplay)) channel hjobChannel
    · rcases List.mem_append.mp hmem with hmem | hmem
      · exact h.configuring job (mem_jobs.mpr (.inr hmem)) channel hjobChannel
      · rw [List.mem_singleton.mp hmem] at hjobChannel
        cases hjobChannel
  · intro job hjob
    rcases List.mem_append.mp hjob with hjob | hjob
    · obtain ⟨hfree, hjobActive, hjobChannel⟩ := h.subscribing job hjob
      have hold := lt_of_isActive hjobActive
      refine ⟨hfree, ?_, ?_⟩
      · simp only [isActive, hkept hold]
        exact hjobActive
      · simp only [channelOf, hkept hold]
        exact hjobChannel
    · rw [List.mem_singleton.mp hjob]
      refine ⟨fun hr => (h.engaged _ hr).ne rfl, ?_, ?_⟩
      · simp only [isActive, hlast, Option.any_some, hactive]
      · simp only [channelOf, hlast, Option.bind_some, hchannel]
  · intro u hu
    obtain ⟨hinactive, howner⟩ := h.unsubscribing u hu
    refine ⟨?_, howner⟩
    have hold := h.created _ (List.mem_of_getElem? howner)
    simp only [isActive, hkept hold]
    exact hinactive

theorem Owned.detach (h : Owned s) (hsubscribes : ∀ job ∈ s.subscribes, job.record ≠ r) :
    Owned (s.detach r) := (h.deactivate hsubscribes).clear hsubscribes

theorem commandDone_eq (s : Adapter) (channel : ℕ) (command : TeardownCommand) (ok : Bool) :
    ∃ consumers, s.commandDone channel command ok = { s with consumers := consumers } ∧
      consumers.Sublist s.consumers ∧
      (∀ c ∈ s.consumers, c.1 ≠ channel → c ∈ consumers) ∧
      (command = .close → ∀ c ∈ consumers, c.1 ≠ channel) := by
  unfold commandDone
  split
  next =>
    refine ⟨_, rfl, List.filter_sublist, ?_, ?_⟩
    · exact fun c hc hne => List.mem_filter.mpr ⟨hc, decide_eq_true hne⟩
    · exact fun _ c hc => of_decide_eq_true (List.mem_filter.mp hc).2
  next hkept =>
    refine ⟨s.consumers, rfl, .refl _, fun c hc _ => hc, ?_⟩
    exact fun hclose => absurd (.inl hclose) hkept

theorem Owned.endUnsubscribe (h : Owned s) (hsubscribes : ∀ job ∈ s.subscribes, job.record ≠ r) :
    Owned (s.endUnsubscribe r) :=
  (h.clear hsubscribes).shrink { registry := List.erase_sublist }

theorem Owned.settle {rest : List Disconnecting} {d : Option Disconnecting} (h : Owned s)
    (hrest : rest ⊆ s.disconnects)
    (hd : ∀ d' ∈ d, ∀ r, d'.visited = some r → s.Engaged r) : Owned (s.settle rest d).1 := by
  cases d with
  | none =>
    exact h.shrink { visited := fun d' hd' r hr => .inr (.inr ⟨d', hrest hd', hr⟩) }
  | some d =>
    refine h.shrink { visited := ?_ }
    intro d' hd' r hr
    rcases List.mem_append.mp hd' with hd' | hd'
    · exact .inr (.inr ⟨d', hrest hd', hr⟩)
    · rw [List.mem_singleton.mp hd'] at hr
      exact hd d rfl r hr

/-- The loop of `disconnect()` over records of the registry. -/
theorem Owned.disconnectFrom {rest : List Disconnecting} {records : List ℕ} (h : Owned s)
    (hrest : rest ⊆ s.disconnects) (hrecords : records ⊆ s.subscriptionRecords) (next : ℕ) :
    Owned ((s.disconnectFrom next records).1.settle rest (s.disconnectFrom next records).2).1 := by
  have hdetach : ∀ t r, ((∃ updated, t = { s with records := updated }) ∧ Owned t) →
      r ∈ records → (∃ updated, t.detach r = { s with records := updated }) ∧
        Owned (t.detach r) := by
    rintro t r ⟨⟨updated, rfl⟩, ht⟩ hr
    refine ⟨⟨_, rfl⟩, ht.detach ?_⟩
    rintro job hjob rfl
    exact (ht.subscribing job hjob).1 (.inl (hrecords hr))
  obtain ⟨t, ⟨⟨updated, rfl⟩, ht⟩, hcases⟩ := disconnectFrom_cases hdetach ⟨⟨_, rfl⟩, h⟩ next
  rcases hcases with ⟨next', r, channel, command, hr, -, heq⟩ | ⟨d, hleft, -, heq⟩
  · rw [heq]
    refine ht.settle hrest ?_
    rintro d' hd' q hq
    obtain rfl := Option.some.inj hd'
    obtain rfl := Option.some.inj hq
    exact .inl (hrecords hr)
  · rw [heq]
    refine Owned.settle (ht.shrink { registry := List.nil_sublist _ }) hrest ?_
    exact fun d' hd' q hq => absurd ((hleft d' hd').symm.trans hq) nofun

theorem Owned.finishStart {j : Job} {channel : ℕ} {consumerTag queueName : String}
    {answered : SetupCommand} (h : Owned s)
    (hjob : s.findJob j = some ⟨r, .configuring channel queueName answered []⟩) :
    Owned (s.finishStart r channel consumerTag queueName j).1 := by
  have hchannel : s.channels[channel]? = some r :=
    h.configuring _ (mem_jobs_of_findJob hjob) channel rfl
  cases j with
  | replay =>
    obtain ⟨next, hreplay⟩ := findJob_replay.mp hjob
    have hsubscribes : ∀ job ∈ s.subscribes, job.record ≠ r := by
      intro job hmem hrecord
      refine (h.subscribing job hmem).1 ?_
      rw [hrecord]
      exact engaged_of_findJob hjob
    rw [Adapter.finishStart, hreplay]
    exact (h.serve consumerTag queueName hsubscribes hchannel).continueReplay next
  | subscribe q =>
    have hmem := (mem_subscribes_of_findJob hjob).1
    have hfree := (h.subscribing _ hmem).1
    have hremoved : Owned (s.removeSubscribe r) :=
      h.shrink { subscribes := List.filter_subset_self _ }
    have hsubscribes : ∀ job ∈ (s.removeSubscribe r).subscribes, job.record ≠ r :=
      fun job hjob => of_decide_eq_true (List.mem_filter.mp hjob).2
    have hserved := hremoved.serve consumerTag queueName hsubscribes hchannel
    refine hserved.register ?_ (fun hr => hfree (.inl hr)) hsubscribes
    exact hserved.created r (List.mem_of_getElem? hchannel)

theorem Owned.unsubscribe (h : Owned s) (hsubscribed : ∀ job ∈ s.subscribes, job.record ≠ r) :
    Owned (s.unsubscribe r).1 := by
  rw [Adapter.unsubscribe]
  split
  next => exact (h.deactivate hsubscribed).endUnsubscribe hsubscribed
  next channel hchannel =>
    have hdeactivated := h.deactivate hsubscribed
    refine ⟨hdeactivated.nodup, hdeactivated.engaged, hdeactivated.created, hdeactivated.stored,
      hdeactivated.consuming, hdeactivated.configuring, hdeactivated.subscribing, ?_⟩
    intro u hu
    rcases List.mem_append.mp hu with hu | hu
    · exact hdeactivated.unsubscribing u hu
    · obtain rfl := List.mem_singleton.mp hu
      refine ⟨?_, h.stored r channel hchannel⟩
      have hinactive := isActive_deactivate (s := s) (r := r) (q := r)
      rw [decide_eq_false (fun hne => hne rfl), Bool.and_false] at hinactive
      exact hinactive

theorem Owned.unsubscribeAnswered {call : ℕ} {u : Unsubscribing} {ok : Bool} (h : Owned s)
    (hu : s.unsubscribes[call]? = some u) : Owned (s.unsubscribeAnswered call u ok).1 := by
  obtain ⟨consumers, heq, hsublist, -⟩ := s.commandDone_eq u.channel u.awaiting ok
  have hdone : Owned { s with consumers := consumers } :=
    h.shrink { consumers := hsublist.subset }
  rw [Adapter.unsubscribeAnswered, heq]
  split
  next command hnext =>
    refine hdone.shrink { unsubscribes := ?_ }
    intro u' hu'
    rcases List.mem_or_eq_of_mem_set hu' with hu' | rfl
    · exact ⟨u', hu', rfl, rfl⟩
    · exact ⟨u, List.mem_of_getElem? hu, rfl, rfl⟩
  next hnext =>
    have hsubscribes : ∀ job ∈ s.subscribes, job.record ≠ u.record := by
      intro job hjob hrecord
      have hactive := (h.subscribing job hjob).2.1
      rw [hrecord, (h.unsubscribing u (List.mem_of_getElem? hu)).1] at hactive
      cases hactive
    refine (hdone.endUnsubscribe hsubscribes).shrink { unsubscribes := ?_ }
    exact fun u' hu' => ⟨u', List.mem_of_mem_eraseIdx hu', rfl, rfl⟩

/-- How a call of `disconnect()` goes on when its command has ended. -/
inductive Resumed (s : Adapter) (call : ℕ) : Disconnecting → Adapter → List Event → Prop
  | sent (next r channel current : ℕ) (command following : TeardownCommand)
    (consumers : List (ℕ × ℕ)) (hconsumers : consumers.Sublist s.consumers)
    (hcurrent : s.channelOf r = some current) :
    Resumed s call (.visiting next r channel command)
      { s with
        consumers := consumers
        disconnects := s.disconnects.eraseIdx call ++ [.visiting next r current following] } []
  | rejected (next r channel : ℕ) (command following : TeardownCommand)
    (consumers : List (ℕ × ℕ)) (hconsumers : consumers.Sublist s.consumers)
    (hcommand : command ≠ .close) (hchannel : s.channelOf r = none) :
    Resumed s call (.visiting next r channel command)
      { s with consumers := consumers, disconnects := s.disconnects.eraseIdx call }
      [.disconnectRejected (typeError following)]
  | detached (next r channel : ℕ) (command : TeardownCommand) (consumers : List (ℕ × ℕ))
    (hconsumers : consumers.Sublist s.consumers) (t : Adapter)
    (ht : t = ({ s with consumers := consumers } : Adapter).detach r) :
    Resumed s call (.visiting next r channel command)
      ((t.disconnectFrom next (t.subscriptionRecords.drop next)).1.settle
        (s.disconnects.eraseIdx call)
        (t.disconnectFrom next (t.subscriptionRecords.drop next)).2).1
      ((t.disconnectFrom next (t.subscriptionRecords.drop next)).1.settle
        (s.disconnects.eraseIdx call)
        (t.disconnectFrom next (t.subscriptionRecords.drop next)).2).2
  | publishChannelClosed (d : Option Disconnecting) (hleft : ∀ d' ∈ d, d'.visited = none)
    (hconnection : d = none → s.connection = false) :
    Resumed s call .closingPublishChannel
      (({ s with publishChannel := false } : Adapter).settle (s.disconnects.eraseIdx call) d).1
      (({ s with publishChannel := false } : Adapter).settle (s.disconnects.eraseIdx call) d).2

theorem disconnectAnswered_cases {call : ℕ} {ok : Bool} {d : Disconnecting}
    (h : s.disconnectAnswered call ok d = some (s', out)) : Resumed s call d s' out := by
  cases d with
  | visiting next r channel command =>
    obtain ⟨consumers, heq, hconsumers, -⟩ := s.commandDone_eq channel command ok
    rw [disconnectAnswered, heq] at h
    dsimp only at h
    split at h
    next following hnext =>
      split at h
      next current hcurrent =>
        obtain ⟨rfl, rfl⟩ := Prod.mk.inj (Option.some.inj h)
        exact .sent next r channel current command following consumers hconsumers hcurrent
      next hchannel =>
        obtain ⟨rfl, rfl⟩ := Prod.mk.inj (Option.some.inj h)
        refine .rejected next r channel command following consumers hconsumers ?_ hchannel
        rintro rfl
        cases hnext
    next hnext =>
      obtain ⟨rfl, rfl⟩ := Prod.mk.inj (Option.some.inj h)
      exact .detached next r channel command consumers hconsumers _ rfl
  | closingPublishChannel =>
    obtain ⟨rfl, rfl⟩ := Prod.mk.inj (Option.some.inj h)
    obtain ⟨hleft, hnone⟩ := closing_cases false s.connection
    exact .publishChannelClosed (if s.connection then some .closingConnection else none) hleft hnone
  | closingConnection => cases h

theorem Owned.disconnectAnswered {call : ℕ} {ok : Bool} {d : Disconnecting} (h : Owned s)
    (hd : s.disconnects[call]? = some d)
    (hanswered : s.disconnectAnswered call ok d = some (s', out)) : Owned s' := by
  have hmem := List.mem_of_getElem? hd
  have hrest : s.disconnects.eraseIdx call ⊆ s.disconnects := List.eraseIdx_subset
  cases disconnectAnswered_cases hanswered with
  | sent next r channel current command following consumers hconsumers hcurrent =>
    refine h.shrink { consumers := hconsumers.subset, visited := ?_ }
    intro d' hd' q hq
    rcases List.mem_append.mp hd' with hd' | hd'
    · exact .inr (.inr ⟨d', hrest hd', hq⟩)
    · rw [List.mem_singleton.mp hd'] at hq
      exact .inr (.inr ⟨_, hmem, hq⟩)
  | rejected next r channel command following consumers hconsumers hcommand hchannel =>
    exact h.shrink
      { consumers := hconsumers.subset
        visited := fun d' hd' q hq => .inr (.inr ⟨d', hrest hd', hq⟩) }
  | detached next r channel command consumers hconsumers t ht =>
    have hdone : Owned { s with consumers := consumers } :=
      h.shrink { consumers := hconsumers.subset }
    subst ht
    have hdetached := hdone.detach (r := r) fun job hjob hrecord =>
      (h.subscribing job hjob).1 (.inr (.inr ⟨_, hmem, hrecord ▸ rfl⟩))
    exact hdetached.disconnectFrom hrest (List.drop_subset _ _) next
  | publishChannelClosed d hleft hconnection =>
    have hclosed : Owned { s with publishChannel := false } := h.shrink {}
    exact hclosed.settle hrest fun d' hd' q hq => absurd ((hleft d' hd').symm.trans hq) nofun

theorem Owned.step (h : Owned s) (hstep : step options s a = some (s', out)) : Owned s' := by
  cases step_cases hstep with
  | connect | connected | connectFailed | connectRejected => exact h.shrink {}
  | opened | publishChannelCreated => exact h.shrink { replay := .inr rfl }
  | topologyApplied => exact h.continueReplay 0
  | lost =>
    exact h.shrink
      { replay := .inr rfl
        consumers := List.nil_subset _
        subscribes := List.filter_subset_self _ }
  | subscribe record patterns group hconnection hactive hchannel =>
    exact h.subscribe hactive hchannel
  | notConnected => exact h
  | channelCreated job uuid r record hup hjob hrecord =>
    have hextended := h.extend (List.getElem?_eq_some_iff.mp hrecord).1
    refine hextended.setPhase hjob ?_
    intro channel hchannel
    obtain rfl := Option.some.inj hchannel
    exact List.getElem?_concat_length
  | commandAnswered job consumerTag r channel queueName answered command rest hup hjob =>
    refine h.setPhase hjob ?_
    intro channel' hchannel
    obtain rfl := Option.some.inj hchannel
    exact h.configuring _ (mem_jobs_of_findJob hjob) channel rfl
  | consumeAnswered job consumerTag r channel queueName answered hup hjob =>
    exact h.finishStart hjob
  | refused r text job hjob => exact h.shrink { subscribes := List.filter_subset_self _ }
  | unsubscribe r hr hsubscribed => exact h.unsubscribe hsubscribed
  | unsubscribeAnswered call ok u hu => exact h.unsubscribeAnswered hu
  | disconnect => exact h.disconnectFrom (List.Subset.refl _) (List.Subset.refl _) 0
  | disconnectAnswered call ok d t out hd hanswered => exact h.disconnectAnswered hd hanswered
  | connectionClosed call text hd =>
    exact h.shrink
      { replay := .inr rfl
        consumers := List.nil_subset _
        subscribes := List.nil_subset _
        visited := fun d' hd' q hq => .inr (.inr ⟨d', List.eraseIdx_subset hd', hq⟩) }

end Adapter
end Connectum.Events.Amqp.Recovery
