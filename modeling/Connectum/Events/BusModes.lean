import Connectum.Loop
import Connectum.Events.EventBus

/-! An event bus between its calls: stopped or started, whatever the calls before have met. -/
namespace Connectum.Events.EventBus
open Async

/-- A started bus has its publish topics and the subscriptions that a `stop` will end. -/
inductive Mode where
  | stopped
  | started (publishTopicMap : List (String × String)) (subscriptions : List ℕ)
  deriving DecidableEq, Repr

inductive AdapterEvent where
  | connect (serviceName : Option String) (outcome : Except String Unit)
  | subscribe (topics : List String) (group : Option String) (outcome : Except String ℕ)
  | unsubscribe (subscriptions : List ℕ) (outcomes : List (Except String Unit))
  | disconnect (outcome : Except String Unit)
  | publish (eventType : String) (payload : List UInt8) (publishOptions : PublishOptions)
      (outcome : Except String Unit)

abbrev BusTrace := List (Answered Query Query.Answer EventBus)

def adapterEvent : Answered Query Query.Answer EventBus → Option AdapterEvent
  | ⟨.connect serviceName, outcome, _⟩ => some (.connect serviceName outcome)
  | ⟨.subscribe topics group, outcome, _⟩ => some (.subscribe topics group outcome)
  | ⟨.unsubscribe subscriptions, outcomes, _⟩ => some (.unsubscribe subscriptions outcomes)
  | ⟨.disconnect, outcome, _⟩ => some (.disconnect outcome)
  | ⟨.publish eventType payload publishOptions, outcome, _⟩ =>
    some (.publish eventType payload publishOptions outcome)
  | ⟨.startPromise, _, _⟩ | ⟨.stopPromise, _, _⟩ | ⟨.race _ _, _, _⟩ | ⟨.settled _, _, _⟩ => none

/-- What the adapter sees of a run, with the outcomes of its operations. -/
def adapterEvents (trace : BusTrace) : List AdapterEvent := trace.filterMap adapterEvent

/-- What the `try` block of `start` comes to, from the outcomes of the adapter alone. -/
inductive Tries (options : EventBusOptions) : List AdapterEvent → Except String Mode → Prop where
  | connectFails {error} :
      Tries options [.connect options.derivedName (.error error)] (.error error)
  | prepareFails {error} (h : options.routes.prepare = .error error) :
      Tries options [.connect options.derivedName (.ok ())] (.error error)
  | startsIdle {publishTopicMap topics} (h : options.routes.prepare = .ok (publishTopicMap, topics))
      (hroutes : options.routes.entries = []) :
      Tries options [.connect options.derivedName (.ok ())]
        (.ok (.started publishTopicMap []))
  | subscribeFails {publishTopicMap topics error}
      (h : options.routes.prepare = .ok (publishTopicMap, topics))
      (hroutes : options.routes.entries ≠ []) :
      Tries options [.connect options.derivedName (.ok ()),
        .subscribe (options.routes.entries.map Prod.snd) options.group (.error error)]
        (.error error)
  | subscribes {publishTopicMap topics sub}
      (h : options.routes.prepare = .ok (publishTopicMap, topics))
      (hroutes : options.routes.entries ≠ []) :
      Tries options [.connect options.derivedName (.ok ()),
        .subscribe (options.routes.entries.map Prod.snd) options.group (.ok sub)]
        (.ok (.started publishTopicMap [sub]))

/-- The two-state machine: a call, what the adapter sees of it, and how it ends. -/
inductive Moves (options : EventBusOptions) :
    Mode → Call → List AdapterEvent → Except String Unit → Mode → Prop where
  | starts {signal events mode} (h : Tries options events (.ok mode)) :
      Moves options .stopped (.start signal) events (.ok ()) mode
  | rollsBack {signal events error outcomes disconnected}
      (h : Tries options events (.error error)) :
      Moves options .stopped (.start signal)
        (events ++ [.unsubscribe [] outcomes, .disconnect disconnected])
        (disconnected.bind fun _ => .error error) .stopped
  | startedAlready {signal publishTopicMap subscriptions} :
      Moves options (.started publishTopicMap subscriptions) (.start signal) []
        (.error "EventBus already started or stopping") (.started publishTopicMap subscriptions)
  | stopsIdle : Moves options .stopped .stop [] (.ok ()) .stopped
  | stops {publishTopicMap subscriptions outcomes disconnected} :
      Moves options (.started publishTopicMap subscriptions) .stop
        [.unsubscribe subscriptions outcomes, .disconnect disconnected] disconnected .stopped
  | publishes {publishTopicMap subscriptions typeName payload publishOptions topic outcome}
      (htopic : topic = (publishOptions.topic.or (publishTopicMap.lookup typeName)).getD typeName) :
      Moves options (.started publishTopicMap subscriptions)
        (.publish typeName payload publishOptions)
        [.publish topic payload publishOptions outcome] outcome
        (.started publishTopicMap subscriptions)
  | notStarted {typeName payload publishOptions} :
      Moves options .stopped (.publish typeName payload publishOptions) []
        (.error "EventBus not started. Call start() first.") .stopped

/-- The variables between two calls. -/
structure Rests (options : EventBusOptions) (mode : Mode) (s : EventBus) : Prop where
  starting : s.starting = false
  stopping : s.stopping = false
  startPromise : s.startPromise = false
  stopPromise : s.stopPromise = false
  draining : s.draining = false
  drainAborted : s.drainAborted = false
  mode : mode = if s.started then .started s.publishTopicMap s.subscriptions else .stopped
  subscriptions : s.started = false → s.subscriptions = []
  prepared : s.started = true → ∃ topics, options.routes.prepare = .ok (s.publishTopicMap, topics) ∧
    s.subscriptions.length = if options.routes.entries = [] then 0 else 1

/-- While a call waits, handlers come and go and the clock moves; the rest belongs to the call. -/
def Elapsed (s u : EventBus) : Prop := ∃ inFlight now, u = { s with inFlight, now }

theorem Elapsed.refl (s : EventBus) : Elapsed s s := ⟨s.inFlight, s.now, rfl⟩

abbrev Waits (q : Query) (_ : q.Answer) : EventBus → EventBus → Prop := Elapsed

variable {options : EventBusOptions} {s t u : EventBus} {trace : BusTrace} {mode : Mode}

theorem Rests.elapsed (h : Rests options mode s) (hu : Elapsed s u) : Rests options mode u := by
  obtain ⟨inFlight, now, rfl⟩ := hu
  exact ⟨h.starting, h.stopping, h.startPromise, h.stopPromise, h.draining, h.drainAborted, h.mode,
    h.subscriptions, h.prepared⟩

theorem adapterEvents_append (first rest : BusTrace) :
    adapterEvents (first ++ rest) = adapterEvents first ++ adapterEvents rest :=
  List.filterMap_append

theorem foldlM_setPublishTopic (entries publishTopicMap : List (String × String)) :
    entries.foldlM setPublishTopic publishTopicMap =
      (setPublishTopics publishTopicMap entries).2.map
        fun _ => (setPublishTopics publishTopicMap entries).1 := by
  induction entries generalizing publishTopicMap with
  | nil => rfl
  | cons entry entries ih =>
    rw [List.foldlM_cons, setPublishTopics]
    cases setPublishTopic publishTopicMap entry with
    | error e => rfl
    | ok publishTopicMap => exact ih publishTopicMap

theorem topics_of_registerTopic {topics registered l : List String}
    (h : l.foldlM registerTopic registered = .ok topics) : topics = registered ++ l := by
  have hturn : ∀ (done topics : List String) (topic : String) (topics' : List String),
      topics = registered ++ done → registerTopic topics topic = .ok topics' →
        topics' = registered ++ (done ++ [topic]) := by
    intro done topics topic topics' hdone hregister
    rw [registerTopic] at hregister
    split at hregister
    · cases hregister
    · rw [← Except.ok.inj hregister, hdone, List.append_assoc]
  have hall := Loop.foldlM_history hturn (List.append_nil registered).symm h
  rwa [List.nil_append] at hall

/-- After the connection, `start` writes the topic map and goes on as `prepare` says. -/
theorem tryStart_eq (options : EventBusOptions) :
    ∃ publishTopicMap, (∀ p, options.routes.prepare = .ok p →
        p = (publishTopicMap, options.routes.entries.map Prod.snd)) ∧
      tryStart options = .await (.connect options.derivedName) fun
        | .error error => .done (.error error)
        | .ok _ => .sync (fun s => { s with publishTopicMap }) fun _ =>
          match options.routes.prepare with
          | .error error => .done (.error error)
          | .ok (_, allTopics) => subscribeTopics options allTopics := by
  have hfold : options.routes.prepare =
      (options.routes.entries ++ options.routes.publishes).foldlM setPublishTopic [] >>=
        fun publishTopicMap => (options.routes.entries.map Prod.snd).foldlM registerTopic [] >>=
          fun topics => .ok (publishTopicMap, topics) := by
    rw [List.foldlM_append, bind_assoc]
    rfl
  rw [hfold, foldlM_setPublishTopic, tryStart]
  obtain ⟨publishTopicMap, result⟩ :=
    setPublishTopics [] (options.routes.entries ++ options.routes.publishes)
  refine ⟨publishTopicMap, ?_⟩
  cases result with
  | error e => exact ⟨fun p hp => (by cases hp), rfl⟩
  | ok _ =>
    cases htopics : (options.routes.entries.map Prod.snd).foldlM registerTopic [] with
    | error e => exact ⟨fun p hp => (by cases hp), rfl⟩
    | ok topics =>
      obtain rfl := topics_of_registerTopic htopics
      exact ⟨fun p hp => (Except.ok.inj hp).symm, rfl⟩

theorem subscribeTopics_eq (options : EventBusOptions) (hroutes : options.routes.entries ≠ []) :
    subscribeTopics options (options.routes.entries.map Prod.snd) =
      .await (.subscribe (options.routes.entries.map Prod.snd) options.group) subscribed := by
  cases h : options.routes.entries with
  | nil => exact absurd h hroutes
  | cons entry entries => rfl

/-- The `try` block leaves the variables that only `finally` blocks write alone. -/
theorem tryStart_spec {r : Except String Unit} (h : ExecIn Waits (tryStart options) s trace t r)
    (hs : s.subscriptions = []) :
    (∃ error publishTopicMap inFlight now, Tries options (adapterEvents trace) (.error error) ∧
      r = .error error ∧ t = { s with publishTopicMap, inFlight, now }) ∨
    ∃ publishTopicMap subscriptions inFlight now topics,
      Tries options (adapterEvents trace) (.ok (.started publishTopicMap subscriptions)) ∧
      r = .ok () ∧ options.routes.prepare = .ok (publishTopicMap, topics) ∧
      subscriptions.length = (if options.routes.entries = [] then 0 else 1) ∧
      t = { s with started := true, publishTopicMap, subscriptions, inFlight, now } := by
  obtain ⟨map, hmap, heq⟩ := tryStart_eq options
  rw [heq] at h
  obtain ⟨connected, u, trace, rfl, ⟨inFlight, now, rfl⟩, h⟩ := execIn_await_iff.mp h
  cases connected with
  | error e =>
    obtain ⟨rfl, rfl, rfl⟩ := execIn_done_iff.mp h
    exact .inl ⟨e, s.publishTopicMap, inFlight, now, .connectFails, rfl, rfl⟩
  | ok _ =>
    have h := execIn_sync_iff.mp h
    cases hprepare : options.routes.prepare with
    | error e =>
      rw [hprepare] at h
      obtain ⟨rfl, rfl, rfl⟩ := execIn_done_iff.mp h
      exact .inl ⟨e, map, inFlight, now, .prepareFails hprepare, rfl, rfl⟩
    | ok p =>
      obtain rfl := hmap p hprepare
      rw [hprepare] at h
      dsimp only at h
      by_cases hroutes : options.routes.entries = []
      · rw [hroutes] at h
        obtain ⟨rfl, rfl, rfl⟩ := execIn_sync_done_iff.mp h
        exact .inr ⟨map, [], inFlight, now, _, .startsIdle hprepare hroutes, rfl, rfl,
          (if_pos hroutes).symm, by simp [hs]⟩
      · rw [subscribeTopics_eq options hroutes] at h
        obtain ⟨subscribed, u, trace, rfl, ⟨inFlight, now, rfl⟩, h⟩ := execIn_await_iff.mp h
        cases subscribed with
        | error e =>
          obtain ⟨rfl, rfl, rfl⟩ := execIn_done_iff.mp h
          exact .inl ⟨e, map, inFlight, now, .subscribeFails hprepare hroutes, rfl, rfl⟩
        | ok sub =>
          obtain ⟨rfl, rfl, rfl⟩ := execIn_sync_done_iff.mp h
          exact .inr ⟨map, [sub], inFlight, now, _, .subscribes hprepare hroutes, rfl, rfl,
            (if_neg hroutes).symm, by simp [hs]⟩

theorem rollback_spec {error : String} {r : Except String Unit}
    (h : ExecIn Waits (rollback error) s trace t r) (hs : s.subscriptions = []) :
    ∃ outcomes disconnected inFlight now,
      adapterEvents trace = [.unsubscribe [] outcomes, .disconnect disconnected] ∧
      r = (disconnected.bind fun _ => .error error) ∧
      t = { s with subscriptions := [], inFlight, now } := by
  obtain ⟨outcomes, u, trace, rfl, ⟨inFlight, now, rfl⟩, h⟩ :=
    execIn_await_iff.mp (execIn_sync_iff.mp h)
  obtain ⟨disconnected, u, trace, rfl, ⟨inFlight, now, rfl⟩, h⟩ :=
    execIn_await_iff.mp (execIn_sync_iff.mp h)
  obtain ⟨rfl, rfl, rfl⟩ := execIn_done_iff.mp h
  exact ⟨outcomes, disconnected, inFlight, now, hs ▸ rfl, rfl, rfl⟩

theorem Rests.start {signal : Option ℕ} {r : Except String Unit} (hs : Rests options mode s)
    (h : ExecIn Waits (start options signal) s trace t r) :
    ∃ mode', Moves options mode (.start signal) (adapterEvents trace) r mode' ∧
      Rests options mode' t := by
  have h := execIn_sync_iff.mp h
  have hmode := hs.mode
  cases hstarted : s.started with
  | true =>
    rw [hstarted, Bool.true_or, Bool.true_or, if_pos rfl] at h
    obtain ⟨rfl, rfl, rfl⟩ := execIn_done_iff.mp h
    rw [hstarted, if_pos rfl] at hmode
    subst hmode
    exact ⟨_, .startedAlready, hs⟩
  | false =>
    rw [hstarted, hs.starting, hs.stopping, Bool.or_self, Bool.or_self,
      if_neg Bool.false_ne_true] at h
    rw [hstarted, if_neg Bool.false_ne_true] at hmode
    subst hmode
    have hnone := hs.subscriptions hstarted
    obtain ⟨first, u, result, last, hattempt, hfinish, rfl⟩ :=
      execIn_bind_iff.mp (execIn_sync_iff.mp h)
    obtain ⟨rfl, rfl, rfl⟩ := execIn_sync_done_iff.mp hfinish
    obtain ⟨first, u, result, last, htry, hcatch, rfl⟩ := execIn_bind_iff.mp hattempt
    rw [List.append_nil, adapterEvents_append]
    obtain ⟨e, map, inFlight, now, htries, rfl, rfl⟩ |
      ⟨map, subscriptions, inFlight, now, topics, htries, rfl, hprepare, hlength, rfl⟩ :=
      tryStart_spec htry hnone
    · obtain ⟨outcomes, disconnected, inFlight, now, hevents, rfl, rfl⟩ :=
        rollback_spec hcatch hnone
      rw [hevents]
      refine ⟨_, .rollsBack htries, ?_⟩
      constructor <;> simp [finishStart, hs.stopping, hs.stopPromise, hs.draining, hs.drainAborted,
        hstarted]
    · obtain ⟨rfl, rfl, rfl⟩ := execIn_done_iff.mp hcatch
      rw [show adapterEvents [] = [] from rfl, List.append_nil]
      refine ⟨_, .starts htries, ?_⟩
      constructor <;> simp [finishStart, hs.stopping, hs.stopPromise, hs.draining, hs.drainAborted,
        hprepare, hlength]

theorem drainLoop_spec {deadline : ℤ} {rounds : ℕ} {ended : Bool}
    (h : ExecIn Waits (drainLoop deadline rounds) s trace t ended) :
    adapterEvents trace = [] ∧ Elapsed s t := by
  induction rounds generalizing s trace with
  | zero =>
    obtain ⟨-, rfl, rfl⟩ := execIn_sync_done_iff.mp h
    exact ⟨rfl, .refl t⟩
  | succ rounds ih =>
    have h := execIn_sync_iff.mp h
    split at h
    · obtain ⟨-, rfl, rfl⟩ := execIn_done_iff.mp h
      exact ⟨rfl, .refl t⟩
    · obtain ⟨⟨⟩, u, trace, rfl, ⟨inFlight, now, rfl⟩, h⟩ := execIn_await_iff.mp h
      obtain ⟨hevents, inFlight, now, rfl⟩ := ih h
      exact ⟨hevents, inFlight, now, rfl⟩

theorem drain_spec {rounds : ℕ} {ended : Bool}
    (h : ExecIn Waits (drain options rounds) s trace t ended) :
    adapterEvents trace = [] ∧ Elapsed s t := by
  have h := execIn_sync_iff.mp h
  split at h
  · exact drainLoop_spec h
  · obtain ⟨-, rfl, rfl⟩ := execIn_done_iff.mp h
    exact ⟨rfl, .refl t⟩

theorem abortAndDisconnect_spec {r : Except String Unit}
    (h : ExecIn Waits abortAndDisconnect s trace t r) :
    adapterEvents trace = [.disconnect r] ∧
      ∃ drainAborted inFlight now, t = { s with drainAborted, inFlight, now } := by
  obtain ⟨first, u, ⟨⟩, last, habort, hdisconnect, rfl⟩ := execIn_bind_iff.mp h
  obtain ⟨disconnected, v, last, rfl, ⟨inFlight, now, rfl⟩, h⟩ :=
    execIn_await_iff.mp (execIn_sync_iff.mp hdisconnect)
  obtain ⟨rfl, rfl, rfl⟩ := execIn_done_iff.mp h
  have habort := execIn_sync_iff.mp habort
  split at habort
  · obtain ⟨⟨⟩, v, first, rfl, ⟨inFlight, now, rfl⟩, h⟩ :=
      execIn_await_iff.mp (execIn_sync_iff.mp habort)
    obtain ⟨-, rfl, rfl⟩ := execIn_done_iff.mp h
    exact ⟨rfl, true, _, _, rfl⟩
  · obtain ⟨-, rfl, rfl⟩ := execIn_done_iff.mp habort
    exact ⟨rfl, _, _, _, rfl⟩

theorem stopStarted_spec {rounds : ℕ} {r : Except String Unit}
    (h : ExecIn Waits (stopStarted options rounds) s trace t (some r)) :
    (∃ outcomes, adapterEvents trace = [.unsubscribe s.subscriptions outcomes, .disconnect r]) ∧
      ∃ inFlight now, t = finishStop { s with subscriptions := [], inFlight, now } := by
  obtain ⟨outcomes, u, trace, rfl, ⟨inFlight, now, rfl⟩, h⟩ :=
    execIn_await_iff.mp (execIn_sync_iff.mp h)
  obtain ⟨first, u, ended, last, hdrain, h, rfl⟩ := execIn_bind_iff.mp (execIn_sync_iff.mp h)
  obtain ⟨hfirst, inFlight, now, rfl⟩ := drain_spec hdrain
  cases ended with
  | false => exact absurd (execIn_done_iff.mp h).1 (by simp)
  | true =>
    obtain ⟨second, u, result, last, habort, hfinish, rfl⟩ := execIn_bind_iff.mp h
    obtain ⟨hr, rfl, rfl⟩ := execIn_sync_done_iff.mp hfinish
    obtain rfl := Option.some.inj hr
    obtain ⟨hsecond, aborted, inFlight, now, rfl⟩ := abortAndDisconnect_spec habort
    refine ⟨⟨outcomes, ?_⟩, inFlight, now, rfl⟩
    change .unsubscribe s.subscriptions outcomes :: adapterEvents (first ++ (second ++ [])) = _
    rw [adapterEvents_append, adapterEvents_append, hfirst, hsecond]
    rfl

theorem Rests.stop {rounds : ℕ} {r : Except String Unit} (hs : Rests options mode s)
    (h : ExecIn Waits (stop options rounds) s trace t (some r)) :
    ∃ mode', Moves options mode .stop (adapterEvents trace) r mode' ∧ Rests options mode' t := by
  have h := execIn_sync_iff.mp h
  have hmode := hs.mode
  rw [hs.stopPromise, if_neg Bool.false_ne_true] at h
  obtain ⟨first, u, ⟨⟩, last, hawait, hgo, rfl⟩ := execIn_bind_iff.mp h
  have hawait := execIn_sync_iff.mp hawait
  rw [id_eq, hs.starting, Bool.false_and, if_neg Bool.false_ne_true] at hawait
  obtain ⟨-, rfl, rfl⟩ := execIn_done_iff.mp hawait
  have hgo := execIn_sync_iff.mp hgo
  rw [List.nil_append]
  cases hstarted : u.started with
  | true =>
    rw [id_eq, hstarted, if_pos rfl] at hgo
    obtain ⟨⟨outcomes, hevents⟩, inFlight, now, rfl⟩ := stopStarted_spec hgo
    rw [hstarted, if_pos rfl] at hmode
    subst hmode
    rw [hevents]
    refine ⟨_, .stops, ?_⟩
    constructor <;> simp [finishStop, hs.starting, hs.startPromise]
  | false =>
    rw [id_eq, hstarted, if_neg Bool.false_ne_true] at hgo
    obtain ⟨hr, rfl, rfl⟩ := execIn_done_iff.mp hgo
    obtain rfl := Option.some.inj hr
    rw [hstarted, if_neg Bool.false_ne_true] at hmode
    subst hmode
    exact ⟨_, .stopsIdle, hs⟩

theorem Rests.publish {typeName : String} {payload : List UInt8} {publishOptions : PublishOptions}
    {r : Except String Unit} (hs : Rests options mode s)
    (hresolves : options.strictTopics = true → publishOptions.topic = none →
      ∀ publishTopicMap topics, options.routes.prepare = .ok (publishTopicMap, topics) →
        publishTopicMap.lookup typeName ≠ none)
    (h : ExecIn Waits (publish options typeName payload publishOptions) s trace t r) :
    ∃ mode', Moves options mode (.publish typeName payload publishOptions) (adapterEvents trace) r
      mode' ∧ Rests options mode' t := by
  have h := execIn_sync_iff.mp h
  have hmode := hs.mode
  cases hstarted : s.started with
  | false =>
    rw [hstarted, Bool.not_false, Bool.true_or, if_pos rfl] at h
    obtain ⟨rfl, rfl, rfl⟩ := execIn_done_iff.mp h
    rw [hstarted, if_neg Bool.false_ne_true] at hmode
    subst hmode
    exact ⟨_, .notStarted, hs⟩
  | true =>
    rw [hstarted, hs.stopping, Bool.not_true, Bool.or_self, if_neg Bool.false_ne_true] at h
    rw [hstarted, if_pos rfl] at hmode
    obtain ⟨topics, hprepare, -⟩ := hs.prepared hstarted
    have hdeclared : ¬ (options.strictTopics &&
        publishOptions.topic.or (s.publishTopicMap.lookup typeName) = none) = true := by
      intro hstrict
      obtain ⟨hstrict, hnone⟩ := Bool.and_eq_true_iff.mp hstrict
      obtain ⟨htopic, hlookup⟩ := Option.or_eq_none_iff.mp (of_decide_eq_true hnone)
      exact hresolves hstrict htopic _ _ hprepare hlookup
    dsimp only at h
    rw [if_neg hdeclared] at h
    obtain ⟨outcome, u, trace, rfl, helapsed, h⟩ := execIn_await_iff.mp h
    obtain ⟨rfl, rfl, rfl⟩ := execIn_done_iff.mp h
    subst hmode
    exact ⟨_, .publishes rfl, hs.elapsed helapsed⟩

/-- Handlers that are in flight when a race of the drain loop ends. -/
def unsettledRaces (trace : BusTrace) : ℕ :=
  trace.countP fun x => match x.query with
    | .race _ _ => x.state.inFlight ≠ []
    | _ => false

theorem unsettled_of_drainLoop {deadline : ℤ} {rounds : ℕ}
    (h : ExecIn Waits (drainLoop deadline rounds) s trace t false) :
    unsettledRaces trace = rounds ∧ s.inFlight ≠ [] := by
  induction rounds generalizing s trace with
  | zero =>
    obtain ⟨hended, rfl, -⟩ := execIn_sync_done_iff.mp h
    refine ⟨rfl, fun hs => ?_⟩
    simp [hs] at hended
  | succ rounds ih =>
    have h := execIn_sync_iff.mp h
    split at h
    · exact absurd (execIn_done_iff.mp h).1 (by simp)
    next hgo =>
      obtain ⟨⟨⟩, u, trace, rfl, -, h⟩ := execIn_await_iff.mp h
      obtain ⟨hraces, hu⟩ := ih h
      refine ⟨?_, fun hs => hgo (by simp [hs])⟩
      rw [unsettledRaces, List.countP_cons_of_pos (by simpa using hu)]
      exact congrArg (· + 1) hraces

/-- A call that does not end finds a handler in flight after each race of its drain loop. -/
theorem unsettled_of_program {call : Call} {rounds : ℕ} (hs : s.stopPromise = false)
    (h : ExecIn Waits (program options rounds call) s trace t none) :
    rounds ≤ unsettledRaces trace := by
  cases call with
  | start signal =>
    obtain ⟨first, u, r, last, -, h, -⟩ := execIn_bind_iff.mp h
    exact absurd (execIn_done_iff.mp h).1 (by simp)
  | publish typeName payload publishOptions =>
    obtain ⟨first, u, r, last, -, h, -⟩ := execIn_bind_iff.mp h
    exact absurd (execIn_done_iff.mp h).1 (by simp)
  | stop =>
    have h := execIn_sync_iff.mp h
    rw [hs, if_neg Bool.false_ne_true] at h
    obtain ⟨first, u, ⟨⟩, last, -, hgo, rfl⟩ := execIn_bind_iff.mp h
    have hgo := execIn_sync_iff.mp hgo
    split at hgo
    · obtain ⟨outcomes, v, last, rfl, -, hgo⟩ := execIn_await_iff.mp (execIn_sync_iff.mp hgo)
      obtain ⟨second, w, ended, last, hdrain, hafter, rfl⟩ :=
        execIn_bind_iff.mp (execIn_sync_iff.mp hgo)
      cases ended with
      | true =>
        obtain ⟨third, w, r, last, -, hfinish, -⟩ := execIn_bind_iff.mp hafter
        exact absurd (execIn_sync_done_iff.mp hfinish).1 (by simp)
      | false =>
        have hdrain := execIn_sync_iff.mp hdrain
        split at hdrain
        · have hraces := (unsettled_of_drainLoop hdrain).1
          simp only [unsettledRaces, List.countP_append, List.countP_cons] at hraces ⊢
          omega
        · exact absurd (execIn_done_iff.mp hdrain).1 (by simp)
    · exact absurd (execIn_done_iff.mp hgo).1 (by simp)

/-- The adapter can have each outcome, whatever the variables are. -/
theorem exec_tryStart {events : List AdapterEvent} {result : Except String Mode}
    (h : Tries options events result) (s : EventBus) :
    ∃ trace t, ExecIn Waits (tryStart options) s trace t (result.map fun _ => ()) ∧
      adapterEvents trace = events := by
  obtain ⟨map, hmap, heq⟩ := tryStart_eq options
  rw [heq]
  cases h with
  | @connectFails e =>
    exact ⟨[⟨.connect options.derivedName, .error e, s⟩], s,
      execIn_await_iff.mpr ⟨.error e, s, [], rfl, .refl s, .done⟩, rfl⟩
  | @prepareFails e h =>
    rw [h]
    exact ⟨[⟨.connect options.derivedName, .ok (), s⟩], { s with publishTopicMap := map },
      execIn_await_iff.mpr ⟨.ok (), s, [], rfl, .refl s, .sync .done⟩, rfl⟩
  | startsIdle h hroutes =>
    have hp := hmap _ h
    rw [h, hp, hroutes]
    exact ⟨[⟨.connect options.derivedName, .ok (), s⟩],
      { s with publishTopicMap := map, started := true },
      execIn_await_iff.mpr ⟨.ok (), s, [], rfl, .refl s, .sync (.sync .done)⟩, rfl⟩
  | @subscribeFails _ _ e h hroutes =>
    have hp := hmap _ h
    rw [h, hp]
    dsimp only
    rw [subscribeTopics_eq options hroutes]
    exact ⟨[⟨.connect options.derivedName, .ok (), s⟩,
      ⟨.subscribe (options.routes.entries.map Prod.snd) options.group, .error e,
        { s with publishTopicMap := map }⟩], { s with publishTopicMap := map },
      execIn_await_iff.mpr ⟨.ok (), s, _, rfl, .refl s, .sync
        (execIn_await_iff.mpr ⟨.error e, _, [], rfl, .refl _, .done⟩)⟩, rfl⟩
  | @subscribes _ _ sub h hroutes =>
    have hp := hmap _ h
    rw [h, hp]
    dsimp only
    rw [subscribeTopics_eq options hroutes]
    exact ⟨[⟨.connect options.derivedName, .ok (), s⟩,
      ⟨.subscribe (options.routes.entries.map Prod.snd) options.group, .ok sub,
        { s with publishTopicMap := map }⟩],
      { s with
        publishTopicMap := map
        subscriptions := s.subscriptions ++ [sub]
        started := true },
      execIn_await_iff.mpr ⟨.ok (), s, _, rfl, .refl s, .sync
        (execIn_await_iff.mpr ⟨.ok sub, _, [], rfl, .refl _, .sync .done⟩)⟩, rfl⟩

/-- A `start` of a stopped bus can do what the machine allows, whatever happened before. -/
theorem Rests.exec_start {signal : Option ℕ} {events : List AdapterEvent}
    {r : Except String Unit} (hs : Rests options .stopped s)
    (h : Moves options .stopped (.start signal) events r mode) :
    ∃ trace t, ExecIn Waits (program options 0 (.start signal)) s trace t (some r) ∧
      adapterEvents trace = events := by
  have hstarted : s.started = false := by
    have hmode := hs.mode
    cases hstarted : s.started with
    | false => rfl
    | true => simp [hstarted] at hmode
  have hnone := hs.subscriptions hstarted
  suffices h : ∃ trace t, ExecIn Waits (attemptStart options)
      { s with starting := true, shutdownSignal := signal.or options.signal, startPromise := true }
      trace t r ∧ adapterEvents trace = events by
    obtain ⟨trace, t, h, hevents⟩ := h
    refine ⟨trace, finishStart t, execIn_bind_iff.mpr ⟨trace, finishStart t, r, [], ?_, .done,
      (List.append_nil _).symm⟩, hevents⟩
    refine .sync ?_
    rw [hstarted, hs.starting, hs.stopping, Bool.or_self, Bool.or_self, if_neg Bool.false_ne_true]
    refine .sync (execIn_bind_iff.mpr ⟨trace, t, r, [], h, .sync .done, (List.append_nil _).symm⟩)
  cases h with
  | starts h =>
    obtain ⟨trace, t, h, hevents⟩ := exec_tryStart h
      { s with starting := true, shutdownSignal := signal.or options.signal, startPromise := true }
    exact ⟨trace, t, execIn_bind_iff.mpr ⟨trace, t, _, [], h, .done, (List.append_nil _).symm⟩,
      hevents⟩
  | @rollsBack _ events error outcomes disconnected h =>
    obtain ⟨trace, t, h, hevents⟩ := exec_tryStart h
      { s with starting := true, shutdownSignal := signal.or options.signal, startPromise := true }
    have ht : t.subscriptions = [] := by
      obtain ⟨_, map, inFlight, now, -, -, rfl⟩ | ⟨_, _, _, _, _, -, hr, -⟩ := tryStart_spec h hnone
      · exact hnone
      · cases hr
    refine ⟨trace ++ [⟨.unsubscribe [], outcomes, t⟩,
      ⟨.disconnect, disconnected, { t with subscriptions := [] }⟩], { t with subscriptions := [] },
      execIn_bind_iff.mpr ⟨trace, t, _, _, h, .sync ?_, rfl⟩, ?_⟩
    · rw [id_eq, ht]
      exact execIn_await_iff.mpr ⟨outcomes, t, _, rfl, .refl t, .sync
        (execIn_await_iff.mpr ⟨disconnected, _, [], rfl, .refl _, .done⟩)⟩
    · rw [adapterEvents_append, hevents]
      rfl

/-- A call that has settled. -/
structure Settled where
  call : Call
  events : List AdapterEvent
  result : Except String Unit

/-- Calls one after another; handlers come and go between them. -/
inductive History (options : EventBusOptions) : EventBus → List Settled → EventBus → Prop where
  | nil {s₀ s₁} (helapsed : Elapsed s₀ s₁) : History options s₀ [] s₁
  | call {s₀ s₁ s₂ s₃ call rounds events result log} (helapsed : Elapsed s₀ s₁)
      (h : ExecIn Waits (program options rounds call) s₁ events s₂ (some result))
      (hrest : History options s₂ log s₃) :
      History options s₀ (⟨call, adapterEvents events, result⟩ :: log) s₃

inductive Runs (options : EventBusOptions) : Mode → List Settled → Mode → Prop where
  | nil {m} : Runs options m [] m
  | call {m m' m'' e log} (h : Moves options m e.call e.events e.result m')
      (hrest : Runs options m' log m'') : Runs options m (e :: log) m''

/-- The topic of a publish resolves with the topics that a `start` has found. -/
def Resolves (options : EventBusOptions) : Call → Prop
  | .publish typeName _ publishOptions =>
    options.strictTopics = true → publishOptions.topic = none →
      ∀ publishTopicMap topics, options.routes.prepare = .ok (publishTopicMap, topics) →
        publishTopicMap.lookup typeName ≠ none
  | .start _ | .stop => True

theorem Rests.call {call : Call} {rounds : ℕ} {r : Except String Unit} (hs : Rests options mode s)
    (hresolves : Resolves options call)
    (h : ExecIn Waits (program options rounds call) s trace t (some r)) :
    ∃ mode', Moves options mode call (adapterEvents trace) r mode' ∧ Rests options mode' t := by
  cases call with
  | start signal =>
    obtain ⟨first, u, result, last, h, hdone, rfl⟩ := execIn_bind_iff.mp h
    obtain ⟨hr, rfl, rfl⟩ := execIn_done_iff.mp hdone
    obtain rfl := Option.some.inj hr
    rw [List.append_nil]
    exact hs.start h
  | stop => exact hs.stop h
  | publish typeName payload publishOptions =>
    obtain ⟨first, u, result, last, h, hdone, rfl⟩ := execIn_bind_iff.mp h
    obtain ⟨hr, rfl, rfl⟩ := execIn_done_iff.mp hdone
    obtain rfl := Option.some.inj hr
    rw [List.append_nil]
    exact hs.publish hresolves h

theorem Rests.history {log : List Settled} (hs : Rests options mode s)
    (h : History options s log t) (hresolves : ∀ e ∈ log, Resolves options e.call) :
    ∃ mode', Runs options mode log mode' ∧ Rests options mode' t := by
  induction h generalizing mode with
  | nil helapsed => exact ⟨mode, .nil, hs.elapsed helapsed⟩
  | call helapsed h _ ih =>
    obtain ⟨hcall, hlog⟩ := List.forall_mem_cons.mp hresolves
    obtain ⟨mode', hmoves, hrests⟩ := (hs.elapsed helapsed).call hcall h
    obtain ⟨mode'', hruns, hrests⟩ := ih hrests hlog
    exact ⟨mode'', .call hmoves hruns, hrests⟩

theorem rests_initial (options : EventBusOptions) : Rests options .stopped {} := by
  constructor <;> simp

/-- Calls one after another take the bus through the two modes. What a `start` can do depends on the
mode alone, and a call that does not end has handlers that do not settle. -/
theorem history_two_modes {log : List Settled} (h : History options {} log s)
    (hresolves : ∀ e ∈ log, Resolves options e.call) :
    ∃ mode, Runs options .stopped log mode ∧ Rests options mode s ∧
      (mode = .stopped → ∀ signal events r mode',
        Moves options .stopped (.start signal) events r mode' →
        ∃ trace t, ExecIn Waits (program options 0 (.start signal)) s trace t (some r) ∧
          adapterEvents trace = events) ∧
      ∀ call rounds trace t, ExecIn Waits (program options rounds call) s trace t none →
        rounds ≤ unsettledRaces trace := by
  obtain ⟨mode, hruns, hrests⟩ := (rests_initial options).history h hresolves
  refine ⟨mode, hruns, hrests, ?_, fun call rounds trace t h =>
    unsettled_of_program hrests.stopPromise h⟩
  rintro rfl signal events r mode' hmoves
  exact hrests.exec_start hmoves

def userOptions : EventBusOptions :=
  { routes := ⟨[("user.v1.UserCreated", "user.created")], []⟩
    serviceNames := ["user.v1.UserEventService"] }

/-- An adapter whose operations succeed, but for `subscribe`. -/
def respondSubscribe (outcome : Except String ℕ) : (q : Query) → EventBus → q.Answer × EventBus
  | .connect _, s => (.ok (), s)
  | .subscribe _ _, s => (outcome, s)
  | .unsubscribe _, s => ([], s)
  | .disconnect, s => (.ok (), s)
  | .publish _ _ _, s => (.ok (), s)
  | .startPromise, s => (.ok (), s)
  | .stopPromise, s => (.ok (), s)
  | .race _ _, s => ((), s)
  | .settled _, s => ((), s)

theorem waits_respondSubscribe (outcome : Except String ℕ) (q : Query) (s : EventBus) :
    Waits q (respondSubscribe outcome q s).1 s (respondSubscribe outcome q s).2 := by
  cases q <;> exact .refl s

/-- A `start` that fails to subscribe, and the next one. -/
theorem history_retry :
    History userOptions {}
      [⟨.start none, [.connect (some "user.v1@localhost") (.ok ()),
          .subscribe ["user.created"] none (.error "subscribe failed"), .unsubscribe [] [],
          .disconnect (.ok ())], .error "subscribe failed"⟩,
        ⟨.start none, [.connect (some "user.v1@localhost") (.ok ()),
          .subscribe ["user.created"] none (.ok 1)], .ok ()⟩]
      { started := true
        subscriptions := [1]
        publishTopicMap := [("user.v1.UserCreated", "user.created")] } :=
  .call (.refl _)
    (execIn_runIn (waits_respondSubscribe (.error "subscribe failed"))
      (program userOptions 0 (.start none)) {})
    (.call (.refl _)
      (execIn_runIn (waits_respondSubscribe (.ok 1)) (program userOptions 0 (.start none))
        { publishTopicMap := [("user.v1.UserCreated", "user.created")] })
      (.nil (.refl _)))

theorem history_two_modes_retry :
    ∃ mode, Runs userOptions .stopped
      [⟨.start none, [.connect (some "user.v1@localhost") (.ok ()),
          .subscribe ["user.created"] none (.error "subscribe failed"), .unsubscribe [] [],
          .disconnect (.ok ())], .error "subscribe failed"⟩,
        ⟨.start none, [.connect (some "user.v1@localhost") (.ok ()),
          .subscribe ["user.created"] none (.ok 1)], .ok ()⟩] mode := by
  obtain ⟨mode, hruns, -⟩ := history_two_modes history_retry (by simp [Resolves])
  exact ⟨mode, hruns⟩

end Connectum.Events.EventBus
