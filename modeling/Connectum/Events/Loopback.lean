import Connectum.JsMap
import Connectum.Loop
import Connectum.Events.Attempts
import Connectum.Events.BusModes
import Connectum.Events.NextGuard

/-! A message that is published on a bus, on its way back to the handlers of the same bus. -/
namespace Connectum.Events
open Async Middleware

/-- A message type: its name, and its serialization in both directions. -/
structure DescMessage (Message : Type) where
  typeName : String
  toBinary : Message → List UInt8
  fromBinary : List UInt8 → Except Failure Message

/-- A method of an event service, with the topic of its `event` option if it has the option. -/
structure DescMethod (Message : Type) where
  input : DescMessage Message
  eventTopic : Option String := none

variable {Message : Type}

def resolveTopicName (method : DescMethod Message) : String :=
  match method.eventTopic with
  | some topic => if topic ≠ "" then topic else method.input.typeName
  | none => method.input.typeName

structure EventRouteEntry (Message : Type) where
  method : DescMethod Message
  middleware : Option (List EventMiddleware) := none

def EventRouteEntry.topic (entry : EventRouteEntry Message) : String :=
  resolveTopicName entry.method

/-- The route of the `i`-th entry. Its handler is the one with the number `i`. -/
def EventRouteEntry.route (entry : EventRouteEntry Message) (i : ℕ) : Route (ℕ × Message) where
  fromBinary payload := (entry.method.input.fromBinary payload).map fun message => (i, message)
  middleware := entry.middleware

/-- A bus with the entries of its router and the methods of its publish-only services. -/
structure RoutedBus (Message : Type) where
  entries : List (EventRouteEntry Message)
  publishes : List (List (DescMethod Message)) := []
  middleware : MiddlewareConfig := {}
  serviceNames : List String := []
  hostname : String := "localhost"
  group : Option String := none
  drainTimeout : ℤ := 30000
  strictTopics : Bool := false
  signal : Option ℕ := none

namespace RoutedBus

def options (bus : RoutedBus Message) : EventBusOptions where
  routes := {
    entries := bus.entries.map fun entry => (entry.method.input.typeName, entry.topic)
    publishes := bus.publishes.flatten.map fun method =>
      (method.input.typeName, resolveTopicName method) }
  serviceNames := bus.serviceNames
  hostname := bus.hostname
  group := bus.group
  drainTimeout := bus.drainTimeout
  strictTopics := bus.strictTopics
  signal := bus.signal

def topicHandlerMap (bus : RoutedBus Message) : List (String × Route (ℕ × Message)) :=
  (bus.entries.zipIdx.map fun e => (e.1.topic, e.1.route e.2)).foldl
    (fun topicHandlerMap e => JsMap.set topicHandlerMap e.1 e.2) []

/-- The composed handler that the delivery callback calls, unless it answers the event itself. -/
def callback (bus : RoutedBus Message) (rounds : ℕ) (draining : Bool) (signal : List AbortSource)
    (rawEvent : RawEvent) : Option (Program (ℕ × Message) Outcome) :=
  match lookupHandler bus.topicHandlerMap rawEvent.eventType with
  | none => none
  | some route =>
    if draining then none else some (deliver bus.middleware rounds route rawEvent signal)

end RoutedBus

theorem lookup_setPublishTopic {map map' : List (String × String)} {entry : String × String}
    (h : setPublishTopic map entry = .ok map') :
    map'.lookup entry.1 = some entry.2 ∧
      ∀ key value, map.lookup key = some value → map'.lookup key = some value := by
  unfold setPublishTopic at h
  split at h
  next hlookup =>
    split at h
    · cases h
    next htopic =>
      obtain rfl := Except.ok.inj h
      obtain rfl := not_not.mp htopic
      exact ⟨hlookup, fun _ _ h => h⟩
  next hlookup =>
    obtain rfl := Except.ok.inj h
    constructor
    · rw [List.lookup_append, hlookup, List.lookup_cons_self]
      rfl
    · intro key value hvalue
      rw [List.lookup_append, hvalue]
      rfl

/-- Every entry has found its own topic in the end. -/
theorem lookup_of_setPublishTopic {entries map map' : List (String × String)}
    (h : entries.foldlM setPublishTopic map = .ok map') :
    (∀ entry ∈ entries, map'.lookup entry.1 = some entry.2) ∧
      ∀ key value, map.lookup key = some value → map'.lookup key = some value := by
  let P : List (String × String) → List (String × String) → Prop := fun done between =>
    (∀ entry ∈ done, between.lookup entry.1 = some entry.2) ∧
      ∀ key value, map.lookup key = some value → between.lookup key = some value
  have hturn : ∀ done between entry between', P done between →
      setPublishTopic between entry = .ok between' → P (done ++ [entry]) between' := by
    rintro done between entry between' ⟨hdone, hfrom⟩ hset
    obtain ⟨hentry, hkept⟩ := lookup_setPublishTopic hset
    constructor
    · exact List.forall_mem_append.mpr
        ⟨fun e he => hkept _ _ (hdone e he), List.forall_mem_singleton.mpr hentry⟩
    · exact fun key value hvalue => hkept key value (hfrom key value hvalue)
  have hstart : P [] map := ⟨fun entry he => absurd he List.not_mem_nil, fun _ _ h => h⟩
  exact Loop.foldlM_history hturn hstart h

theorem nodup_of_registerTopic {topics registered l : List String}
    (h : l.foldlM registerTopic registered = .ok topics) (hnodup : registered.Nodup) :
    topics.Nodup := by
  apply Loop.foldlM_invariant _ hnodup h
  intro topics topic topics' hnodup hregister
  rw [registerTopic] at hregister
  split at hregister
  · cases hregister
  next hnew =>
    obtain rfl := Except.ok.inj hregister
    refine List.nodup_append.mpr ⟨hnodup, by simp, ?_⟩
    rintro a ha b hb rfl
    exact hnew (List.mem_singleton.mp hb ▸ ha)

/-- What the checks of `start` come to. -/
theorem BusRoutes.prepare_ok {routes : BusRoutes} {publishTopicMap : List (String × String)}
    {topics : List String} (h : routes.prepare = .ok (publishTopicMap, topics)) :
    (∀ entry ∈ routes.entries, publishTopicMap.lookup entry.1 = some entry.2) ∧
      (routes.entries.map Prod.snd).Nodup := by
  unfold BusRoutes.prepare at h
  cases hroutes : routes.entries.foldlM setPublishTopic [] with
  | error error =>
    rw [hroutes] at h
    cases h
  | ok fromRoutes =>
    rw [hroutes] at h
    cases hpublishes : routes.publishes.foldlM setPublishTopic fromRoutes with
    | error error =>
      simp [hpublishes, bind, Except.bind] at h
    | ok found =>
      cases hregister : (routes.entries.map Prod.snd).foldlM registerTopic [] with
      | error error => simp [hpublishes, hregister, bind, Except.bind] at h
      | ok registered =>
        simp only [hpublishes, hregister, bind, Except.bind, pure, Except.pure, Except.ok.injEq,
          Prod.mk.injEq] at h
        obtain ⟨rfl, rfl⟩ := h
        have hkept := (lookup_of_setPublishTopic hpublishes).2
        constructor
        · exact fun entry hentry =>
            hkept _ _ ((lookup_of_setPublishTopic hroutes).1 entry hentry)
        · have htopics := nodup_of_registerTopic hregister List.nodup_nil
          rwa [EventBus.topics_of_registerTopic hregister] at htopics

namespace RoutedBus
variable {bus : RoutedBus Message} {i : ℕ} {entry : EventRouteEntry Message}

/-- With distinct topics each route is found under its own topic, whatever the patterns of the
others match. -/
theorem lookup_topicHandlerMap (hnodup : (bus.options.routes.entries.map Prod.snd).Nodup)
    (hentry : bus.entries[i]? = some entry) :
    bus.topicHandlerMap.lookup entry.topic = some (entry.route i) := by
  have hkeys : (bus.entries.zipIdx.map fun e => (e.1.topic, e.1.route e.2)).map Prod.fst =
      bus.options.routes.entries.map Prod.snd := by
    have hfst := congrArg (List.map EventRouteEntry.topic) (List.zipIdx_map_fst 0 bus.entries)
    rw [List.map_map] at hfst
    show _ = (bus.entries.map fun entry => (entry.method.input.typeName, entry.topic)).map Prod.snd
    rw [List.map_map, List.map_map]
    exact hfst
  have hmem : (entry.topic, entry.route i) ∈
      bus.entries.zipIdx.map fun e => (e.1.topic, e.1.route e.2) :=
    List.mem_map.mpr ⟨(entry, i), List.mk_mem_zipIdx_iff_getElem?.mpr hentry, rfl⟩
  unfold topicHandlerMap
  rw [JsMap.foldl_set (by rwa [List.nil_append, hkeys]), List.nil_append]
  exact JsMap.lookup_of_mem (by rwa [hkeys]) hmem

theorem callback_eq (hnodup : (bus.options.routes.entries.map Prod.snd).Nodup)
    (hentry : bus.entries[i]? = some entry) (rounds : ℕ) (signal : List AbortSource)
    {event : RawEvent} (htype : event.eventType = entry.topic) :
    bus.callback rounds false signal event =
      some (deliver bus.middleware rounds (entry.route i) event signal) := by
  unfold callback lookupHandler
  rw [htype, lookup_topicHandlerMap hnodup hentry]
  rfl

end RoutedBus

namespace EventBus
variable {options : EventBusOptions} {s t u : EventBus} {trace : BusTrace}

/-- A `start` that succeeds has subscribed to the topics of the routes. -/
theorem started_of_start {signal : Option ℕ} (hs : Rests options .stopped s)
    (h : ExecIn Waits (start options signal) s trace t (.ok ()))
    (hroutes : options.routes.entries ≠ []) :
    ∃ sub topics, .subscribe (options.routes.entries.map Prod.snd) options.group (.ok sub) ∈
        adapterEvents trace ∧
      options.routes.prepare = .ok (t.publishTopicMap, topics) ∧
      t.started = true ∧ t.stopping = false := by
  obtain ⟨mode, hmoves, hrests⟩ := hs.start h
  generalize hevents : adapterEvents trace = events at hmoves
  generalize hr : Except.ok () = r at hmoves
  cases hmoves with
  | rollsBack htries =>
    rename_i disconnected
    cases disconnected with
    | error error => cases hr
    | ok u => cases hr
  | starts htries =>
    cases htries with
    | startsIdle _ hidle => exact absurd hidle hroutes
    | subscribes hprepare _ =>
      have hmode := hrests.mode
      have hstarted : t.started = true := by
        cases hstarted : t.started with
        | true => rfl
        | false =>
          rw [hstarted] at hmode
          cases hmode
      rw [hstarted, if_pos rfl] at hmode
      obtain ⟨rfl, -⟩ := Mode.started.inj hmode
      exact ⟨_, _, List.mem_cons_of_mem _ List.mem_cons_self, hprepare, hstarted, hrests.stopping⟩

theorem settle_publish {typeName topic : String} {payload : List UInt8}
    {publishOptions : PublishOptions} (hstarted : u.started = true) (hstopping : u.stopping = false)
    (htopic : publishOptions.topic = none)
    (hlookup : u.publishTopicMap.lookup typeName = some topic) :
    (publish options typeName payload publishOptions).settle u =
      (.await (.publish topic payload publishOptions) .done, u) := by
  have hopen : ¬ (!u.started || u.stopping) = true := by simp [hstarted, hstopping]
  have hdeclared : publishOptions.topic.or (u.publishTopicMap.lookup typeName) = some topic := by
    rw [htopic, hlookup]
    rfl
  have hresolved : ¬ (options.strictTopics && decide (some topic = none)) = true := by simp
  unfold publish
  rw [Async.settle, if_neg hopen]
  dsimp only
  rw [hdeclared, if_neg hresolved]
  rfl

end EventBus

namespace Middleware
variable {R : Type} {i : ℕ} {ctx : EventContext} {message : Message} {payload : List UInt8}

/-- A route's innermost function does not see the variables of the composed handler. -/
def Route.handler (route : Route Message) : Handler Message := fun event ctx =>
  match route.fromBinary event.payload with
  | .error error => .done (.error error)
  | .ok message => .await (.handler message ctx) .done

theorem Route.handle_eq (route : Route Message) :
    route.handle = fun event ctx => lift (route.handler event ctx) := by
  funext event ctx
  unfold Route.handle Route.handler
  cases route.fromBinary event.payload with
  | error error => rfl
  | ok message => rfl

/-- A middleware that calls `next()` first, and passes on the payload that it has received. -/
structure Forwards (ctx : EventContext) (middleware : EventMiddleware) : Prop where
  next : ∀ event, ∃ updated resume, middleware event ctx = .await (.next updated) resume
  payload : ∀ event, Asks (fun _ => True) (Call.Passes fun e => e.payload = event.payload)
    (middleware event ctx)

theorem forwards_dlqMiddleware (options : DlqOptions) : Forwards ctx (dlqMiddleware options) where
  next _ := ⟨none, _, rfl⟩
  payload event := passes_dlqMiddleware options event ctx

theorem forwards_retryMiddleware {rounds : ℕ} {options : RetryOptions} (hrounds : 0 < rounds)
    (hadmits : options.admits 1 = true) : Forwards ctx (retryMiddleware rounds options) where
  next event := by
    obtain ⟨rounds, rfl⟩ := Nat.exists_eq_succ_of_ne_zero (by omega : rounds ≠ 0)
    unfold retryMiddleware retryLoop
    dsimp only
    rw [if_pos hadmits, if_neg (by omega)]
    exact ⟨none, _, rfl⟩
  payload event := passes_retryLoop options event 1

/-- The chain of the bus without middleware of the user. -/
theorem forwards_middlewares {config : MiddlewareConfig} {rounds : ℕ} (hcustom : config.custom = [])
    (hrounds : 0 < rounds) (hretry : ∀ options, config.retry = some options →
      options.admits 1 = true) :
    ∀ middleware ∈ config.middlewares rounds, Forwards ctx middleware := by
  intro middleware hmem
  unfold MiddlewareConfig.middlewares at hmem
  rw [hcustom, List.nil_append] at hmem
  rcases List.mem_append.mp hmem with hmem | hmem
  · obtain ⟨options, -, rfl⟩ := List.mem_map.mp hmem
    exact forwards_dlqMiddleware options
  · obtain ⟨options, hoptions, rfl⟩ := List.mem_map.mp hmem
    exact forwards_retryMiddleware hrounds (hretry options (Option.mem_toList.mp hoptions))

/-- Layers that forward invoke the handler before anything else. -/
theorem layers_first {route : Route Message} {l : List EventMiddleware} {event : RawEvent}
    (hl : ∀ middleware ∈ l, Forwards ctx middleware)
    (hmessage : route.fromBinary event.payload = .ok message)
    (K : Outcome → Async (Query Message) Query.Answer RawEvent R) :
    ∃ resume, ((layers route.handler ctx l i event).erase >>= K).run event =
      .await (.handler message ctx) resume := by
  induction l generalizing i event K with
  | nil =>
    unfold layers Route.handler
    rw [hmessage]
    exact ⟨_, rfl⟩
  | cons middleware rest ih =>
    obtain ⟨hmiddleware, hrest⟩ := List.forall_mem_cons.mp hl
    obtain ⟨updated, resume, heq⟩ := hmiddleware.next event
    have hpayload := hmiddleware.payload event
    rw [heq] at hpayload
    have hkept : (updated.getD event).payload = event.payload := by
      cases updated with
      | none => rfl
      | some updated => exact hpayload.1 updated rfl
    unfold layers activation
    rw [heq]
    dsimp only
    rw [erase_bind, Async.bind_assoc]
    exact ih hrest (hkept ▸ hmessage) _

/-- A delivery sets the variables of the composed handler itself. -/
theorem run_deliver {config : MiddlewareConfig} {rounds : ℕ} {route : Route Message}
    {event : RawEvent} {signal : List AbortSource} (s t : Dispatch) :
    (deliver config rounds route event signal).run s =
      (deliver config rounds route event signal).run t := by
  unfold deliver
  rw [Route.handle_eq, run_composeMiddleware, run_composeMiddleware]

theorem deliver_first {config : MiddlewareConfig} {rounds : ℕ} {route : Route Message}
    {event : RawEvent} {signal : List AbortSource}
    (hchain : ∀ middleware ∈ route.middleware.getD (config.middlewares rounds),
      Forwards (createEventContext event signal) middleware)
    (hmessage : route.fromBinary event.payload = .ok message) (s : Dispatch) :
    ∃ resume, (deliver config rounds route event signal).run s =
      .await (.handler message (createEventContext event signal)) resume := by
  obtain ⟨resume, hfirst⟩ := layers_first (i := 0) hchain hmessage Async.done
  rw [Async.bind_done, ← run_composeMiddleware _ _ _ _ s] at hfirst
  unfold deliver
  rw [Route.handle_eq]
  exact ⟨resume, hfirst⟩

theorem asks_handle {J : RawEvent → Prop} {P : Query Message → Prop} {route : Route Message}
    (h : ∀ event message, J event → route.fromBinary event.payload = .ok message →
      P (.handler message ctx)) :
    ∀ event, J event → Asks (fun s => J s.currentEvent) P (route.handle event ctx) := by
  intro event hevent
  unfold Route.handle
  cases hmessage : route.fromBinary event.payload with
  | error error => trivial
  | ok message => exact ⟨h event message hevent hmessage, fun _ => trivial⟩

end Middleware

namespace RoutedBus
variable {bus : RoutedBus Message} {i : ℕ} {entry : EventRouteEntry Message} {message : Message}
  {event : RawEvent}

/-- What becomes of an event of the bus: only the handler of the `i`-th route is invoked, and where
the middleware around it forwards the event, it is invoked before anything else and always with the
message. -/
structure Reaches (bus : RoutedBus Message) (i : ℕ) (entry : EventRouteEntry Message)
    (message : Message) (event : RawEvent) : Prop where
  callback : ∀ rounds signal, bus.callback rounds false signal event =
    some (deliver bus.middleware rounds (entry.route i) event signal)
  only : ∀ rounds signal s trace o,
    Runs ((deliver bus.middleware rounds (entry.route i) event signal).run s) trace o →
      ∀ x ∈ trace, ∀ call ctx, x.query = .handler call ctx → call.1 = i
  invoked : ∀ rounds signal,
    (∀ middleware ∈ entry.middleware.getD (bus.middleware.middlewares rounds),
      Forwards (createEventContext event signal) middleware) → ∀ s,
    (∃ resume, (deliver bus.middleware rounds (entry.route i) event signal).run s =
      .await (.handler (i, message) (createEventContext event signal)) resume) ∧
    ∀ trace o, Runs ((deliver bus.middleware rounds (entry.route i) event signal).run s) trace o →
      ∀ x ∈ trace, ∀ call ctx, x.query = .handler call ctx → call = (i, message)

theorem number_of_fromBinary {payload : List UInt8} {call : ℕ × Message}
    (h : (entry.route i).fromBinary payload = .ok call) : call.1 = i := by
  change (entry.method.input.fromBinary payload).map _ = _ at h
  cases hmessage : entry.method.input.fromBinary payload with
  | error error =>
    rw [hmessage] at h
    cases h
  | ok message =>
    rw [hmessage] at h
    obtain rfl := Except.ok.inj h
    rfl

theorem reaches (hnodup : (bus.options.routes.entries.map Prod.snd).Nodup)
    (hentry : bus.entries[i]? = some entry) (htype : event.eventType = entry.topic)
    (hmessage : entry.method.input.fromBinary event.payload = .ok message) :
    Reaches bus i entry message event := by
  have hroute : (entry.route i).fromBinary event.payload = .ok (i, message) := by
    change (entry.method.input.fromBinary event.payload).map _ = _
    rw [hmessage]
    rfl
  constructor
  · exact fun rounds signal => callback_eq hnodup hentry rounds signal htype
  · intro rounds signal s trace o hrun x hx call ctx hquery
    have hasks : Asks (fun _ => True)
        (fun q : Query (ℕ × Message) => ∀ call ctx, q = .handler call ctx → call.1 = i)
        (deliver bus.middleware rounds (entry.route i) event signal) := by
      apply asks_composeMiddleware (J := fun _ => True) (fun _ _ _ _ => passes_all _)
      · apply asks_handle
        intro event call _ hcall call' ctx heq
        obtain ⟨rfl, rfl⟩ := Query.handler.inj heq
        exact number_of_fromBinary hcall
      · exact fun e call ctx heq => by cases heq
      · trivial
    exact (hasks.run (s := s) trivial).runs hrun x hx call ctx hquery
  · intro rounds signal hchain s
    refine ⟨deliver_first hchain hroute s, ?_⟩
    intro trace o hrun x hx call ctx hquery
    have hasks : Asks (fun s => s.currentEvent.payload = event.payload)
        (fun q : Query (ℕ × Message) => ∀ call ctx, q = .handler call ctx → call = (i, message))
        (deliver bus.middleware rounds (entry.route i) event signal) := by
      apply asks_composeMiddleware (J := fun e => e.payload = event.payload)
      · intro middleware hmiddleware event' hevent'
        exact hevent' ▸ (hchain middleware hmiddleware).payload event'
      · apply asks_handle
        intro event' call hevent' hcall call' ctx heq
        obtain ⟨rfl, rfl⟩ := Query.handler.inj heq
        rw [hevent', hroute] at hcall
        exact (Except.ok.inj hcall).symm
      · exact fun e call ctx heq => by cases heq
      · rfl
    rw [run_deliver s { currentEvent := event }] at hrun
    exact (hasks.run rfl).runs hrun x hx call ctx hquery

/-- On a bus without middleware of the user the handler is invoked, unless the retries are set up so
that not even a first attempt is made. -/
theorem Reaches.builtIn {rounds : ℕ} (h : Reaches bus i entry message event)
    (hroute : entry.middleware = none) (hcustom : bus.middleware.custom = [])
    (hrounds : 0 < rounds)
    (hretry : ∀ options, bus.middleware.retry = some options → options.admits 1 = true)
    (signal : List AbortSource) (s : Dispatch) :
    ∃ resume, (deliver bus.middleware rounds (entry.route i) event signal).run s =
      .await (.handler (i, message) (createEventContext event signal)) resume := by
  refine (h.invoked rounds signal ?_ s).1
  rw [hroute]
  exact forwards_middlewares hcustom hrounds hretry

/-- A message that is published without a topic, on a bus whose `start` has succeeded, goes out
under the topic of its route, which the bus is subscribed to, and an event that brings it back
reaches the handler of the route and no other. -/
theorem publish_loopback (bus : RoutedBus Message) {s t u : EventBus} {signal : Option ℕ}
    {trace : EventBus.BusTrace} (hs : EventBus.Rests bus.options .stopped s)
    (hstart : ExecIn EventBus.Waits (EventBus.start bus.options signal) s trace t (.ok ()))
    (helapsed : EventBus.Elapsed t u) (hentry : bus.entries[i]? = some entry)
    (hbinary : entry.method.input.fromBinary (entry.method.input.toBinary message) = .ok message)
    {publishOptions : EventBus.PublishOptions} (htopic : publishOptions.topic = none) :
    (EventBus.publish bus.options entry.method.input.typeName
        (entry.method.input.toBinary message) publishOptions).settle u =
      (.await (.publish entry.topic (entry.method.input.toBinary message) publishOptions) .done,
        u) ∧
    (∃ topics sub, .subscribe topics bus.group (.ok sub) ∈ EventBus.adapterEvents trace ∧
      entry.topic ∈ topics) ∧
    ∀ event : RawEvent, event.eventType = entry.topic →
      event.payload = entry.method.input.toBinary message → Reaches bus i entry message event := by
  have hmem : (entry.method.input.typeName, entry.topic) ∈ bus.options.routes.entries :=
    List.mem_map.mpr ⟨entry, List.mem_of_getElem? hentry, rfl⟩
  obtain ⟨sub, topics, hsubscribe, hprepare, hstarted, hstopping⟩ :=
    EventBus.started_of_start hs hstart (List.ne_nil_of_mem hmem)
  obtain ⟨hlookup, hnodup⟩ := BusRoutes.prepare_ok hprepare
  obtain ⟨inFlight, now, rfl⟩ := helapsed
  refine ⟨?_, ⟨_, sub, hsubscribe, List.mem_map_of_mem hmem⟩, fun event htype hpayload => ?_⟩
  · exact EventBus.settle_publish hstarted hstopping htopic (hlookup _ hmem)
  · exact reaches hnodup hentry htype (hpayload ▸ hbinary)

def userMessage (typeName : String) : DescMessage (List UInt8) := ⟨typeName, id, .ok⟩

/-- The topic of the first route is matched by the pattern of the second one too. -/
def overlapping : RoutedBus (List UInt8) where
  entries := [{ method := ⟨userMessage "user.v1.UserCreated", some "user.created"⟩ },
    { method := ⟨userMessage "user.v1.UserChanged", some "user.>"⟩ }]
  publishes := [[⟨userMessage "user.v1.UserCreated", some "user.created"⟩]]
  middleware := { dlq := some { topic := "dlq" } }

theorem publish_loopback_overlapping :
    (EventBus.publish overlapping.options "user.v1.UserCreated" [1] {}).settle
        { started := true, subscriptions := [1], publishTopicMap :=
          [("user.v1.UserCreated", "user.created"), ("user.v1.UserChanged", "user.>")] } =
      (.await (.publish "user.created" [1] {}) .done,
        { started := true, subscriptions := [1], publishTopicMap :=
          [("user.v1.UserCreated", "user.created"), ("user.v1.UserChanged", "user.>")] }) ∧
    Reaches overlapping 0 { method := ⟨userMessage "user.v1.UserCreated", some "user.created"⟩ } [1]
      { Delivery.userCreated with payload := [1] } := by
  have hstart : ExecIn EventBus.Waits (EventBus.start overlapping.options none) {} _
      { started := true, subscriptions := [1], publishTopicMap :=
        [("user.v1.UserCreated", "user.created"), ("user.v1.UserChanged", "user.>")] } (.ok ()) :=
    execIn_runIn (EventBus.waits_respondSubscribe (.ok 1))
      (EventBus.start overlapping.options none) {}
  have hbinary : (userMessage "user.v1.UserCreated").fromBinary [1] = .ok [1] := rfl
  have htopic : ({} : EventBus.PublishOptions).topic = none := rfl
  obtain ⟨hpublish, -, hreaches⟩ := publish_loopback overlapping (i := 0)
    (EventBus.rests_initial _) hstart (.refl _) rfl hbinary htopic
  exact ⟨hpublish, hreaches { Delivery.userCreated with payload := [1] } rfl rfl⟩

end RoutedBus

end Connectum.Events
