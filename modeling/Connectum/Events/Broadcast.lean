import Connectum.Events.Lifecycle
import Connectum.Events.MemoryAdapter
import Connectum.JsMap

/-! Broadcast reactors, each on a bus of its own, over one shared in-memory adapter. -/
namespace Connectum.Events

/-- The entries are those of `BusRoutes`. -/
structure BroadcastReactor where
  group : String
  entries : List (String × String)
  deriving DecidableEq, Repr

/-- A bus of a reactor: what its last `start()` has subscribed (nothing where the adapter rejects),
and its array `subscriptions`. -/
structure ReactorBus where
  routes : BusRoutes
  bus : Lifecycle.Bus := {}
  pending : Option ℕ := none
  held : List ℕ := []
  deriving DecidableEq, Repr

def seeGroup (seen : List String) (reactor : BroadcastReactor) : Except String (List String) :=
  if reactor.group ∈ seen then
    .error (s!"createBroadcastSubscribers: duplicate consumer group \"{reactor.group}\". " ++
      "Each broadcast reactor needs a DISTINCT group for true fan-out — a shared group load-balances (one reactor steals each event) instead of broadcasting.")
  else .ok (seen ++ [reactor.group])

/-- The buses over one adapter, which makes no use of their groups. -/
def createBroadcastSubscribers (reactors : List BroadcastReactor) :
    Except String (List ReactorBus) := do
  let _ ← reactors.foldlM seeGroup []
  return reactors.map fun reactor => { routes := ⟨reactor.entries, []⟩ }

/-- The topics that a bus subscribes to. -/
def BusRoutes.topics (routes : BusRoutes) : List String :=
  match routes.prepare with
  | .ok (_, topics) => topics
  | .error _ => []

namespace ReactorBus

/-- The bus has been started, and is not being stopped. -/
def active (r : ReactorBus) : Bool := r.bus.started && !r.bus.stopping

def listens (r : ReactorBus) (eventType : String) : Bool :=
  r.active && r.routes.topics.any fun topic => matchPattern topic eventType

/-- `connect` and `disconnect` succeed, and `subscribe` does once it has made a subscription. -/
def answers (r : ReactorBus) : Lifecycle.Action → Bool
  | .connected ok | .rolledBack ok | .disconnected _ ok => ok
  | .subscribed ok => ok == r.pending.isSome
  | _ => true

def heldAfter (r : ReactorBus) : Lifecycle.Action → List ℕ
  | .subscribed true => r.held ++ r.pending.toList
  | .unwound | .unsubscribed _ => []
  | _ => r.held

/-- A stop sequence, or the `catch` block of `start()`, begins with `unsubscribe()` on what the
bus holds. -/
def unsubscribes (bus bus' : Lifecycle.Bus) : Bool :=
  bus.stopRuns.length < bus'.stopRuns.length ||
    (bus.startRun ≠ some .unwinding && bus'.startRun = some .unwinding)

/-- A call of bus `i` on the adapter; a subscription's handler is that bus. -/
def call (i : ℕ) (s : MemoryAdapter ℕ × Option ℕ) : Lifecycle.Event → MemoryAdapter ℕ × Option ℕ
  | .connect => (s.1.connect, s.2)
  | .subscribe topics =>
    match s.1.subscribe topics i with
    | .ok (id, adapter) => (adapter, some id)
    | .error _ => (s.1, none)
  | .disconnect _ _ => (s.1.disconnect, s.2)
  | .connectSucceeded | .connectFailed => s

end ReactorBus

/-- A call of `publish` that waits for a handler (that of a reactor, if the event was handed to
one), and the subscriptions that it is to call after it. -/
structure Publication where
  eventType : String
  handed : Bool
  remaining : List (MemorySubscription ℕ)
  deriving DecidableEq, Repr

structure Broadcast where
  adapter : MemoryAdapter ℕ := {}
  reactors : List ReactorBus
  publications : List (ℕ × Publication) := []
  published : ℕ := 0
  deriving DecidableEq, Repr

namespace Broadcast

/-- Events are published over the bus of a reactor or on the adapter itself. A handler settles
with its `settle`, for better or worse. -/
inductive Action where
  | bus (i : ℕ) (a : Lifecycle.Action)
  | publish (via : Option ℕ) (eventType : String)
  | settle (p : ℕ) (ok : Bool)
  deriving DecidableEq, Repr

/-- A publication carries the reactors that listened to it, and so does one that the adapter
refuses. -/
inductive Event where
  | published (p : ℕ) (listening : List ℕ)
  | refused (listening : List ℕ)
  | handed (p i : ℕ)
  | stopping (i : ℕ)
  deriving DecidableEq, Repr

def listening (s : Broadcast) (eventType : String) : List ℕ :=
  (List.range s.reactors.length).filter fun i =>
    (s.reactors[i]?).any fun r => r.listens eventType

/-- Whether the handler of a bus, which looks the event up in its topics and rejects it while the
bus is draining, hands it to the reactor. -/
def hands (s : Broadcast) (sub : MemorySubscription ℕ) (eventType : String) : Bool :=
  (lookupHandler (sub.patterns.map fun pattern => (pattern, ())) eventType).isSome &&
    !(s.reactors[sub.handler]?).any fun r => r.bus.draining

/-- The loop of `publish`, up to the next call of a handler. -/
def deliver (s : Broadcast) (p : ℕ) (eventType : String) :
    List (MemorySubscription ℕ) → Broadcast × List Event
  | [] => ({ s with publications := JsMap.delete s.publications p }, [])
  | sub :: remaining =>
    ({ s with publications :=
        JsMap.set s.publications p ⟨eventType, s.hands sub eventType, remaining⟩ },
      if s.hands sub eventType then [.handed p sub.handler] else [])

/-- A synchronous stretch of the bus of a reactor. -/
def stepBus (s : Broadcast) (i : ℕ) (r : ReactorBus) (a : Lifecycle.Action) :
    Option (Broadcast × List Event) :=
  match r.bus.step r.routes a with
  | none => none
  | some (bus, calls) =>
    let adapter :=
      if ReactorBus.unsubscribes r.bus bus then r.held.foldl MemoryAdapter.unsubscribe s.adapter
      else s.adapter
    let (adapter, pending) := calls.foldl (ReactorBus.call i) (adapter, r.pending)
    some ({ s with
        adapter
        reactors := s.reactors.set i { r with bus, pending, held := r.heldAfter a } },
      if r.bus.stopRuns.length < bus.stopRuns.length then [.stopping i] else [])

def step (s : Broadcast) : Action → Option (Broadcast × List Event)
  | .bus i a =>
    match s.reactors[i]? with
    | none => none
    | some r => if r.answers a then s.stepBus i r a else none
  | .publish via eventType =>
    -- `publish` of a bus rejects with "EventBus not started. Call start() first."
    if via.any fun i => (s.reactors[i]?).all fun r => !r.active then some (s, [])
    else match s.adapter.matchingSubs eventType with
      | .error _ => some (s, [.refused (s.listening eventType)])
      | .ok matchingSubs =>
        let (s', out) := { s with published := s.published + 1 }.deliver s.published eventType
          matchingSubs
        some (s', .published s.published (s.listening eventType) :: out)
  | .settle p ok =>
    match s.publications.lookup p with
    | none => none
    | some publication =>
      if ok then some (s.deliver p publication.eventType publication.remaining)
      -- the rejection of a handler ends the loop
      else if publication.handed then
        some ({ s with publications := JsMap.delete s.publications p }, [])
      else none

/-- What is to be handed over: each publication to the reactors that listened to it, less those
that have begun to stop since. -/
def noteOwed (owed : List (ℕ × ℕ)) : Event → List (ℕ × ℕ)
  | .published p listening => owed ++ listening.map fun i => (p, i)
  | .stopping i => owed.filter fun e => e.2 ≠ i
  | .refused _ | .handed _ _ => owed

def owed (log : List Event) : List (ℕ × ℕ) := log.foldl noteOwed []

/-- Reactors are independent: nothing is handed over twice, and whatever is owed has been handed
over when `publish` is through; while a reactor listens no publication is refused, and no bus is
refused its subscription. -/
structure Independent (s : Broadcast) (log : List Event) : Prop where
  once : ∀ p i, log.count (.handed p i) ≤ 1
  handed : ∀ p i, (p, i) ∈ owed log → s.publications.lookup p = none →
    log.count (.handed p i) = 1
  accepted : ∀ listening, .refused listening ∈ log → listening = []
  subscribed : ∀ r ∈ s.reactors, r.bus.startRun = some .subscribing → r.pending ≠ none

/-- The bus calls `disconnect()`. -/
def disconnects : Lifecycle.Action → Bool
  | .unwound | .drained _ => true
  | _ => false

/-- The bus is active or about to be. -/
def inUse (r : ReactorBus) : Bool :=
  r.active || r.bus.startRun = some .connecting || r.bus.startRun = some .subscribing

/-- No `disconnect()` while another bus is in use, no rejection of a handler while another
subscriber is waiting for the event, and no double stop of a bus. -/
def careful (s : Broadcast) : Action → Bool
  | .bus i a =>
    ((s.reactors[i]?).all fun r => !Lifecycle.doubleStop r.bus a) &&
      (!disconnects a || s.reactors.zipIdx.all fun e => e.2 == i || !inUse e.1)
  | .publish _ _ => true
  | .settle p ok =>
    ok || (s.publications.lookup p).all fun publication =>
      publication.remaining.all fun sub => sub ∉ s.adapter.subscriptions

end Broadcast
end Connectum.Events
