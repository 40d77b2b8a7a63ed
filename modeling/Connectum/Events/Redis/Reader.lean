import Connectum.Events.Drain
import Connectum.Events.Redis.Envelope

/-! The consume loop of a Redis subscription, on its own blocking connection. -/
namespace Connectum.Events.Redis

def pendingReclaimInterval : ℕ := 5

/-- An entry with the attempt number that it is processed with. -/
abbrev Attempt := Entry × ℕ

/-- The await at which the loop is suspended, or the point between two entries, with the
entries and the stream keys that it still has to visit. `claimed`, `counting` and `reclaimed`
are inside `reclaimPending`. -/
inductive Loop where
  | reclaiming (key : String) (keys : List String)
  | counting (entries : List Entry) (keys : List String)
  | claimed (next : Attempt) (entries : List Attempt) (keys : List String)
  | reclaimed (d : ℕ) (entries : List Attempt) (keys : List String)
  | reading
  | received (next : Entry) (entries : List Entry)
  | processing (d : ℕ) (entries : List Entry)
  | sleeping
  | exited
  deriving DecidableEq, Repr

/-- The delivery whose callback the loop awaits. -/
def Loop.awaited : Loop → Option ℕ
  | .reclaimed d _ _ | .processing d _ => some d
  | _ => none

structure Reader where
  subscriptionRunning : Bool
  connected : Bool
  iterationCount : ℕ
  loop : Loop
  deriving DecidableEq, Repr

/-- Replies and errors of the broker, the end of a `processEntry`, and the retry timer. -/
inductive ReaderAction where
  | autoClaimReply (entries : List Entry)
  | autoClaimError
  | pendingReply (deliveryCounts : List (String × ℕ))
  | stopReclaim
  | readReply (entries : List Entry)
  | readError
  | processed
  | slept
  deriving DecidableEq, Repr

namespace Reader

/-- The head of `for (const key of streamKeys)` in `reclaimPending`. -/
def nextKey : List String → Loop
  | [] => .reading
  | key :: keys => .reclaiming key keys

/-- The head of `for (const [entryId, fields] of entries)` in `reclaimPending`. -/
def nextClaimed (keys : List String) : List Attempt → Loop
  | [] => nextKey keys
  | next :: entries => .claimed next entries keys

/-- The head of `while (subscriptionRunning)`. -/
def loopHead (streamKeys : List String) (r : Reader) : Reader :=
  if r.subscriptionRunning then
    { r with
      iterationCount := r.iterationCount + 1
      loop := if (r.iterationCount + 1) % pendingReclaimInterval = 0 then nextKey streamKeys
        else .reading }
  else { r with loop := .exited }

/-- The head of the loops over the results of XREADGROUP. -/
def nextReceived (streamKeys : List String) (r : Reader) : List Entry → Reader
  | [] => r.loopHead streamKeys
  | next :: entries => { r with loop := .received next entries }

def started (streamKeys : List String) : Reader :=
  loopHead streamKeys ⟨true, true, 0, .reading⟩

/-- The call of the handler in `processEntry`, which is delivery `d`. A claimed entry is
processed only while the subscription is running, a received one always. -/
def accept (env : ℕ → Environment) (r : Reader) (d : ℕ) (event : RawEvent) : Option Reader :=
  match r.loop with
  | .claimed next entries keys =>
    if r.subscriptionRunning ∧ event = rawEvent (env d) next.1 next.2 then
      some { r with loop := .reclaimed d entries keys }
    else none
  | .received next entries =>
    if event = rawEvent (env d) next 1 then some { r with loop := .processing d entries }
    else none
  | _ => none

/-- The loop's own steps. A command may have been answered before the connection was closed,
and may fail at any time. -/
def internal (streamKeys : List String) (callback : ℕ → Option Bool) (r : Reader) :
    ReaderAction → Option Reader
  | .autoClaimReply entries =>
    match r.loop with
    | .reclaiming _ keys =>
      some { r with loop := if entries = [] then nextKey keys else .counting entries keys }
    | _ => none
  | .autoClaimError =>
    match r.loop with
    | .reclaiming _ keys => some { r with loop := nextKey keys }
    | _ => none
  -- a failed XPENDING leaves the counts empty
  | .pendingReply deliveryCounts =>
    match r.loop with
    | .counting entries keys =>
      some { r with loop := nextClaimed keys (entries.map fun e =>
        (e, (deliveryCounts.lookup e.entryId).getD 2)) }
    | _ => none
  | .stopReclaim =>
    match r.loop with
    | .claimed _ _ _ => if r.subscriptionRunning then none else some { r with loop := .reading }
    | _ => none
  | .readReply entries =>
    match r.loop with
    | .reading => some (r.nextReceived streamKeys entries)
    | _ => none
  | .readError =>
    match r.loop with
    | .reading => some { r with loop := if r.subscriptionRunning then .sleeping else .exited }
    | _ => none
  | .processed =>
    match r.loop with
    | .reclaimed d entries keys =>
      match callback d with
      | none => none
      | some true => some { r with loop := nextClaimed keys entries }
      -- the `catch` of this key: its other entries are left
      | some false => some { r with loop := nextKey keys }
    | .processing d entries =>
      match callback d with
      | none => none
      | some _ => some (r.nextReceived streamKeys entries)
    | _ => none
  | .slept =>
    match r.loop with
    | .sleeping => some (r.loopHead streamKeys)
    | _ => none

/-- The synchronous part of `unsubscribe()`, which then awaits the loop. -/
def unsubscribe (r : Reader) : Reader :=
  { r with subscriptionRunning := false, connected := false }

@[simp] theorem awaited_nextKey (keys : List String) : (nextKey keys).awaited = none := by
  cases keys <;> rfl

@[simp] theorem awaited_nextClaimed (keys : List String) (entries : List Attempt) :
    (nextClaimed keys entries).awaited = none := by
  cases entries with
  | nil => exact awaited_nextKey keys
  | cons => rfl

/-- What the loop's own steps leave alone. -/
structure Internal (r r' : Reader) : Prop where
  awaited : r'.loop.awaited = none
  running : r'.subscriptionRunning = r.subscriptionRunning
  connected : r'.connected = r.connected

theorem internal_loopHead (streamKeys : List String) (r : Reader) :
    Internal r (r.loopHead streamKeys) := by
  unfold loopHead
  split
  · refine ⟨?_, rfl, rfl⟩
    dsimp only
    split
    · exact awaited_nextKey streamKeys
    · rfl
  · exact ⟨rfl, rfl, rfl⟩

theorem internal_nextReceived (streamKeys : List String) (r : Reader) (entries : List Entry) :
    Internal r (r.nextReceived streamKeys entries) := by
  cases entries with
  | nil => exact internal_loopHead streamKeys r
  | cons => exact ⟨rfl, rfl, rfl⟩

theorem internal_of_some {streamKeys : List String} {callback : ℕ → Option Bool}
    {r r' : Reader} {k : ReaderAction} (h : r.internal streamKeys callback k = some r') :
    Internal r r' := by
  cases k with
  | autoClaimReply entries =>
    simp only [internal] at h
    split at h
    next =>
      obtain rfl := Option.some.inj h
      refine ⟨?_, rfl, rfl⟩
      dsimp only
      split
      · simp
      · rfl
    next => simp at h
  | readReply entries =>
    simp only [internal] at h
    split at h
    next => exact Option.some.inj h ▸ internal_nextReceived streamKeys r entries
    next => simp at h
  | readError =>
    simp only [internal] at h
    split at h
    next =>
      obtain rfl := Option.some.inj h
      refine ⟨?_, rfl, rfl⟩
      dsimp only
      split <;> rfl
    next => simp at h
  | processed =>
    simp only [internal] at h
    split at h
    next =>
      split at h
      next => simp at h
      all_goals
        obtain rfl := Option.some.inj h
        exact ⟨by simp, rfl, rfl⟩
    next =>
      split at h
      next => simp at h
      next => exact Option.some.inj h ▸ internal_nextReceived streamKeys r _
    next => simp at h
  | slept =>
    simp only [internal] at h
    split at h
    next => exact Option.some.inj h ▸ internal_loopHead streamKeys r
    next => simp at h
  | stopReclaim =>
    simp only [internal] at h
    split at h
    next =>
      split at h
      next => simp at h
      next =>
        obtain rfl := Option.some.inj h
        exact ⟨rfl, rfl, rfl⟩
    next => simp at h
  | autoClaimError | pendingReply =>
    simp only [internal] at h
    split at h
    next =>
      obtain rfl := Option.some.inj h
      exact ⟨by simp, rfl, rfl⟩
    next => simp at h

/-- Handing an entry over only moves the loop. -/
theorem accept_of_some {env : ℕ → Environment} {r r' : Reader} {d : ℕ} {event : RawEvent}
    (h : r.accept env d event = some r') : r'.loop.awaited = some d ∧
      r'.subscriptionRunning = r.subscriptionRunning ∧ r'.connected = r.connected := by
  unfold accept at h
  split at h
  case h_3 => simp at h
  all_goals
    split at h
    next =>
      obtain rfl := Option.some.inj h
      exact ⟨rfl, rfl, rfl⟩
    next => simp at h

end Reader

def transport (streamKeys : List String) (env : ℕ → Environment) :
    Transport Reader ReaderAction where
  accept := Reader.accept env
  internal := Reader.internal streamKeys
  unsubscribe := Reader.unsubscribe
  unsubscribed := fun r => decide (r.loop = .exited)
  isOpen := Reader.connected

/-- A clock that stands still, and a parser that accepts no date. -/
def fixedEnvironment : ℕ → Environment := fun _ => ⟨0, fun _ => none, fun _ => []⟩

def userEntry : Entry :=
  ⟨"events:user.created", "1-0", ["eventId", "evt-1", "eventType", "user.created"]⟩

end Connectum.Events.Redis
