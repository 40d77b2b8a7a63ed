import Connectum.Events.Redis.Reader
import Connectum.Leases
import Connectum.Machine

/-! The subscriptions of several processes over the consumer groups of one Redis server. -/
namespace Connectum.Events.Redis
open Machine

/-- A consumer group of a stream, which was created when the stream had `start` entries. -/
structure Group where
  start : ℕ
  leases : Leases Entry

/-- The streams and the groups of a server, by their keys. No stream is trimmed. -/
structure Server where
  streams : String → List Entry := fun _ => []
  groups : String × String → Option Group := fun _ => none

inductive GroupEvent where
  | delivered (group : String) (entry : Entry)
  | acked (group : String) (entry : Entry)
  deriving DecidableEq, Repr

namespace Server

/-- XADD chooses a new id. -/
def publish (s : Server) (entry : Entry) : Option Server :=
  let entries := s.streams entry.key
  if entry.entryId ∈ entries.map Entry.entryId then none
  else
    let streams := Function.update s.streams entry.key (entries ++ [entry])
    some { s with streams }

def setGroup (s : Server) (key group : String) (g : Group) : Server :=
  { s with groups := Function.update s.groups (key, group) (some g) }

/-- XGROUP CREATE at the end of the stream; BUSYGROUP is ignored. -/
def createGroup (s : Server) (key group : String) : Server :=
  match s.groups (key, group) with
  | some _ => s
  | none =>
    let start := (s.streams key).length
    s.setGroup key group ⟨start, ⟨start, []⟩⟩

/-- XREADGROUP for one of its streams; a count of zero is no limit. -/
def readKey (s : Server) (group : String) (count : ℕ) (key : String) : Server × List Entry :=
  match s.groups (key, group) with
  | none => (s, [])
  | some g =>
    let n := if count = 0 then (s.streams key).length else count
    (s.setGroup key group { g with leases := g.leases.take (s.streams key) n },
      g.leases.next (s.streams key) n)

def readGroup (s : Server) (group : String) (count : ℕ) : List String → Server × List Entry
  | [] => (s, [])
  | key :: streamKeys =>
    let (s, entries) := s.readKey group count key
    let (s, rest) := s.readGroup group count streamKeys
    (s, entries ++ rest)

/-- XAUTOCLAIM; `idle` are the entries that nobody has got for the minimum idle time. -/
def claimKey (s : Server) (group : String) (count : ℕ) (idle : Entry → Bool) (key : String) :
    Server × List Entry :=
  match s.groups (key, group) with
  | none => (s, [])
  | some g =>
    let entries := g.leases.again idle count
    (s.setGroup key group { g with leases := g.leases.renew entries }, entries)

/-- XACK. -/
def xack (s : Server) (group : String) (entry : Entry) : Server × List GroupEvent :=
  match s.groups (entry.key, group) with
  | none => (s, [])
  | some g =>
    let leases := g.leases.release fun e => decide (e.entryId = entry.entryId)
    (s.setGroup entry.key group { g with leases }, [.acked group entry])

/-- XPENDING: the deliveries of entries that are pending. -/
def Counts (s : Server) (group : String) (entries : List Entry)
    (pendingAll : List (String × ℕ)) : Prop :=
  ∀ e ∈ pendingAll, ∀ entry ∈ entries, entry.entryId = e.1 →
    ∃ g ∈ s.groups (entry.key, group), (entry, e.2) ∈ g.leases.held

instance (s : Server) (group : String) (entries : List Entry) (pendingAll : List (String × ℕ)) :
    Decidable (s.Counts group entries pendingAll) :=
  have (entry : Entry) (n : ℕ) : Decidable (∃ g ∈ s.groups (entry.key, group),
      (entry, n) ∈ g.leases.held) :=
    match s.groups (entry.key, group) with
    | none => isFalse (by simp)
    | some g => decidable_of_iff ((entry, n) ∈ g.leases.held) (by simp)
  inferInstanceAs (Decidable (∀ e ∈ pendingAll, ∀ entry ∈ entries, entry.entryId = e.1 → _))

end Server

/-- The entry that a loop comes to next. -/
def next? : Loop → Option Attempt
  | .claimed next _ _ => some next
  | .received next _ => some (next, 1)
  | _ => none

/-- Wildcards are refused. -/
def IsTopic (pattern : String) : Prop := '*' ∉ pattern.toList ∧ '>' ∉ pattern.toList

instance : DecidablePred IsTopic := fun _ => inferInstanceAs (Decidable (_ ∧ _))

/-- A subscription has created its groups before it begins. -/
def Server.Joins (s : Server) (group : String) (patterns : List String) : Prop :=
  (∀ pattern ∈ patterns, IsTopic pattern) ∧
    ∀ pattern ∈ patterns, (s.groups (streamKey pattern, group)).isSome = true

instance (s : Server) (group : String) (patterns : List String) :
    Decidable (s.Joins group patterns) := inferInstanceAs (Decidable (_ ∧ _))

/-- A subscription of any process; `count` is that of the broker options. -/
structure Subscription where
  group : String
  streamKeys : List String
  count : ℕ
  reader : Reader

/-- What a loop asks of the server. A command that is not answered has been executed before the
connection was lost, and one that fails has not. -/
inductive Command where
  | read (answered : Bool)
  | readFails
  | claim (idle : Entry → Bool) (answered : Bool)
  | claimFails
  | counts (pendingAll : List (String × ℕ))

/-- The execution of a command, with the entries that it delivers and what the loop gets. -/
def Server.serve (s : Server) (sub : Subscription) :
    Command → Option (Server × List Entry × ReaderAction)
  | .read answered =>
    let (t, entries) := s.readGroup sub.group sub.count sub.streamKeys
    some (t, entries, if answered then .readReply entries else .readError)
  | .readFails => some (s, [], .readError)
  | .claim idle answered =>
    match sub.reader.loop with
    | .reclaiming key _ =>
      let (t, entries) := s.claimKey sub.group sub.count idle key
      some (t, entries, if answered then .autoClaimReply entries else .autoClaimError)
    | _ => none
  | .claimFails => some (s, [], .autoClaimError)
  | .counts pendingAll =>
    match sub.reader.loop with
    | .counting entries _ =>
      if s.Counts sub.group entries pendingAll then some (s, [], .pendingReply pendingAll)
      else none
    | _ => none

namespace Groups

/-- The calls of handlers have the number of the subscription that they belong to. -/
structure State where
  server : Server := {}
  subscriptions : List Subscription := []
  calls : List (ℕ × Attempt) := []

inductive Action where
  | publish (entry : Entry)
  | createGroup (key group : String)
  | subscribe (group : String) (patterns : List String) (count : ℕ)
  | command (i : ℕ) (command : Command)
  | hand (i : ℕ)
  | returned (i : ℕ) (ok : Bool)
  | stopReclaim (i : ℕ)
  | slept (i : ℕ)
  | ack (d : ℕ)
  | nack (d : ℕ) (requeue : Option Bool)
  | unsubscribe (i : ℕ)
  | crash (i : ℕ)

inductive Event where
  | server (e : GroupEvent)
  | handed (i : ℕ) (group : String) (attempt : Attempt)
  deriving DecidableEq, Repr

def deliveredEvents (group : String) (entries : List Entry) : List Event :=
  entries.map fun entry => .server (.delivered group entry)

namespace State

def setReader (s : State) (i : ℕ) (reader : Reader) : State :=
  { s with subscriptions := s.subscriptions.modify i fun sub => { sub with reader } }

/-- A step of the loop of a subscription. -/
def advance (s : State) (i : ℕ) (callback : Option Bool) (k : ReaderAction) : Option State :=
  (s.subscriptions[i]?).bind fun sub =>
    (sub.reader.internal sub.streamKeys (fun _ => callback) k).map (s.setReader i)

/-- `ack` of a delivery. -/
def ack (s : State) (d : ℕ) : Option (State × List Event) :=
  (s.calls[d]?).bind fun (i, attempt) => (s.subscriptions[i]?).bind fun sub =>
    if sub.reader.connected then
      let (server, events) := s.server.xack sub.group attempt.1
      some ({ s with server }, events.map .server)
    else none

end State

def step (env : ℕ → Environment) : Machine.Step State Action Event
  | s, .publish entry => (s.server.publish entry).map fun server => ({ s with server }, [])
  | s, .createGroup key group => some ({ s with server := s.server.createGroup key group }, [])
  | s, .subscribe group patterns count =>
    if s.server.Joins group patterns then
      let streamKeys := patterns.map streamKey
      some ({ s with subscriptions := s.subscriptions ++
        [⟨group, streamKeys, count, Reader.started streamKeys⟩] }, [])
    else none
  | s, .command i command =>
    (s.subscriptions[i]?).bind fun sub =>
      (s.server.serve sub command).bind fun (server, entries, k) =>
        (State.advance { s with server } i none k).map fun t =>
          (t, deliveredEvents sub.group entries)
  | s, .hand i =>
    (s.subscriptions[i]?).bind fun sub => (next? sub.reader.loop).bind fun attempt =>
      let d := s.calls.length
      (sub.reader.accept env d (rawEvent (env d) attempt.1 attempt.2)).map fun reader =>
        ({ s.setReader i reader with calls := s.calls ++ [(i, attempt)] },
          [.handed i sub.group attempt])
  | s, .returned i ok => (s.advance i (some ok) .processed).map fun t => (t, [])
  | s, .stopReclaim i => (s.advance i none .stopReclaim).map fun t => (t, [])
  | s, .slept i => (s.advance i none .slept).map fun t => (t, [])
  | s, .ack d => s.ack d
  -- a rejected entry that is not to come again is acknowledged
  | s, .nack d requeue => if requeue = some false then s.ack d else some (s, [])
  | s, .unsubscribe i =>
    (s.subscriptions[i]?).map fun sub => (s.setReader i sub.reader.unsubscribe, [])
  | s, .crash i =>
    (s.subscriptions[i]?).map fun sub =>
      (s.setReader i { sub.reader.unsubscribe with loop := .exited }, [])

end Groups
end Connectum.Events.Redis
