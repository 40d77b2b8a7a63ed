import Connectum.Async
import Connectum.Events.Redis.Reader
import Connectum.JsMap

/-! The two loops of a Redis subscription that call its handler: over the pending entries that it
reclaims, and over the new entries that it reads. -/
namespace Connectum.Events.Redis
open Async

/-- What the loops await; `xpending` asks for the deliveries of the entries just claimed. -/
inductive LoopCall where
  | xautoclaim (key : String)
  | xpending (key : String) (entries : List Entry)
  | xreadgroup (streamKeys : List String)
  | handler (attempt : Attempt)
  | sleep
  deriving DecidableEq, Repr

def LoopCall.Answer : LoopCall → Type
  | .xautoclaim _ => Except String (Option (List Entry))
  | .xpending _ _ => Except String (Option (List (String × Option ℕ)))
  | .xreadgroup _ => Except String (Option (List (List Entry)))
  | .handler _ => Except String Unit
  | .sleep => Unit

/-- The shared state is the running flag of the subscription. -/
abbrev LoopProgram (R : Type) := Async LoopCall LoopCall.Answer Bool R

/-- The number of deliveries of each entry; a failed XPENDING leaves the default. -/
def attempts (entries : List Entry)
    (pendingAll : Except String (Option (List (String × Option ℕ)))) : List Attempt :=
  let deliveryCounts := match pendingAll with
    | .ok (some pendingAll) =>
      pendingAll.foldl (fun (counts : List (String × ℕ)) (e : String × Option ℕ) =>
        JsMap.set counts e.1 (e.2.getD 2)) []
    | _ => []
  entries.map fun e => (e, (deliveryCounts.lookup e.entryId).getD 2)

/-- The loop over the claimed entries: `true` if it returns early, or the error of a handler. -/
def reclaimEntries : List Attempt → LoopProgram (Except String Bool)
  | [] => .done (.ok false)
  | attempt :: entries =>
    .sync id fun subscriptionRunning =>
      if subscriptionRunning then
        .await (.handler attempt) fun
        | .error error => .done (.error error)
        | .ok _ => reclaimEntries entries
      else .done (.ok true)

/-- One key of `reclaimPending`; its `catch` goes on with the next key. -/
def reclaimKey (key : String) : LoopProgram Bool :=
  .await (.xautoclaim key) fun
  | .error _ | .ok none | .ok (some []) => .done false
  | .ok (some entries) =>
    .await (.xpending key entries) fun pendingAll => do
      match ← reclaimEntries (attempts entries pendingAll) with
      | .error _ => return false
      | .ok returned => return returned

def reclaimPending : List String → LoopProgram Unit
  | [] => .done ()
  | key :: keys => do
    if ← reclaimKey key then return
    reclaimPending keys

/-- The periodic reclaim at the head of an iteration. -/
def reclaimDue (streamKeys : List String) (iterationCount : ℕ) : LoopProgram Unit :=
  if iterationCount % pendingReclaimInterval = 0 then reclaimPending streamKeys else .done ()

/-- The loop over the new entries, with a `try` of its own for each. -/
def receiveEntries : List Entry → LoopProgram Unit
  | [] => .done ()
  | entry :: entries => .await (.handler (entry, 1)) fun _ => receiveEntries entries

/-- `rounds` iterations of `while (subscriptionRunning)`. -/
def consumeLoop (streamKeys : List String) : ℕ → ℕ → LoopProgram Unit
  | 0, _ => .done ()
  | rounds + 1, iterationCount =>
    .sync id fun subscriptionRunning =>
      if subscriptionRunning then do
        let iterationCount := iterationCount + 1
        reclaimDue streamKeys iterationCount
        .await (.xreadgroup streamKeys) fun
        | .error _ => .sync id fun subscriptionRunning =>
          if subscriptionRunning then
            .await .sleep fun _ => consumeLoop streamKeys rounds iterationCount
          else .done ()
        | .ok none => consumeLoop streamKeys rounds iterationCount
        | .ok (some results) => do
          receiveEntries results.flatten
          consumeLoop streamKeys rounds iterationCount
      else .done ()

abbrev LoopTrace := List (Answered LoopCall LoopCall.Answer Bool)

/-- A call of the handler, and how it ended. -/
abbrev HandlerCall := Attempt × Except String Unit

/-- The calls of the handler up to the next claim or read. -/
def pass : LoopTrace → List HandlerCall
  | ⟨.handler attempt, outcome, _⟩ :: rest => (attempt, outcome) :: pass rest
  | ⟨.xpending _ _, _, _⟩ :: rest => pass rest
  | _ => []

/-- The first call that throws is the last one. -/
def Reclaimed : List Attempt → List HandlerCall → Prop
  | [], calls => calls = []
  | attempt :: entries, calls => ∃ outcome rest, calls = (attempt, outcome) :: rest ∧
      match outcome with
      | .error _ => rest = []
      | .ok _ => Reclaimed entries rest

/-- What an answer of the broker says about the calls of the handler that follow it. -/
def Dispatched : Answered LoopCall LoopCall.Answer Bool → LoopTrace → Prop
  | ⟨.xautoclaim _, .ok (some entries), _⟩, rest =>
    ∃ pendingAll, Reclaimed (attempts entries pendingAll) (pass rest)
  | ⟨.xreadgroup _, .ok (some results), _⟩, rest =>
    (pass rest).map Prod.fst = results.flatten.map fun entry => (entry, 1)
  | _, _ => True

def AllDispatched : LoopTrace → Prop
  | [] => True
  | event :: rest => Dispatched event rest ∧ AllDispatched rest

theorem AllDispatched.of_append {before after : LoopTrace}
    {event : Answered LoopCall LoopCall.Answer Bool}
    (h : AllDispatched (before ++ event :: after)) : Dispatched event after := by
  induction before with
  | nil => exact h.1
  | cons _ before ih => exact ih h.2

/-- A piece of a run that opens with a command, put before one that does. -/
def Segment (trace : LoopTrace) : Prop :=
  ∀ rest, pass rest = [] → AllDispatched rest →
    pass (trace ++ rest) = [] ∧ AllDispatched (trace ++ rest)

theorem Segment.append {first rest : LoopTrace} (hfirst : Segment first) (hrest : Segment rest) :
    Segment (first ++ rest) := by
  intro last hlast hdispatched
  obtain ⟨hpass, hdispatched⟩ := hrest last hlast hdispatched
  rw [List.append_assoc]
  exact hfirst _ hpass hdispatched

variable {entries : List Attempt} {streamKeys keys : List String} {key : String} {s t : Bool}
  {trace rest : LoopTrace}

theorem reclaimed_reclaimEntries {r : Except String Bool}
    (h : Exec (reclaimEntries entries) true trace t r) (hrunning : ∀ x ∈ trace, x.state = true)
    (hrest : pass rest = []) :
    Reclaimed entries (pass (trace ++ rest)) ∧
      (AllDispatched rest → AllDispatched (trace ++ rest)) ∧ t = true ∧ r ≠ .ok true := by
  induction entries generalizing trace with
  | nil =>
    obtain ⟨rfl, rfl, rfl⟩ := exec_done_iff.mp h
    exact ⟨hrest, id, rfl, by simp⟩
  | cons attempt entries ih =>
    obtain ⟨outcome, u, trace, rfl, hnext⟩ := exec_await_iff.mp (exec_sync_iff.mp h)
    obtain ⟨rfl, hafter⟩ := List.forall_mem_cons.mp hrunning
    cases outcome with
    | error e =>
      obtain ⟨rfl, rfl, rfl⟩ := exec_done_iff.mp hnext
      exact ⟨⟨.error e, _, rfl, hrest⟩, fun hdispatched => ⟨trivial, hdispatched⟩, rfl, by simp⟩
    | ok _ =>
      obtain ⟨hreclaimed, hdispatched, ht, hr⟩ := ih hnext hafter
      exact ⟨⟨.ok (), _, rfl, hreclaimed⟩, fun h => ⟨trivial, hdispatched h⟩, ht, hr⟩

theorem segment_reclaimKey {returned : Bool} (h : Exec (reclaimKey key) true trace t returned)
    (hrunning : ∀ x ∈ trace, x.state = true) :
    Segment trace ∧ t = true ∧ returned = false := by
  obtain ⟨result, u, trace, rfl, hresult⟩ := exec_await_iff.mp h
  obtain ⟨rfl, hafter⟩ := List.forall_mem_cons.mp hrunning
  match result with
  | .error _ | .ok none =>
    obtain ⟨rfl, rfl, rfl⟩ := exec_done_iff.mp hresult
    exact ⟨fun rest _ hdispatched => ⟨rfl, trivial, hdispatched⟩, rfl, rfl⟩
  | .ok (some []) =>
    obtain ⟨rfl, rfl, rfl⟩ := exec_done_iff.mp hresult
    exact ⟨fun rest hrest hdispatched => ⟨rfl, ⟨.ok none, hrest⟩, hdispatched⟩, rfl, rfl⟩
  | .ok (some (e :: entries)) =>
    obtain ⟨pendingAll, u, trace, rfl, hpending⟩ := exec_await_iff.mp hresult
    obtain ⟨rfl, hentry⟩ := List.forall_mem_cons.mp hafter
    obtain ⟨first, u, r, last, hentries, hlast, rfl⟩ := exec_bind hpending
    have hfirst : ∀ x ∈ first, x.state = true := fun x hx =>
      hentry x (List.mem_append_left last hx)
    have hnil : pass ([] : LoopTrace) = [] := rfl
    obtain ⟨-, -, rfl, hr⟩ := reclaimed_reclaimEntries hentries hfirst hnil
    have hreturned : last = [] ∧ t = true ∧ returned = false := by
      match r with
      | .error _ | .ok false =>
        obtain ⟨rfl, rfl, rfl⟩ := exec_done_iff.mp hlast
        exact ⟨rfl, rfl, rfl⟩
      | .ok true => exact absurd rfl hr
    obtain ⟨rfl, rfl, rfl⟩ := hreturned
    rw [List.append_nil]
    refine ⟨fun rest hrest hdispatched => ?_, rfl, rfl⟩
    obtain ⟨hreclaimed, hnext, -, -⟩ := reclaimed_reclaimEntries hentries hfirst hrest
    exact ⟨rfl, ⟨pendingAll, hreclaimed⟩, trivial, hnext hdispatched⟩

theorem segment_reclaimPending (h : Exec (reclaimPending keys) true trace t ())
    (hrunning : ∀ x ∈ trace, x.state = true) : Segment trace ∧ t = true := by
  induction keys generalizing trace with
  | nil =>
    obtain ⟨-, rfl, rfl⟩ := exec_done_iff.mp h
    exact ⟨fun rest hrest hdispatched => ⟨hrest, hdispatched⟩, rfl⟩
  | cons key keys ih =>
    obtain ⟨first, u, returned, last, hfirst, hlast, rfl⟩ := exec_bind h
    obtain ⟨hsegment, rfl, rfl⟩ := segment_reclaimKey hfirst fun x hx =>
      hrunning x (List.mem_append_left last hx)
    obtain ⟨hlast, ht⟩ := ih hlast fun x hx => hrunning x (List.mem_append_right first hx)
    exact ⟨hsegment.append hlast, ht⟩

/-- Every new entry is processed, whichever of them throw. -/
theorem handed_receiveEntries {entries : List Entry}
    (h : Exec (receiveEntries entries) s trace t ()) (hrest : pass rest = []) :
    (pass (trace ++ rest)).map Prod.fst = entries.map (fun entry => (entry, 1)) ∧
      (AllDispatched rest → AllDispatched (trace ++ rest)) := by
  induction entries generalizing s trace with
  | nil =>
    obtain ⟨-, rfl, -⟩ := exec_done_iff.mp h
    exact ⟨congrArg _ hrest, id⟩
  | cons entry entries ih =>
    obtain ⟨outcome, u, trace, rfl, hnext⟩ := exec_await_iff.mp h
    obtain ⟨hpass, hdispatched⟩ := ih hnext
    exact ⟨congrArg _ hpass, fun h => ⟨trivial, hdispatched h⟩⟩

theorem dispatched_consumeLoop {rounds iterationCount : ℕ}
    (h : Exec (consumeLoop streamKeys rounds iterationCount) s trace t ())
    (hrunning : ∀ x ∈ trace, x.state = true) : pass trace = [] ∧ AllDispatched trace := by
  induction rounds generalizing iterationCount s trace with
  | zero =>
    obtain ⟨-, rfl, -⟩ := exec_done_iff.mp h
    exact ⟨rfl, trivial⟩
  | succ rounds ih =>
    have hround := exec_sync_iff.mp h
    cases s with
    | false =>
      obtain ⟨-, rfl, -⟩ := exec_done_iff.mp hround
      exact ⟨rfl, trivial⟩
    | true =>
      obtain ⟨first, u, ⟨⟩, last, hreclaim, hread, rfl⟩ := exec_bind hround
      have hfirst : Segment first ∧ u = true := by
        unfold reclaimDue at hreclaim
        split at hreclaim
        · exact segment_reclaimPending hreclaim fun x hx =>
            hrunning x (List.mem_append_left last hx)
        · obtain ⟨-, rfl, rfl⟩ := exec_done_iff.mp hreclaim
          exact ⟨fun rest hrest hdispatched => ⟨hrest, hdispatched⟩, rfl⟩
      obtain ⟨hsegment, rfl⟩ := hfirst
      have hlast : ∀ x ∈ last, x.state = true := fun x hx =>
        hrunning x (List.mem_append_right first hx)
      obtain ⟨results, u, last, rfl, hresults⟩ := exec_await_iff.mp hread
      obtain ⟨rfl, hafter⟩ := List.forall_mem_cons.mp hlast
      suffices h : Dispatched ⟨.xreadgroup streamKeys, results, true⟩ last ∧ AllDispatched last by
        exact hsegment _ rfl h
      match results with
      | .error e =>
        obtain ⟨⟨⟩, u, rest, rfl, hretry⟩ := exec_await_iff.mp (exec_sync_iff.mp hresults)
        exact ⟨trivial, trivial, (ih hretry (List.forall_mem_cons.mp hafter).2).2⟩
      | .ok none => exact ⟨trivial, (ih hresults hafter).2⟩
      | .ok (some results) =>
        obtain ⟨received, u, ⟨⟩, rest, hreceive, hnext, rfl⟩ := exec_bind hresults
        obtain ⟨hpass, hdispatched⟩ := ih hnext fun x hx =>
          hafter x (List.mem_append_right received hx)
        obtain ⟨hhanded, hall⟩ := handed_receiveEntries hreceive hpass
        exact ⟨hhanded, hall hdispatched⟩

/-- The new entries that a read returns are all handed to the handler, whichever of them throw. -/
theorem received_handed {rounds iterationCount : ℕ} {before after : LoopTrace} {u : Bool}
    {results : List (List Entry)}
    (h : Exec (consumeLoop streamKeys rounds iterationCount) s
      (before ++ ⟨.xreadgroup keys, .ok (some results), u⟩ :: after) t ())
    (hrunning : ∀ x ∈ before ++ ⟨.xreadgroup keys, .ok (some results), u⟩ :: after,
      x.state = true) :
    (pass after).map Prod.fst = results.flatten.map fun entry => (entry, 1) :=
  (dispatched_consumeLoop h hrunning).2.of_append

/-- All the entries are handed over if and only if none of them throws but the last. -/
theorem Reclaimed.all_iff {calls : List HandlerCall} {throws : Entry → Prop}
    (h : Reclaimed entries calls)
    (hthrows : ∀ call ∈ calls, call.2.isOk = false ↔ throws call.1.1) :
    calls.map (fun call => call.1.1) = entries.map Prod.fst ↔
      ∀ attempt ∈ entries.dropLast, ¬ throws attempt.1 := by
  induction entries generalizing calls with
  | nil => simp [show calls = [] from h]
  | cons attempt entries ih =>
    obtain ⟨outcome, rest, rfl, hrest⟩ := h
    obtain ⟨hfirst, hlater⟩ := List.forall_mem_cons.mp hthrows
    rw [List.map_cons, List.map_cons, List.cons_inj_right]
    cases outcome with
    | error e =>
      have hthrown : throws attempt.1 := hfirst.mp rfl
      obtain rfl : rest = [] := hrest
      cases entries with
      | nil => simp
      | cons next entries => simp [hthrown]
    | ok _ =>
      have hreturned : ¬ throws attempt.1 := fun h => Bool.noConfusion (hfirst.mpr h)
      rw [ih hrest hlater]
      cases entries with
      | nil => simp
      | cons next entries => simp [hreturned]

theorem map_fst_attempts (entries : List Entry)
    (pendingAll : Except String (Option (List (String × Option ℕ)))) :
    (attempts entries pendingAll).map Prod.fst = entries := by
  simp [attempts, Function.comp_def]

/-- In every run of the loop, the entries of a claim are all handed to the handler if and only if
none of them throws but the last: the `catch` around the entries of a key ends them all. -/
theorem claimed_handed_iff {rounds iterationCount : ℕ} {before after : LoopTrace} {u : Bool}
    {entries : List Entry} {throws : Entry → Prop}
    (h : Exec (consumeLoop streamKeys rounds iterationCount) s
      (before ++ ⟨.xautoclaim key, .ok (some entries), u⟩ :: after) t ())
    (hrunning : ∀ x ∈ before ++ ⟨.xautoclaim key, .ok (some entries), u⟩ :: after, x.state = true)
    (hthrows : ∀ call ∈ pass after, call.2.isOk = false ↔ throws call.1.1) :
    (pass after).map (fun call => call.1.1) = entries ↔
      ∀ entry ∈ entries.dropLast, ¬ throws entry := by
  obtain ⟨pendingAll, hreclaimed⟩ := (dispatched_consumeLoop h hrunning).2.of_append
  have hall := hreclaimed.all_iff hthrows
  rw [map_fst_attempts] at hall
  have hlast : entries.dropLast = (attempts entries pendingAll).dropLast.map Prod.fst := by
    rw [List.map_dropLast, map_fst_attempts]
  rw [hall, hlast, List.forall_mem_map]

/-- An entry that always throws and is always claimed first keeps the others from the handler. -/
theorem starved_of_poison {rounds iterationCount : ℕ} {before after : LoopTrace} {u : Bool}
    {poison : Entry} {entries : List Entry}
    (h : Exec (consumeLoop streamKeys rounds iterationCount) s
      (before ++ ⟨.xautoclaim key, .ok (some (poison :: entries)), u⟩ :: after) t ())
    (hrunning : ∀ x ∈ before ++ ⟨.xautoclaim key, .ok (some (poison :: entries)), u⟩ :: after,
      x.state = true)
    (hpoison : ∀ call ∈ pass after, call.1.1 = poison → call.2.isOk = false) :
    (pass after).map (fun call => call.1.1) = [poison] := by
  obtain ⟨pendingAll, outcome, rest, hpass, hrest⟩ :=
    (dispatched_consumeLoop h hrunning).2.of_append
  have hthrown := hpoison _ (by rw [hpass]; exact List.mem_cons_self) rfl
  cases outcome with
  | error e =>
    obtain rfl : rest = [] := hrest
    rw [hpass]
    rfl
  | ok _ => exact Bool.noConfusion hthrown

/-- A broker with these stale entries of one stream, and a handler that throws for some. -/
def respondPending (entries : List Entry) (throws : Entry → Bool) :
    (q : LoopCall) → Bool → q.Answer × Bool
  | .xautoclaim _, s => (.ok (some entries), s)
  | .xpending _ _, s => (.ok none, s)
  | .xreadgroup _, s => (.ok none, s)
  | .handler attempt, s => (if throws attempt.1 then .error "handler failed" else .ok (), s)
  | .sleep, s => ((), s)

/-- The fifth iteration of the loop. -/
def fifthIteration (entries : List Entry) (throws : Entry → Bool) : LoopTrace :=
  (runIn (respondPending entries throws) (consumeLoop ["orders"] 1 4) true).1

theorem exec_fifthIteration (entries : List Entry) (throws : Entry → Bool) :
    Exec (consumeLoop ["orders"] 1 4) true (fifthIteration entries throws)
      (runIn (respondPending entries throws) (consumeLoop ["orders"] 1 4) true).2.1 () :=
  exec_runIn _ _ _

def created : Entry := ⟨"orders", "1-0", []⟩

def paid : Entry := ⟨"orders", "2-0", []⟩

theorem claimed_handed_iff_created_paid :
    (pass ((fifthIteration [created, paid] fun e => e = paid).drop 1)).map
      (fun call => call.1.1) = [created, paid] :=
  (@claimed_handed_iff ["orders"] "orders" true true 1 4 [] _ true [created, paid] (· = paid)
    (exec_fifthIteration [created, paid] fun e => e = paid) (by decide) (by decide)).mpr (by decide)

/-- `created` throws at each attempt, and `paid` is claimed with it but not handed over. -/
theorem later_entry_not_handed :
    ¬ ∀ (streamKeys : List String) (rounds iterationCount : ℕ) (s t : Bool) (trace : LoopTrace),
      Exec (consumeLoop streamKeys rounds iterationCount) s trace t () →
      (∀ x ∈ trace, x.state = true) →
      ∀ (before after : LoopTrace) (key : String) (entries : List Entry) (u : Bool),
        trace = before ++ ⟨.xautoclaim key, .ok (some entries), u⟩ :: after →
        (pass after).map (fun call => call.1.1) = entries := by
  intro h
  have hhanded := h ["orders"] 1 4 true _ _
    (exec_fifthIteration [created, paid] fun e => e = created) (by decide) []
    ((fifthIteration [created, paid] fun e => e = created).drop 1) "orders" [created, paid] true rfl
  exact absurd hhanded (by decide)

end Connectum.Events.Redis
