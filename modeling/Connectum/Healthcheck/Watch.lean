import Connectum.Changes
import Connectum.Healthcheck.HttpHandler
import Connectum.Healthcheck.Registry
import Connectum.Machine

/-! The streams of health updates, while the registry is written. -/
namespace Connectum.Healthcheck
open Machine HealthcheckManager

/-- Where the generator of a `watch` is. -/
inductive WatchPoint where
  | start
  | yielded
  | sleeping
  | returned
  deriving DecidableEq, Repr

structure Watch where
  service : String
  point : WatchPoint := .start
  currentStatus : Option ServingStatus := none
  aborted : Bool := false
  deriving DecidableEq, Repr

/-- The status is read from the registry, a message is sent, or the stream ends. -/
inductive WatchEvent where
  | read (status : ServingStatus)
  | sent (status : ServingStatus)
  | returned
  deriving DecidableEq, Repr

namespace Watch
variable (manager : HealthcheckManager) (w : Watch)

/-- The next message is asked for. -/
def next : Option (Watch × List WatchEvent) :=
  match w.point with
  | .start =>
    let currentStatus := resolveServiceStatus manager w.service
    some ({ w with point := .yielded, currentStatus := some currentStatus },
      [.read currentStatus, .sent currentStatus])
  | .yielded =>
    if w.aborted then some ({ w with point := .returned }, [.returned])
    else some ({ w with point := .sleeping }, [])
  | .sleeping | .returned => none

/-- The interval is over. -/
def timeout : Option (Watch × List WatchEvent) :=
  match w.point with
  | .sleeping =>
    let newStatus := resolveServiceStatus manager w.service
    if some newStatus ≠ w.currentStatus then
      some ({ w with point := .yielded, currentStatus := some newStatus },
        [.read newStatus, .sent newStatus])
    else some (w, [.read newStatus])
  | .start | .yielded | .returned => none

/-- The client disconnects, which rejects the timer. -/
def abort : Watch × List WatchEvent :=
  match w.point with
  | .sleeping => ({ w with aborted := true, point := .returned }, [.returned])
  | .start | .yielded | .returned => ({ w with aborted := true }, [])

end Watch

namespace Watching

structure State where
  manager : HealthcheckManager := {}
  watches : List Watch := []
  deriving DecidableEq, Repr

inductive Action where
  | call (call : Call)
  | watch (service : String)
  | next (i : ℕ)
  | timeout (i : ℕ)
  | abort (i : ℕ)
  deriving DecidableEq, Repr

inductive Event where
  | called (call : Call)
  | watch (i : ℕ) (e : WatchEvent)
  deriving DecidableEq, Repr

/-- The generator of a stream goes on. -/
def resume (s : State) (i : ℕ) (f : Watch → Option (Watch × List WatchEvent)) :
    Option (State × List Event) := do
  let w ← s.watches[i]?
  let (w, events) ← f w
  return ({ s with watches := s.watches.set i w }, events.map (.watch i))

def step : Step State Action Event
  | s, .call call => some ({ s with manager := (s.manager.perform call).2 }, [.called call])
  | s, .watch service => some ({ s with watches := s.watches ++ [{ service }] }, [])
  | s, .next i => resume s i (Watch.next s.manager)
  | s, .timeout i => resume s i (Watch.timeout s.manager)
  | s, .abort i => resume s i fun w => some w.abort

/-- The calls of the registry. -/
def Event.call? : Event → Option Call
  | .called call => some call
  | .watch _ _ => none

/-- What a stream does. -/
def Event.of? (i : ℕ) : Event → Option WatchEvent
  | .called _ => none
  | .watch j e => if j = i then some e else none

def calls (log : List Event) : List Call := log.filterMap Event.call?

def history (i : ℕ) (log : List Event) : List WatchEvent := log.filterMap (Event.of? i)

end Watching

def WatchEvent.read? : WatchEvent → Option ServingStatus
  | .read status => some status
  | .sent _ | .returned => none

def WatchEvent.sent? : WatchEvent → Option ServingStatus
  | .sent status => some status
  | .read _ | .returned => none

def reads (events : List WatchEvent) : List ServingStatus := events.filterMap WatchEvent.read?

def sent (events : List WatchEvent) : List ServingStatus := events.filterMap WatchEvent.sent?

namespace Watch
variable {manager : HealthcheckManager} {w w' : Watch} {events out : List WatchEvent}

/-- What a generator has read and sent so far. -/
structure Faithful (w : Watch) (events : List WatchEvent) : Prop where
  start : w.point = .start ↔ reads events = []
  current : w.currentStatus = (reads events).getLast?
  sent : sent events = (reads events).destutter (· ≠ ·)
  sleeping : w.point = .sleeping → w.aborted = false
  returned : w.point = .returned → w.aborted = true

/-- A step of a generator. -/
inductive Stepped (manager : HealthcheckManager) (w : Watch) : Watch → List WatchEvent → Prop where
  | started (hat : w.point = .start) : Stepped manager w
      { w with
        point := .yielded
        currentStatus := some (resolveServiceStatus manager w.service) }
      [.read (resolveServiceStatus manager w.service),
        .sent (resolveServiceStatus manager w.service)]
  | ended (hat : w.point = .yielded) (haborted : w.aborted = true) :
      Stepped manager w { w with point := .returned } [.returned]
  | slept (hat : w.point = .yielded) (hopen : w.aborted = false) :
      Stepped manager w { w with point := .sleeping } []
  | changed (hat : w.point = .sleeping)
      (hne : some (resolveServiceStatus manager w.service) ≠ w.currentStatus) :
      Stepped manager w
        { w with
          point := .yielded
          currentStatus := some (resolveServiceStatus manager w.service) }
        [.read (resolveServiceStatus manager w.service),
          .sent (resolveServiceStatus manager w.service)]
  | same (hat : w.point = .sleeping)
      (heq : some (resolveServiceStatus manager w.service) = w.currentStatus) :
      Stepped manager w w [.read (resolveServiceStatus manager w.service)]
  | woken (hat : w.point = .sleeping) :
      Stepped manager w { w with aborted := true, point := .returned } [.returned]
  | aborted (hat : w.point ≠ .sleeping) : Stepped manager w { w with aborted := true } []

theorem stepped_next (h : w.next manager = some (w', out)) : Stepped manager w w' out := by
  unfold next at h
  split at h
  next hat =>
    cases h
    exact .started hat
  next hat =>
    split at h
    next haborted =>
      cases h
      exact .ended hat haborted
    next hopen =>
      cases h
      exact .slept hat (Bool.eq_false_iff.mpr hopen)
  all_goals cases h

theorem stepped_timeout (h : w.timeout manager = some (w', out)) : Stepped manager w w' out := by
  unfold timeout at h
  split at h
  next hat =>
    dsimp only at h
    split at h
    next hne =>
      cases h
      exact .changed hat hne
    next heq =>
      cases h
      exact .same hat (not_not.mp heq)
  all_goals cases h

theorem stepped_abort (manager : HealthcheckManager) (w : Watch) :
    Stepped manager w w.abort.1 w.abort.2 := by
  unfold abort
  split
  next hat => exact .woken hat
  all_goals
    next hat =>
      exact .aborted (by rw [hat]; exact WatchPoint.noConfusion)

theorem reads_append : reads (events ++ out) = reads events ++ reads out := List.filterMap_append

theorem sent_append : Healthcheck.sent (events ++ out) =
    Healthcheck.sent events ++ Healthcheck.sent out := List.filterMap_append

/-- A status is read, and sent if it is not what was read before. -/
theorem Faithful.read {status : ServingStatus} (h : Faithful w events)
    (hreads : reads out = [status])
    (hsent : Healthcheck.sent out = if w.currentStatus = some status then [] else [status])
    (hcurrent : w'.currentStatus = some status) (hpoint : w'.point ≠ .start)
    (hsleeping : w'.point = .sleeping → w'.aborted = false)
    (hreturned : w'.point ≠ .returned) : Faithful w' (events ++ out) where
  start := by
    rw [reads_append, hreads]
    simp [hpoint]
  current := by rw [reads_append, hreads, List.getLast?_concat, hcurrent]
  sent := by
    rw [sent_append, reads_append, hreads, hsent, h.sent, h.current, Changes.destutter_concat]
  sleeping := hsleeping
  returned hat := absurd hat hreturned

/-- Nothing is read. -/
theorem Faithful.quiet (h : Faithful w events) (hreads : reads out = [])
    (hsent : Healthcheck.sent out = []) (hcurrent : w'.currentStatus = w.currentStatus)
    (hpoint : w'.point = .start ↔ w.point = .start)
    (hsleeping : w'.point = .sleeping → w'.aborted = false)
    (hreturned : w'.point = .returned → w'.aborted = true) : Faithful w' (events ++ out) where
  start := by rw [reads_append, hreads, List.append_nil, hpoint, h.start]
  current := by rw [reads_append, hreads, List.append_nil, hcurrent, h.current]
  sent := by rw [sent_append, reads_append, hreads, hsent, List.append_nil, List.append_nil, h.sent]
  sleeping := hsleeping
  returned := hreturned

theorem Faithful.step (h : Faithful w events) (hstep : Stepped manager w w' out) :
    Faithful w' (events ++ out) := by
  cases hstep with
  | started hat =>
    have hnone : w.currentStatus = none := by rw [h.current, h.start.mp hat, List.getLast?_nil]
    exact h.read rfl (by rw [hnone]; rfl) rfl (by simp) (by simp) (by simp)
  | ended hat haborted => exact h.quiet rfl rfl rfl (by simp [hat]) (by simp) fun _ => haborted
  | slept hat hopen => exact h.quiet rfl rfl rfl (by simp [hat]) (fun _ => hopen) (by simp)
  | changed hat hne =>
    exact h.read rfl (by rw [if_neg hne.symm]; rfl) rfl (by simp) (by simp) (by simp)
  | same hat heq =>
    exact h.read rfl (by rw [if_pos heq.symm]; rfl) heq.symm (by simp [hat]) h.sleeping
      (by simp [hat])
  | woken hat => exact h.quiet rfl rfl rfl (by simp [hat]) (by simp) (by simp)
  | aborted hat => exact h.quiet rfl rfl rfl Iff.rfl (fun hs => absurd hs hat) (by simp)

theorem Stepped.service (h : Stepped manager w w' out) : w'.service = w.service := by
  cases h <;> rfl

/-- Every status that is read is that of the registry. -/
theorem Stepped.reads_eq (h : Stepped manager w w' out) {status : ServingStatus}
    (hread : .read status ∈ out) : status = resolveServiceStatus manager w.service := by
  cases h <;> simp_all

/-- A stream that is aborted reads nothing after its first message. -/
theorem Stepped.silent (h : Stepped manager w w' out) (haborted : w.aborted = true)
    (hpoint : w.point = .yielded ∨ w.point = .returned) :
    w'.aborted = true ∧ (w'.point = .yielded ∨ w'.point = .returned) ∧
      reads out = [] ∧ Healthcheck.sent out = [] := by
  cases h with
  | started hat | changed hat | same hat | woken hat => simp [hat] at hpoint
  | ended => exact ⟨haborted, .inr rfl, rfl, rfl⟩
  | slept _ hopen => cases hopen.symm.trans haborted
  | aborted => exact ⟨rfl, hpoint, rfl, rfl⟩

/-- A stream that sleeps knows the status when the interval is over. -/
theorem exists_timeout (manager : HealthcheckManager) (hat : w.point = .sleeping) :
    ∃ w' out, w.timeout manager = some (w', out) ∧
      w'.currentStatus = some (resolveServiceStatus manager w.service) := by
  unfold timeout
  rw [hat]
  dsimp only
  split
  · exact ⟨_, _, rfl, rfl⟩
  next heq => exact ⟨w, _, rfl, (not_not.mp heq).symm⟩

end Watch

namespace Watching
variable {s t : State} {a : Action} {log out rest : List Event} {actions more : List Action}
  {i j : ℕ} {w : Watch}

/-- What a step can do. -/
inductive Stepped (s : State) : State → List Event → Prop where
  | called (call : Call) :
      Stepped s { s with manager := (s.manager.perform call).2 } [.called call]
  | opened (service : String) : Stepped s { s with watches := s.watches ++ [{ service }] } []
  | resumed {i : ℕ} {w w' : Watch} {events : List WatchEvent} (hw : s.watches[i]? = some w)
      (hstep : Watch.Stepped s.manager w w' events) :
      Stepped s { s with watches := s.watches.set i w' } (events.map (.watch i))

theorem stepped_resume {f : Watch → Option (Watch × List WatchEvent)}
    (hf : ∀ w w' events, f w = some (w', events) → Watch.Stepped s.manager w w' events)
    (h : resume s i f = some (t, out)) : Stepped s t out := by
  obtain ⟨w, hw, h⟩ := Option.bind_eq_some_iff.mp h
  obtain ⟨⟨w', events⟩, hstep, h⟩ := Option.bind_eq_some_iff.mp h
  cases h
  exact .resumed hw (hf w w' events hstep)

theorem step_cases (h : step s a = some (t, out)) : Stepped s t out := by
  cases a with
  | call call =>
    cases h
    exact .called call
  | watch service =>
    cases h
    exact .opened service
  | next i => exact stepped_resume (fun _ _ _ => Watch.stepped_next) h
  | timeout i => exact stepped_resume (fun _ _ _ => Watch.stepped_timeout) h
  | abort i =>
    refine stepped_resume (fun w w' events hw => ?_) h
    have hstepped := Watch.stepped_abort s.manager w
    rwa [Option.some.inj hw] at hstepped

theorem history_map_self (events : List WatchEvent) :
    history i (events.map (.watch i)) = events := by
  rw [history, List.filterMap_map]
  simp [Function.comp_def, Event.of?]

theorem history_map_of_ne (hne : j ≠ i) (events : List WatchEvent) :
    history i (events.map (.watch j)) = [] := by
  simp [history, Event.of?, hne]

theorem calls_map (events : List WatchEvent) : calls (events.map (.watch i)) = [] := by
  simp [calls, Event.call?]

theorem history_append (more : List Event) :
    history i (log ++ more) = history i log ++ history i more := List.filterMap_append

theorem calls_append (more : List Event) : calls (log ++ more) = calls log ++ calls more :=
  List.filterMap_append

theorem after_concat (before : List Call) (call : Call) :
    after (before ++ [call]) = ((after before).perform call).2 := List.foldl_append

/-- A reading is the status that the registry has then. -/
def Reads (s : State) (before : List Event) (e : Event) : Prop :=
  ∀ i w status, s.watches[i]? = some w → e = .watch i (.read status) →
    status = resolveServiceStatus (after (calls before)) w.service

structure Inv (s : State) (log : List Event) : Prop where
  manager : s.manager = after (calls log)
  watches : ∀ i w, s.watches[i]? = some w → Watch.Faithful w (history i log)
  absent : ∀ i, s.watches.length ≤ i → history i log = []
  reads : Justified (Reads s) log

theorem inv_init : Inv {} [] where
  manager := rfl
  watches i w hw := by simp at hw
  absent _ _ := rfl
  reads := justified_nil

/-- The streams stay in their places. -/
theorem Reads.keep (hkeep : ∀ i w, t.watches[i]? = some w → i < s.watches.length →
      ∃ w', s.watches[i]? = some w' ∧ w'.service = w.service)
    (hnew : ∀ i e, s.watches.length ≤ i → .watch i e ∉ log) (h : Justified (Reads s) log) :
    Justified (Reads t) log := by
  rintro before e after rfl i w status hw rfl
  have hi : i < s.watches.length := by
    by_contra hi
    exact hnew i (.read status) (not_lt.mp hi) (by simp)
  obtain ⟨w', hw', hservice⟩ := hkeep i w hw hi
  rw [← hservice]
  exact h before _ after rfl i w' status hw' rfl

theorem not_mem_of_history (h : history i log = []) (e : WatchEvent) : .watch i e ∉ log := by
  intro he
  have hmem : e ∈ history i log := List.mem_filterMap.mpr ⟨_, he, by simp [Event.of?]⟩
  rw [h] at hmem
  cases hmem

/-- The registry is not written while a stream goes on. -/
theorem justified_map (h : Justified (Reads s) log) (events : List WatchEvent)
    (hreads : ∀ e ∈ events, Reads s log (.watch i e)) :
    Justified (Reads s) (log ++ events.map (.watch i)) := by
  induction events using List.reverseRecOn with
  | nil => simpa using h
  | append_singleton events e ih =>
    rw [List.map_append, ← List.append_assoc]
    refine justified_concat.mpr ⟨ih fun e' he' => hreads e' (List.mem_append_left _ he'), ?_⟩
    unfold Reads
    rw [calls_append, calls_map, List.append_nil]
    exact hreads e (List.mem_append_right _ (List.mem_singleton_self e))

theorem Inv.step (h : Inv s log) (hstep : Watching.step s a = some (t, out)) :
    Inv t (log ++ out) := by
  cases step_cases hstep with
  | called call =>
    have hcalls : calls (log ++ [.called call]) = calls log ++ [call] := calls_append _
    have hhistory (i : ℕ) : history i (log ++ [.called call]) = history i log := by
      rw [history_append]
      exact List.append_nil _
    refine ⟨?_, fun i w hw => ?_, fun i hi => ?_, justified_concat.mpr ⟨h.reads, ?_⟩⟩
    · rw [hcalls, after_concat, ← h.manager]
    · rw [hhistory]
      exact h.watches i w hw
    · rw [hhistory]
      exact h.absent i hi
    · rintro i w status - ⟨⟩
  | opened service =>
    rw [List.append_nil]
    refine ⟨h.manager, fun i w hw => ?_, fun i hi => ?_, ?_⟩
    · rcases lt_trichotomy i s.watches.length with hlt | rfl | hlt
      · rw [List.getElem?_append_left hlt] at hw
        exact h.watches i w hw
      · rw [List.getElem?_concat_length] at hw
        obtain rfl := Option.some.inj hw
        rw [h.absent _ le_rfl]
        exact ⟨by simp [Healthcheck.reads], rfl, rfl, by simp, by simp⟩
      · rw [List.getElem?_eq_none (by rw [List.length_append]; exact hlt)] at hw
        cases hw
    · simp only [List.length_append, List.length_singleton] at hi
      exact h.absent i (by omega)
    · refine Reads.keep (fun i w hw hi => ?_) (fun i e hi => ?_) h.reads
      · rw [List.getElem?_append_left hi] at hw
        exact ⟨w, hw, rfl⟩
      · exact not_mem_of_history (h.absent i hi) e
  | @resumed i w w' events hw hwstep =>
    have hi : i < s.watches.length := (List.getElem?_eq_some_iff.mp hw).1
    have hset : (s.watches.set i w')[i]? = some w' := List.getElem?_set_self hi
    refine ⟨?_, fun j v hv => ?_, fun j hj => ?_, ?_⟩
    · rw [calls_append, calls_map, List.append_nil]
      exact h.manager
    · by_cases hij : i = j
      · subst hij
        obtain rfl := Option.some.inj (hset.symm.trans hv)
        rw [history_append, history_map_self]
        exact (h.watches i w hw).step hwstep
      · rw [List.getElem?_set_ne hij] at hv
        rw [history_append, history_map_of_ne hij, List.append_nil]
        exact h.watches j v hv
    · rw [List.length_set] at hj
      rw [history_append, history_map_of_ne (by omega), List.append_nil]
      exact h.absent j hj
    · have hkeep : Justified (Reads { s with watches := s.watches.set i w' }) log := by
        refine Reads.keep (fun j v hv _ => ?_) (fun j e hj => ?_) h.reads
        · by_cases hij : i = j
          · subst hij
            obtain rfl := Option.some.inj (hset.symm.trans hv)
            exact ⟨w, hw, hwstep.service.symm⟩
          · rw [List.getElem?_set_ne hij] at hv
            exact ⟨v, hv, rfl⟩
        · exact not_mem_of_history (h.absent j hj) e
      refine justified_map hkeep events fun e he => ?_
      rintro j v status hv heq
      obtain ⟨rfl, rfl⟩ := Event.watch.inj heq
      obtain rfl := Option.some.inj (hset.symm.trans hv)
      rw [hwstep.service, ← h.manager]
      exact hwstep.reads_eq he

theorem inv_run (hrun : run step {} actions = some (s, log)) : Inv s log := by
  have h := run_invariant (fun s log a t out h hstep => Inv.step h hstep) inv_init hrun
  rwa [List.nil_append] at h

/-- The stream has ended, or ends when the next message is asked for. -/
def Ending (i : ℕ) (s : State) : Prop :=
  ∃ w, s.watches[i]? = some w ∧ w.aborted = true ∧ (w.point = .yielded ∨ w.point = .returned)

theorem Ending.step (h : Ending i s) (hstep : Watching.step s a = some (t, out)) :
    Ending i t ∧ reads (history i out) = [] ∧ sent (history i out) = [] := by
  obtain ⟨w, hw, haborted, hpoint⟩ := h
  have hi : i < s.watches.length := (List.getElem?_eq_some_iff.mp hw).1
  cases step_cases hstep with
  | called => exact ⟨⟨w, hw, haborted, hpoint⟩, rfl, rfl⟩
  | opened =>
    refine ⟨⟨w, ?_, haborted, hpoint⟩, rfl, rfl⟩
    rwa [List.getElem?_append_left hi]
  | @resumed j v v' events hv hwstep =>
    by_cases hij : j = i
    · subst hij
      obtain rfl := Option.some.inj (hv.symm.trans hw)
      obtain ⟨haborted', hpoint', hreads, hsent⟩ := hwstep.silent haborted hpoint
      rw [history_map_self]
      exact ⟨⟨v', List.getElem?_set_self hi, haborted', hpoint'⟩, hreads, hsent⟩
    · rw [history_map_of_ne hij]
      refine ⟨⟨w, ?_, haborted, hpoint⟩, rfl, rfl⟩
      rwa [List.getElem?_set_ne hij]

theorem Ending.run (h : Ending i s) (hrun : Machine.run Watching.step s more = some (t, rest)) :
    reads (history i rest) = [] ∧ sent (history i rest) = [] := by
  have hinv := run_invariant (I := fun u l => Ending i u ∧ reads (history i l) = [] ∧
      sent (history i l) = []) (l := []) ?_ ⟨h, rfl, rfl⟩ hrun
  · exact hinv.2
  · rintro u l a v out ⟨hu, hreads, hsent⟩ hstep
    obtain ⟨hv, hreads', hsent'⟩ := hu.step hstep
    rw [history_append, Watch.reads_append, Watch.sent_append, hreads, hsent, hreads', hsent']
    exact ⟨hv, rfl, rfl⟩

/-- The last message of a stream is the status that it has read last. -/
theorem Inv.getLast?_sent (h : Inv s log) (hw : s.watches[i]? = some w) :
    (sent (history i log)).getLast? = w.currentStatus := by
  rw [(h.watches i w hw).sent, Changes.getLast?_destutter, (h.watches i w hw).current]

theorem resume_eq {f : Watch → Option (Watch × List WatchEvent)} {w' : Watch}
    {events : List WatchEvent} (hw : s.watches[i]? = some w) (hf : f w = some (w', events)) :
    resume s i f =
      some ({ s with watches := s.watches.set i w' }, events.map (.watch i)) := by
  rw [resume, hw, Option.bind_eq_bind, Option.bind_some, hf]
  rfl

/-- An open stream gets to know the status, if it goes on. -/
theorem exists_update (h : Inv s log) (hw : s.watches[i]? = some w) (hopen : w.aborted = false) :
    ∃ more t rest, (∀ a ∈ more, a = .next i ∨ a = .timeout i) ∧
      Machine.run step s more = some (t, rest) ∧ t.manager = s.manager ∧
      ∃ w', t.watches[i]? = some w' ∧
        w'.currentStatus = some (resolveServiceStatus s.manager w.service) := by
  have hi : i < s.watches.length := (List.getElem?_eq_some_iff.mp hw).1
  have hself (w' : Watch) : (s.watches.set i w')[i]? = some w' := List.getElem?_set_self hi
  cases hpoint : w.point with
  | start =>
    have hnext : w.next s.manager = some ({ w with
        point := .yielded
        currentStatus := some (resolveServiceStatus s.manager w.service) },
        [.read (resolveServiceStatus s.manager w.service),
          .sent (resolveServiceStatus s.manager w.service)]) := by
      rw [Watch.next, hpoint]
    exact ⟨[.next i], _, _, by simp, run_singleton.mpr (resume_eq hw hnext), rfl, _, hself _, rfl⟩
  | yielded =>
    have hnext : w.next s.manager = some ({ w with point := .sleeping }, []) := by
      rw [Watch.next, hpoint]
      simp [hopen]
    have hsleeping : ({ w with point := .sleeping } : Watch).point = .sleeping := rfl
    obtain ⟨w', events, htimeout, hcurrent⟩ := Watch.exists_timeout s.manager hsleeping
    refine ⟨[.next i, .timeout i], _, _, by simp, run_cons.mpr ⟨_, _, _, resume_eq hw hnext,
      run_singleton.mpr (resume_eq (hself _) htimeout), rfl⟩, rfl, w', ?_, hcurrent⟩
    rw [List.set_set]
    exact hself w'
  | sleeping =>
    obtain ⟨w', events, htimeout, hcurrent⟩ := Watch.exists_timeout s.manager hpoint
    exact ⟨[.timeout i], _, _, by simp, run_singleton.mpr (resume_eq hw htimeout), rfl, w', hself _,
      hcurrent⟩
  | returned => cases hopen.symm.trans ((h.watches i w hw).returned hpoint)

/-- However calls of the registry and streams interleave: a stream sends exactly the changes among
the statuses that it reads, each the one that the registry has then. Once it is aborted nothing
follows its first message; an open stream gets to know the present status if its client keeps
asking. -/
theorem watch_changes (hrun : run step {} actions = some (s, log))
    (hw : s.watches[i]? = some w) :
    sent (history i log) = (reads (history i log)).destutter (· ≠ ·) ∧
      Justified (fun before e => ∀ status, e = .watch i (.read status) →
        status = resolveServiceStatus (after (calls before)) w.service) log ∧
      (w.aborted = true → reads (history i log) ≠ [] → ∀ more t rest,
        run step s more = some (t, rest) → sent (history i rest) = []) ∧
      (w.aborted = false → ∃ more t rest, (∀ a ∈ more, a = .next i ∨ a = .timeout i) ∧
        run step s more = some (t, rest) ∧ (sent (history i (log ++ rest))).getLast? =
          some (resolveServiceStatus (after (calls log)) w.service)) := by
  have h := inv_run hrun
  have hfaithful := h.watches i w hw
  refine ⟨hfaithful.sent, ?_, fun haborted hread more t rest hmore => ?_, fun hopen => ?_⟩
  · intro before e rest hlog status he
    exact h.reads before e rest hlog i w status hw he
  · have hending : Ending i s := by
      refine ⟨w, hw, haborted, ?_⟩
      cases hpoint : w.point with
      | start => exact absurd (hfaithful.start.mp hpoint) hread
      | yielded => exact .inl rfl
      | sleeping => cases haborted.symm.trans (hfaithful.sleeping hpoint)
      | returned => exact .inr rfl
    exact (hending.run hmore).2
  · obtain ⟨more, t, rest, hactions, hmore, -, w', hw', hcurrent⟩ := exists_update h hw hopen
    have hnext := inv_run (run_append.mpr ⟨s, log, rest, hrun, hmore, rfl⟩)
    refine ⟨more, t, rest, hactions, hmore, ?_⟩
    rw [hnext.getLast?_sent hw', hcurrent, h.manager]

/-- A service that is removed is reported as unknown. -/
theorem watch_changes_removed : ∃ s log w, run step {}
      [.call (.initializeServices ["acme.v1.Echo"]), .watch "acme.v1.Echo", .next 0,
        .call (.update .serving (some "acme.v1.Echo")), .next 0, .timeout 0, .next 0, .timeout 0,
        .call (.initializeServices []), .timeout 0] = some (s, log) ∧
    s.watches[0]? = some w ∧ sent (history 0 log) = [.unknown, .serving, .serviceUnknown] ∧
    sent (history 0 log) = (reads (history 0 log)).destutter (· ≠ ·) := by
  have hsent : (run step {}
      [.call (.initializeServices ["acme.v1.Echo"]), .watch "acme.v1.Echo", .next 0,
        .call (.update .serving (some "acme.v1.Echo")), .next 0, .timeout 0, .next 0, .timeout 0,
        .call (.initializeServices []), .timeout 0]).map
          (fun p => (p.1.watches[0]?.isSome, sent (history 0 p.2))) =
      some (true, [.unknown, .serving, .serviceUnknown]) := by
    decide +kernel
  obtain ⟨⟨s, log⟩, hrun, heq⟩ := Option.map_eq_some_iff.mp hsent
  obtain ⟨hsome, hmessages⟩ := Prod.mk.inj heq
  obtain ⟨w, hw⟩ := Option.isSome_iff_exists.mp hsome
  exact ⟨s, log, w, hrun, hw, hmessages, (watch_changes hrun hw).1⟩

end Watching
end Connectum.Healthcheck
