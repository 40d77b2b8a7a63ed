import Connectum.Core.ShutdownOrder

/-! The phases of a shutdown: the race of `close()` with the timeout, the hooks, `dispose()`. -/
namespace Connectum.Core
open ShutdownManager

structure TransportManager (Server Address Session : Type*) where
  server : Option Server := none
  address : Option Address := none
  sessions : List Session := []

namespace TransportManager
variable {Server Address Session : Type*}

def destroyAllSessions (transport : TransportManager Server Address Session) :
    TransportManager Server Address Session := { transport with sessions := [] }

def dispose (_ : TransportManager Server Address Session) :
    TransportManager Server Address Session := { server := none, address := none, sessions := [] }

end TransportManager

structure GracefulShutdownOptions where
  timeout : ℕ
  forceCloseOnTimeout : Bool

namespace GracefulShutdown

/-- What `Promise.race` settles with. -/
inductive Race where
  | closed
  | rejected (err : String)
  | timeout
  deriving DecidableEq, Repr

inductive Settled where
  | resolved
  | closeError (err : String)
  | hookError
  deriving DecidableEq, Repr

inductive Event (Session : Type*) where
  | error (message err : String)
  | warn (message : String)
  | destroyed (session : Session)
  | executeAll
  | dispose
  | settled (result : Settled)
  deriving DecidableEq, Repr

/-- The server has closed, the timer fires, a step of the hooks, or the function goes on after an
await. -/
inductive Action where
  | close (result : Except String Unit)
  | timeout
  | hook (a : ShutdownManager.Action)
  | resume

def Action.race : Action → Option Race
  | .close (.ok _) => some .closed
  | .close (.error err) => some (.rejected err)
  | .timeout => some .timeout
  | .hook _ | .resume => none

/-- The first of `close()` and the timeout to settle. -/
def raceOf (actions : List Action) : Option Race := actions.findSome? Action.race

/-- A call under way: `closing` is the promise of `close()` before it settles, and `timer` the timer
before it fires or is cleared. -/
structure State (Server Address Session : Type*) where
  transport : TransportManager Server Address Session
  closing : Bool := false
  timer : Bool := false
  race : Option Race := none
  execution : Option Execution := none
  settled : Option Settled := none

variable {Server Address Session Hook : Type*}

/-- The call, up to its first await. -/
def performGracefulShutdown (transport : TransportManager Server Address Session) :
    State Server Address Session :=
  if transport.server.isNone then { transport, settled := some .resolved }
  else { transport, closing := true, timer := true }

section
variable (manager : ShutdownManager Hook) (outcome : String → ℕ → HookOutcome) (depth : ℕ)
  (options : GracefulShutdownOptions)

/-- The timer is cleared, and the hooks are started. -/
def startHooks (s : State Server Address Session) (events : List (Event Session)) :
    Option (State Server Address Session × List (Event Session)) :=
  (manager.executeAll outcome depth).map fun execution =>
    ({ s with timer := false, execution := some execution }, events ++ [.executeAll])

/-- After `await Promise.race([graceful, timeout])`. -/
def afterRace (s : State Server Address Session) :
    Race → Option (State Server Address Session × List (Event Session))
  | .closed => startHooks manager outcome depth s []
  | .rejected err =>
    some ({ s with timer := false, settled := some (.closeError err) },
      [.settled (.closeError err)])
  | .timeout =>
    let warning := .warn ("Shutdown timeout (" ++ toString options.timeout ++ "ms) exceeded")
    if options.forceCloseOnTimeout then
      startHooks manager outcome depth { s with transport := s.transport.destroyAllSessions }
        (warning :: s.transport.sessions.map .destroyed)
    else startHooks manager outcome depth s [warning]

/-- After `await shutdownManager.executeAll()`. -/
def afterHooks (s : State Server Address Session) (execution : Execution) :
    Option (State Server Address Session × List (Event Session)) :=
  if ¬ execution.settled then none
  else if .resolved ∈ execution.log then
    some ({ s with transport := s.transport.dispose, settled := some .resolved },
      [.dispose, .settled .resolved])
  else some ({ s with settled := some .hookError }, [.settled .hookError])

/-- `Promise.race` keeps the first result. -/
def settleRace (s : State Server Address Session) (result : Race) : State Server Address Session :=
  { s with race := s.race.or (some result) }

def step : Machine.Step (State Server Address Session) Action (Event Session)
  | s, .close (.ok _) =>
    if s.closing then some (settleRace { s with closing := false } .closed, []) else none
  | s, .close (.error err) =>
    if s.closing then
      some (settleRace { s with closing := false } (.rejected err),
        [.error "Error during graceful close:" err])
    else none
  | s, .timeout =>
    if s.timer then some (settleRace { s with timer := false } .timeout, []) else none
  | s, .hook a =>
    match s.execution with
    | none => none
    | some execution => (manager.step outcome execution a).map fun execution =>
        ({ s with execution := some execution }, [])
  | s, .resume =>
    match s.settled, s.execution, s.race with
    | some _, _, _ => none
    | none, some execution, _ => afterHooks s execution
    | none, none, some result => afterRace manager outcome depth options s result
    | none, none, none => none

end

/-- The calls that the later phases consist of, and the end. -/
def Event.IsPhase : Event Session → Bool
  | .executeAll | .dispose | .settled _ => true
  | .error _ _ | .warn _ | .destroyed _ => false

variable {calls : List (AddHook Hook)} {outcome : String → ℕ → HookOutcome} {depth : ℕ}
  {options : GracefulShutdownOptions} {s t : State Server Address Session}
  {log out : List (Event Session)} {actions : List Action}

/-- The hooks as a run of `executeAll` leaves them. -/
def Reached (calls : List (AddHook Hook)) (outcome : String → ℕ → HookOutcome) (depth : ℕ)
    (execution : Execution) : Prop :=
  ∃ started steps, (addHooks calls).executeAll outcome depth = some started ∧
    (addHooks calls).run outcome started steps = some execution

/-- The race is over, and `close()` has not rejected first. -/
def Passed (s : State Server Address Session) : Prop :=
  ∃ result, s.race = some result ∧ ∀ err, result ≠ .rejected err

/-- How far the call has come, and the phases that it has gone through. -/
inductive Sound (calls : List (AddHook Hook)) (outcome : String → ℕ → HookOutcome) (depth : ℕ)
    (s : State Server Address Session) : List (Event Session) → Prop where
  | racing (hsettled : s.settled = none) (hexecution : s.execution = none)
      (htimer : s.race = none → s.timer = true) : Sound calls outcome depth s []
  | closeError {err} (hsettled : s.settled = some (.closeError err))
      (hexecution : s.execution = none) (hrace : s.race = some (.rejected err)) :
      Sound calls outcome depth s [.settled (.closeError err)]
  | executing {execution} (hsettled : s.settled = none) (hexecution : s.execution = some execution)
      (hrace : Passed s) (hreached : Reached calls outcome depth execution) :
      Sound calls outcome depth s [.executeAll]
  | hookError {execution} (hsettled : s.settled = some .hookError)
      (hexecution : s.execution = some execution) (hrace : Passed s)
      (hreached : Reached calls outcome depth execution)
      (hfails : ∃ name, Failing (addHooks calls) outcome name) :
      Sound calls outcome depth s [.executeAll, .settled .hookError]
  | disposed {execution} (hsettled : s.settled = some .resolved)
      (hexecution : s.execution = some execution) (hrace : Passed s)
      (hreached : Reached calls outcome depth execution)
      (hnone : ∀ name, ¬ Failing (addHooks calls) outcome name) :
      Sound calls outcome depth s [.executeAll, .dispose, .settled .resolved]

theorem Reached.step {execution execution' : Execution} {a : ShutdownManager.Action}
    (h : Reached calls outcome depth execution)
    (hstep : (addHooks calls).step outcome execution a = some execution') :
    Reached calls outcome depth execution' := by
  obtain ⟨started, steps, hstart, hrun⟩ := h
  refine ⟨started, steps ++ [a], hstart, ?_⟩
  rw [ShutdownManager.run, List.foldlM_append]
  exact Option.bind_eq_some_iff.mpr ⟨execution, hrun, by simpa using hstep⟩

theorem Passed.keep (h : Passed s) (hrace : ∀ result, s.race = some result → t.race = some result) :
    Passed t := by
  obtain ⟨result, hresult, hok⟩ := h
  exact ⟨result, hrace result hresult, hok⟩

/-- Close or the timer settles. -/
theorem Sound.settleRace {phases : List (Event Session)} {result : Race}
    (h : Sound calls outcome depth s phases) (hsettled : t.settled = s.settled)
    (hexecution : t.execution = s.execution) (hrace : t.race = s.race.or (some result)) :
    Sound calls outcome depth t phases := by
  have hkeep : ∀ first, s.race = some first → t.race = some first := by
    intro first hfirst
    rw [hrace, hfirst, Option.some_or]
  cases h with
  | racing hs he htimer =>
    refine .racing (hsettled.trans hs) (hexecution.trans he) fun hnone => ?_
    rw [hrace, Option.or_eq_none_iff] at hnone
    cases hnone.2
  | closeError hs he hr =>
    exact .closeError (hsettled.trans hs) (hexecution.trans he) (hkeep _ hr)
  | executing hs he hr hreached =>
    exact .executing (hsettled.trans hs) (hexecution.trans he) (hr.keep hkeep) hreached
  | hookError hs he hr hreached hfails =>
    exact .hookError (hsettled.trans hs) (hexecution.trans he) (hr.keep hkeep) hreached hfails
  | disposed hs he hr hreached hnone =>
    exact .disposed (hsettled.trans hs) (hexecution.trans he) (hr.keep hkeep) hreached hnone

theorem Sound.hook {phases : List (Event Session)} {execution execution' : Execution}
    {a : ShutdownManager.Action} (h : Sound calls outcome depth s phases)
    (hs : s.execution = some execution)
    (hstep : (addHooks calls).step outcome execution a = some execution') :
    Sound calls outcome depth { s with execution := some execution' } phases := by
  have hsame : ∀ {e}, s.execution = some e → e = execution :=
    fun he => Option.some.inj (he.symm.trans hs)
  cases h with
  | racing _ he _ | closeError _ he _ => cases he.symm.trans hs
  | executing hsettled he hr hreached =>
    exact .executing hsettled rfl hr ((hsame he ▸ hreached).step hstep)
  | hookError hsettled he hr hreached hfails =>
    exact .hookError hsettled rfl hr ((hsame he ▸ hreached).step hstep) hfails
  | disposed hsettled he hr hreached hnone =>
    exact .disposed hsettled rfl hr ((hsame he ▸ hreached).step hstep) hnone

theorem startHooks_sound {events : List (Event Session)} (hsettled : s.settled = none)
    (hpassed : Passed s) (hevents : events.filter Event.IsPhase = [])
    (h : startHooks (addHooks calls) outcome depth s events = some (t, out)) :
    Sound calls outcome depth t (out.filter Event.IsPhase) := by
  obtain ⟨execution, hstart, heq⟩ := Option.map_eq_some_iff.mp h
  obtain ⟨rfl, rfl⟩ := Prod.mk.inj heq
  rw [List.filter_append, hevents]
  exact .executing hsettled rfl hpassed ⟨execution, [], hstart, rfl⟩

theorem afterRace_sound {result : Race} (hsettled : s.settled = none)
    (hexecution : s.execution = none) (hrace : s.race = some result)
    (h : afterRace (addHooks calls) outcome depth options s result = some (t, out)) :
    Sound calls outcome depth t (out.filter Event.IsPhase) := by
  cases result with
  | closed => exact startHooks_sound hsettled ⟨_, hrace, fun _ => Race.noConfusion⟩ rfl h
  | rejected err =>
    obtain ⟨rfl, rfl⟩ := Prod.mk.inj (Option.some.inj h)
    exact .closeError rfl hexecution hrace
  | timeout =>
    have hpassed : Passed s := ⟨_, hrace, fun _ => Race.noConfusion⟩
    simp only [afterRace] at h
    split at h
    · have hevents : List.filter Event.IsPhase
          (.warn ("Shutdown timeout (" ++ toString options.timeout ++ "ms) exceeded") ::
            s.transport.sessions.map Event.destroyed) = [] := by
        simp [Event.IsPhase]
      exact startHooks_sound (s := { s with transport := s.transport.destroyAllSessions })
        hsettled hpassed hevents h
    · exact startHooks_sound hsettled hpassed rfl h

theorem afterHooks_sound {execution : Execution} (hexecution : s.execution = some execution)
    (hpassed : Passed s) (hreached : Reached calls outcome depth execution)
    (h : afterHooks s execution = some (t, out)) :
    Sound calls outcome depth t (.executeAll :: out.filter Event.IsPhase) := by
  obtain ⟨started, steps, hstart, hrun⟩ := id hreached
  unfold afterHooks at h
  split at h
  next => cases h
  next hsettled =>
    have hresolved := resolved_iff hstart hrun (not_not.mp hsettled)
    split at h
    next hmem =>
      obtain ⟨rfl, rfl⟩ := Prod.mk.inj (Option.some.inj h)
      exact .disposed rfl hexecution hpassed hreached (hresolved.mp hmem)
    next hmem =>
      obtain ⟨rfl, rfl⟩ := Prod.mk.inj (Option.some.inj h)
      exact .hookError rfl hexecution hpassed hreached
        (not_forall_not.mp fun hnone => hmem (hresolved.mpr hnone))

/-- What a step can do. -/
inductive Stepped (calls : List (AddHook Hook)) (outcome : String → ℕ → HookOutcome) (depth : ℕ)
    (options : GracefulShutdownOptions) (s : State Server Address Session) :
    Action → State Server Address Session → List (Event Session) → Prop where
  | closed (u : Unit) : Stepped calls outcome depth options s (.close (.ok u))
      (settleRace { s with closing := false } .closed) []
  | closeFailed (err : String) : Stepped calls outcome depth options s (.close (.error err))
      (settleRace { s with closing := false } (.rejected err))
      [.error "Error during graceful close:" err]
  | timedOut : Stepped calls outcome depth options s .timeout
      (settleRace { s with timer := false } .timeout) []
  | hook {a execution execution'} (hexecution : s.execution = some execution)
      (hstep : (addHooks calls).step outcome execution a = some execution') :
      Stepped calls outcome depth options s (.hook a)
        { s with execution := some execution' } []
  | afterRace {result t out} (hsettled : s.settled = none) (hexecution : s.execution = none)
      (hrace : s.race = some result)
      (hresume : afterRace (addHooks calls) outcome depth options s result = some (t, out)) :
      Stepped calls outcome depth options s .resume t out
  | afterHooks {execution t out} (hsettled : s.settled = none)
      (hexecution : s.execution = some execution)
      (hresume : afterHooks s execution = some (t, out)) :
      Stepped calls outcome depth options s .resume t out

theorem step_cases {a : Action}
    (h : step (addHooks calls) outcome depth options s a = some (t, out)) :
    Stepped calls outcome depth options s a t out := by
  cases a with
  | close result =>
    cases result with
    | ok u =>
      obtain ⟨-, heq⟩ := Option.ite_none_right_eq_some.mp h
      obtain ⟨rfl, rfl⟩ := Prod.mk.inj (Option.some.inj heq)
      exact .closed u
    | error err =>
      obtain ⟨-, heq⟩ := Option.ite_none_right_eq_some.mp h
      obtain ⟨rfl, rfl⟩ := Prod.mk.inj (Option.some.inj heq)
      exact .closeFailed err
  | timeout =>
    obtain ⟨-, heq⟩ := Option.ite_none_right_eq_some.mp h
    obtain ⟨rfl, rfl⟩ := Prod.mk.inj (Option.some.inj heq)
    exact .timedOut
  | hook a =>
    simp only [step] at h
    split at h
    next => cases h
    next execution hexecution =>
      obtain ⟨execution', hstep, heq⟩ := Option.map_eq_some_iff.mp h
      obtain ⟨rfl, rfl⟩ := Prod.mk.inj heq
      exact .hook hexecution hstep
  | resume =>
    simp only [step] at h
    split at h
    next => cases h
    next execution hsettled hexecution => exact .afterHooks hsettled hexecution h
    next result hsettled hexecution hrace => exact .afterRace hsettled hexecution hrace h
    next => cases h

theorem Sound.step {phases : List (Event Session)} {a : Action}
    (h : Sound calls outcome depth s phases)
    (hstep : GracefulShutdown.step (addHooks calls) outcome depth options s a = some (t, out)) :
    Sound calls outcome depth t (phases ++ out.filter Event.IsPhase) := by
  cases step_cases hstep with
  | closed | timedOut =>
    rw [List.filter_nil, List.append_nil]
    exact h.settleRace rfl rfl rfl
  | closeFailed err =>
    rw [List.filter_cons_of_neg Bool.false_ne_true, List.filter_nil, List.append_nil]
    exact h.settleRace rfl rfl rfl
  | hook hexecution hhook =>
    rw [List.filter_nil, List.append_nil]
    exact h.hook hexecution hhook
  | afterRace hsettled hexecution hrace hresume =>
    cases h with
    | racing => exact afterRace_sound hsettled hexecution hrace hresume
    | closeError hs | hookError hs | disposed hs => cases hs.symm.trans hsettled
    | executing _ he => cases he.symm.trans hexecution
  | afterHooks hsettled hexecution hresume =>
    cases h with
    | racing _ he => cases he.symm.trans hexecution
    | closeError hs | hookError hs | disposed hs => cases hs.symm.trans hsettled
    | executing _ he hrace hreached =>
      obtain rfl := Option.some.inj (he.symm.trans hexecution)
      exact afterHooks_sound hexecution hrace hreached hresume

theorem race_startHooks {events : List (Event Session)}
    (h : startHooks (addHooks calls) outcome depth s events = some (t, out)) : t.race = s.race := by
  obtain ⟨execution, -, heq⟩ := Option.map_eq_some_iff.mp h
  rw [← (Prod.mk.inj heq).1]

theorem race_afterRace {result : Race}
    (h : afterRace (addHooks calls) outcome depth options s result = some (t, out)) :
    t.race = s.race := by
  cases result with
  | closed => exact race_startHooks h
  | rejected err => rw [← (Prod.mk.inj (Option.some.inj h)).1]
  | timeout =>
    simp only [afterRace] at h
    split at h
    · exact race_startHooks (s := { s with transport := s.transport.destroyAllSessions }) h
    · exact race_startHooks h

theorem race_afterHooks {execution : Execution} (h : afterHooks s execution = some (t, out)) :
    t.race = s.race := by
  unfold afterHooks at h
  split at h
  · cases h
  · split at h
    · rw [← (Prod.mk.inj (Option.some.inj h)).1]
    · rw [← (Prod.mk.inj (Option.some.inj h)).1]

theorem race_step {a : Action}
    (hstep : step (addHooks calls) outcome depth options s a = some (t, out)) :
    t.race = s.race.or a.race := by
  cases step_cases hstep with
  | closed | closeFailed | timedOut => rfl
  | hook => exact Option.or_none.symm
  | afterRace _ _ _ hresume => exact (race_afterRace hresume).trans Option.or_none.symm
  | afterHooks _ _ hresume => exact (race_afterHooks hresume).trans Option.or_none.symm

theorem race_run
    (hrun : Machine.run (step (addHooks calls) outcome depth options) s actions = some (t, log)) :
    t.race = s.race.or (raceOf actions) := by
  induction actions generalizing s log with
  | nil =>
    obtain ⟨rfl, -⟩ := Machine.run_nil.mp hrun
    exact (Option.or_none).symm
  | cons a actions ih =>
    obtain ⟨u, out, rest, hstep, hrest, -⟩ := Machine.run_cons.mp hrun
    rw [ih hrest, race_step hstep, Option.or_assoc]
    congr 1
    rw [raceOf, raceOf, List.findSome?_cons]
    cases a.race <;> rfl

theorem sound_run {transport : TransportManager Server Address Session}
    (hlive : transport.server.isSome)
    (hrun : Machine.run (step (addHooks calls) outcome depth options)
      (performGracefulShutdown transport) actions = some (t, log)) :
    Sound calls outcome depth t (log.filter Event.IsPhase) ∧ t.race = raceOf actions := by
  have hstart : performGracefulShutdown transport = { transport, closing := true, timer := true } :=
    if_neg (by rw [Option.isNone_iff_eq_none]; rintro h; rw [h] at hlive; cases hlive)
  rw [hstart] at hrun
  constructor
  · have hinv := Machine.run_invariant (l := [])
      (I := fun s log => Sound calls outcome depth s (log.filter Event.IsPhase))
      (fun s log a t out h hstep => by rw [List.filter_append]; exact h.step hstep)
      (.racing rfl rfl fun _ => rfl) hrun
    simpa using hinv
  · exact (race_run hrun).trans (Option.none_or)

/-- `dispose()` comes before the end. -/
def Disposed (before : List (Event Session)) (e : Event Session) : Prop :=
  ∀ result, e = .settled result → .dispose ∈ before

/-- Nothing is left to happen but that `close()` settles. -/
def Rest (manager : ShutdownManager Hook) (outcome : String → ℕ → HookOutcome) (depth : ℕ)
    (options : GracefulShutdownOptions) (s : State Server Address Session) : Prop :=
  ∀ a, (∀ result, a ≠ .close result) → step manager outcome depth options s a = none

theorem Sound.settled_of_rest {phases : List (Event Session)}
    (h : Sound calls outcome depth s phases)
    (hdepth : ((addHooks calls).executeAll outcome depth).isSome)
    (hrest : Rest (addHooks calls) outcome depth options s) : s.settled.isSome := by
  have hresume := hrest .resume fun _ => Action.noConfusion
  obtain ⟨started, hstarted⟩ := Option.isSome_iff_exists.mp hdepth
  cases h with
  | closeError hs | hookError hs | disposed hs => rw [hs]; rfl
  | racing hs he htimer =>
    simp only [GracefulShutdown.step, hs, he] at hresume
    cases hr : s.race with
    | none =>
      have htimeout := hrest .timeout fun _ => Action.noConfusion
      simp [GracefulShutdown.step, htimer hr] at htimeout
    | some result =>
      rw [hr] at hresume
      cases result with
      | closed => simp [afterRace, startHooks, hstarted] at hresume
      | rejected err => simp [afterRace] at hresume
      | timeout =>
        simp only [afterRace, startHooks, hstarted] at hresume
        split at hresume <;> cases hresume
  | @executing execution hs he hrace hreached =>
    obtain ⟨first, steps, hstart, hrun⟩ := hreached
    obtain ⟨hinv, hsome⟩ := inv_run (acyclic_addHooks calls) hstart hrun
    have hq : Quiescent (addHooks calls) outcome execution := by
      intro a
      have hhook := hrest (.hook a) fun _ => Action.noConfusion
      simp only [GracefulShutdown.step, he] at hhook
      exact Option.map_eq_none_iff.mp hhook
    have hsettled := hq.settled hinv (acyclic_addHooks calls) hsome
    simp only [GracefulShutdown.step, hs, he, afterHooks, hsettled] at hresume
    split at hresume
    next hnot => exact absurd trivial hnot
    next => split at hresume <;> cases hresume

theorem count_of_phases [DecidableEq Session] {phases : List (Event Session)}
    (h : log.filter Event.IsPhase = phases) : log.count .executeAll = phases.count .executeAll := by
  rw [← h, List.count_filter rfl]

theorem justified_of_phases
    (h : log.filter Event.IsPhase = [.executeAll, .dispose, .settled .resolved]) :
    Machine.Justified Disposed log := by
  rintro before e after hlog result rfl
  rw [hlog, List.filter_append, List.filter_cons_of_pos rfl] at h
  cases hbefore : before.filter Event.IsPhase with
  | nil => simp [hbefore] at h
  | cons first rest =>
    cases rest with
    | nil => simp [hbefore] at h
    | cons second rest =>
      rw [hbefore] at h
      obtain ⟨-, h⟩ := List.cons.inj h
      obtain ⟨rfl, -⟩ := List.cons.inj h
      exact List.mem_of_mem_filter (hbefore ▸ List.mem_cons_of_mem _ List.mem_cons_self)

theorem not_justified_of_phases
    (h : log.filter Event.IsPhase = [.executeAll, .settled .hookError]) :
    ¬ Machine.Justified Disposed log := by
  intro hjustified
  have hend : .settled .hookError ∈ log.filter Event.IsPhase := by simp [h]
  obtain ⟨before, after, hlog⟩ := List.append_of_mem (List.mem_of_mem_filter hend)
  have hdispose : .dispose ∈ log.filter Event.IsPhase := by
    refine List.mem_filter.mpr ⟨?_, rfl⟩
    rw [hlog]
    exact List.mem_append_left _ (hjustified before _ after hlog _ rfl)
  simp [h] at hdispose

/-- Over a live server: once the shutdown has settled, `executeAll()` has been called exactly once
and `dispose()` before the end, if and only if `close()` does not reject before the timeout and no
hook fails. It does settle, whether or not `close()` does. -/
theorem performGracefulShutdown_phases_iff [DecidableEq Session] (calls : List (AddHook Hook))
    (outcome : String → ℕ → HookOutcome) (options : GracefulShutdownOptions)
    {transport : TransportManager Server Address Session} (hlive : transport.server.isSome)
    (hrun : Machine.run (step (addHooks calls) outcome depth options)
      (performGracefulShutdown transport) actions = some (t, log)) :
    (t.settled.isSome →
      ((log.count .executeAll = 1 ∧ Machine.Justified Disposed log) ↔
        (∀ err, raceOf actions ≠ some (.rejected err)) ∧
          ∀ name, ¬ Failing (addHooks calls) outcome name)) ∧
    (((addHooks calls).executeAll outcome depth).isSome →
      Rest (addHooks calls) outcome depth options t → t.settled.isSome) ∧
    ∃ least, ∀ depth, least ≤ depth → ((addHooks calls).executeAll outcome depth).isSome := by
  obtain ⟨hsound, hrace⟩ := sound_run hlive hrun
  refine ⟨fun hsettled => ?_, fun hdepth hrest => hsound.settled_of_rest hdepth hrest,
    exists_depth_executeAll (acyclic_addHooks calls)⟩
  generalize hphases : log.filter Event.IsPhase = phases at hsound
  have hpassed : Passed t → ∀ err, raceOf actions ≠ some (.rejected err) := by
    rintro ⟨result, hresult, hok⟩ err hrejected
    exact hok err (Option.some.inj (hresult.symm.trans (hrace.trans hrejected)))
  rw [count_of_phases hphases]
  cases hsound with
  | racing hs | executing hs =>
    rw [hs] at hsettled
    cases hsettled
  | closeError _ _ hr =>
    constructor
    · rintro ⟨hcount, -⟩
      cases hcount
    · rintro ⟨hno, -⟩
      exact absurd (hrace.symm.trans hr) (hno _)
  | hookError _ _ _ _ hfails =>
    constructor
    · rintro ⟨-, hjustified⟩
      exact absurd hjustified (not_justified_of_phases hphases)
    · rintro ⟨-, hnone⟩
      exact absurd hfails (not_exists.mpr hnone)
  | disposed _ _ hr _ hnone =>
    have hcount : [.executeAll, .dispose, .settled .resolved].count
        (.executeAll : Event Session) = 1 := rfl
    exact ⟨fun _ => ⟨hpassed hr, hnone⟩, fun _ => ⟨hcount, justified_of_phases hphases⟩⟩

/-- The timeout passes before `close()` settles, and the only hook succeeds. -/
theorem performGracefulShutdown_phases_iff_timeout :
    let log : List (Event ℕ) := [.warn "Shutdown timeout (100ms) exceeded", .destroyed 7,
      .executeAll, .dispose, .settled .resolved]
    (∃ t : State Unit Unit ℕ,
      Machine.run (step (addHooks [.named "database" ()]) (fun _ _ => .resolves) 1 ⟨100, true⟩)
        (performGracefulShutdown { server := some (), sessions := [7] })
        [.timeout, .resume, .hook (.settle "database" 0), .hook (.resume "database"),
          .hook .settleAll, .resume] = some (t, log)) ∧
      log.count .executeAll = 1 ∧ Machine.Justified Disposed log := by
  intro log
  have hrun : Machine.run
      (step (addHooks [.named "database" ()]) (fun _ _ => .resolves) 1 ⟨100, true⟩)
      (performGracefulShutdown
        ({ server := some (), sessions := [7] } : TransportManager Unit Unit ℕ))
      [.timeout, .resume, .hook (.settle "database" 0), .hook (.resume "database"),
        .hook .settleAll, .resume] = some
      ({ transport := {}
         closing := true
         race := some .timeout
         execution := some
          { pendingPromises := [("database", ⟨.completed, []⟩)]
            settled := true
            log := [.invoked "database" 0, .completed "database" 0, .resolved] }
         settled := some .resolved }, log) := by rfl
  refine ⟨⟨_, hrun⟩, ((performGracefulShutdown_phases_iff _ _ _ rfl hrun).1 rfl).mpr ⟨?_, ?_⟩⟩
  · exact fun err h => nomatch h
  · rintro name ⟨i, -, hfails⟩
    exact hfails rfl

/-- `close()` rejects before the timeout: the hooks are not run, and the transport is kept. -/
theorem phases_skipped :
    ¬ ∀ (calls : List (AddHook Unit)) (outcome : String → ℕ → HookOutcome) (depth : ℕ)
        (options : GracefulShutdownOptions) (transport : TransportManager Unit Unit ℕ)
        (actions : List Action) (t : State Unit Unit ℕ) (log : List (Event ℕ)),
        transport.server.isSome →
        Machine.run (step (addHooks calls) outcome depth options)
          (performGracefulShutdown transport) actions = some (t, log) →
        t.settled.isSome → log.count .executeAll = 1 ∧ Machine.Justified Disposed log := by
  intro hphases
  have hcount := (hphases [.named "database" ()] (fun _ _ => .resolves) 1 ⟨100, true⟩
    { server := some () } [.close (.error "close failed"), .resume] _ _ rfl rfl rfl).1
  cases hcount

end GracefulShutdown
end Connectum.Core
