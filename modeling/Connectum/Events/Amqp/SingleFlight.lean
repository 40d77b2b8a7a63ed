import Connectum.Events.Amqp.Correlation
import Connectum.Serial

/-! Mandatory publishes without the header, which take turns. -/
namespace Connectum.Events.Amqp
namespace Publisher
variable {options : AmqpAdapterOptions} {s s' : Publisher} {p q : Publish} {a : Action}
  {i j : ℕ} {out log : List Event} {f : ℕ → Publish → Publish}

/-- A returned message finds its own publish pending, or none. -/
def NoLateReturn (s : Publisher) : Action → Prop
  | .returned i => s.publishes[i]?.any (s.isPending i) = true ∨ s.pendingReturns = []
  | _ => True

/-- The pending map is cleared when the channels are closed. -/
def ClearsAfterClose (s : Publisher) : Action → Prop
  | .failPendingReturns => ∀ channel < s.channels, s.isOpen channel = false
  | _ => True

instance : ∀ s a, Decidable (NoLateReturn s a)
  | s, .returned i =>
    inferInstanceAs (Decidable (s.publishes[i]?.any (s.isPending i) = true ∨ s.pendingReturns = []))
  | _, .publish .. | _, .doPublish .. | _, .confirmed _ | _, .nacked .. | _, .timedOut _
  | _, .channelClosed .. | _, .finalize _ | _, .failPendingReturns | _, .channelCreated
  | _, .clearPublishChannel | _, .connect | _, .disconnect => isTrue trivial

instance : ∀ s a, Decidable (ClearsAfterClose s a)
  | s, .failPendingReturns =>
    inferInstanceAs (Decidable (∀ channel < s.channels, s.isOpen channel = false))
  | _, .publish .. | _, .doPublish .. | _, .returned _ | _, .confirmed _ | _, .nacked ..
  | _, .timedOut _ | _, .channelClosed .. | _, .finalize _ | _, .channelCreated
  | _, .clearPublishChannel | _, .connect | _, .disconnect => isTrue trivial

/-- Mandatory publishes without the header take turns. -/
structure Chained (s : Publisher) : Prop where
  serial : Serial Publish.Queued Publish.Settled s.publishes
  after : ∀ (i : ℕ) (p : Publish), s.publishes[i]? = some p → p.after = i.ppred
  chain : s.mandatoryChain = s.publishes.length.ppred

theorem chained_initial : Chained {} := ⟨Serial.nil, by simp, rfl⟩

theorem Chained.of_eq (h : Chained s) (hpublishes : s'.publishes = s.publishes)
    (hchain : s'.mandatoryChain = s.mandatoryChain) : Chained s' := by
  refine ⟨?_, ?_, ?_⟩
  · rw [hpublishes]
    exact h.serial
  · rw [hpublishes]
    exact h.after
  · rw [hpublishes, hchain]
    exact h.chain

theorem Chained.mapIdx (h : Chained s) (hpublishes : s'.publishes = s.publishes.mapIdx f)
    (hchain : s'.mandatoryChain = s.mandatoryChain)
    (hkept : ∀ (j : ℕ) (p : Publish), s.publishes[j]? = some p → p.Kept (f j p))
    (hsettled : ∀ (j : ℕ) (p : Publish), s.publishes[j]? = some p → p.Settled → (f j p).Settled)
    (hqueued : ∀ (j : ℕ) (p : Publish), s.publishes[j]? = some p → p.Queued →
      (f j p).Queued ∨ ∀ (i : ℕ) (q : Publish), i < j → s.publishes[i]? = some q → q.Settled) :
    Chained s' := by
  refine ⟨?_, ?_, ?_⟩
  · rw [hpublishes]
    exact h.serial.mapIdx hsettled hqueued
  · intro i q hq
    obtain ⟨p, hp, rfl⟩ := exists_of_mapIdx hpublishes hq
    rw [(hkept i p hp).after]
    exact h.after i p hp
  · rw [hpublishes, hchain, List.length_mapIdx]
    exact h.chain

theorem Chained.goes (h : Chained s) (hpublishes : s'.publishes = s.publishes.mapIdx f)
    (hchain : s'.mandatoryChain = s.mandatoryChain)
    (hgoes : ∀ (j : ℕ) (p : Publish), s.publishes[j]? = some p → p.Goes (f j p)) : Chained s' :=
  h.mapIdx hpublishes hchain (fun j p hp => (hgoes j p hp).kept)
    (fun j p hp => (hgoes j p hp).settled) (fun j p hp hq => .inl ((hgoes j p hp).queued hq))

/-- When it is a publish's turn, all before it have settled. -/
theorem Chained.settled_before (h : Chained s) (hp : s.publishes[j]? = some p)
    (hturn : s.isTurn p = true) (hlt : i < j) (hq : s.publishes[i]? = some q) : q.Settled := by
  refine h.serial.done_of_done (fun _ => Publish.Settled.not_queued) ?_ hlt hq
  intro k hk
  simp only [isTurn, h.after j p hp, hk] at hturn
  cases hprevious : s.publishes[k]? with
  | none =>
    rw [hprevious] at hturn
    cases hturn
  | some previous =>
    rw [hprevious] at hturn
    refine ⟨previous, rfl, ?_⟩
    cases hphase : previous.phase with
    | settled outcome => exact ⟨outcome, hphase⟩
    | _ => simp [hphase, PublishPhase.isSettled] at hturn

theorem Chained.begin {g : Publish → Publish} {e : PublishEvent} (h : Chained s)
    (hp : s.publishes[i]? = some p) (hphase : p.phase = .queued) (hturn : s.isTurn p = true)
    (hbegins : Begins s i p g e) :
    Chained
      (({ s with pendingReturns := JsMap.set s.pendingReturns p.eventId i }).adjustOne i g) := by
  refine h.mapIdx rfl rfl ?_ ?_ ?_
  · intro j q hq
    split
    next => exact hbegins.kept q
    next => exact .refl q
  · intro j q hq hsettled
    rw [if_neg]
    · exact hsettled
    · rintro rfl
      obtain rfl := Option.some.inj (hp.symm.trans hq)
      exact hsettled.not_queued hphase
  · intro j q hq hqueued
    by_cases heq : j = i
    · subst heq
      exact .inr fun k earlier hlt hk => h.settled_before hp hturn hlt hk
    · rw [if_neg heq]
      exact .inl hqueued

theorem Chained.step (h : Chained s) (hmandatory : options.mandatory = true)
    (hheader : options.correlationHeader = false)
    (hstep : step options s a = some (s', out)) : Chained s' := by
  cases step_cases hstep with
  | quiet hpublishes hpending hchain hopen hout => exact h.of_eq hpublishes hchain
  | queued channel message hmessage hfresh hchain =>
    refine ⟨h.serial.concat rfl, ?_, ?_⟩
    · intro i p hp
      have hp : (s.call (s.begun _ channel message)).publishes[i]? = some p := hp
      rw [getElem?_call] at hp
      split at hp
      next heq =>
        obtain rfl := Option.some.inj hp
        rw [heq]
        exact h.chain
      next => exact h.after i p hp
    · show some s.publishes.length = (s.publishes ++ [_]).length.ppred
      rw [List.length_append]
      rfl
  | called channel message hmessage hfresh hchain hdo =>
    rw [hmandatory, hheader] at hchain
    cases hchain
  | doPublish p hp hphase hturn hdo =>
    obtain ⟨g, e, hbegins, rfl, rfl⟩ := doPublish_cases hmandatory hdo
    exact h.begin hp hphase hturn hbegins
  | returned p hp hout => exact h.goes rfl rfl fun j q _ => onReturn_goes s p.message j q
  | confirmed p hp hout => exact h.goes rfl rfl fun j q _ => goes_of_one onAck_goes j q
  | nacked p hp hout => exact h.goes rfl rfl fun j q _ => goes_of_one (onConfirmError_goes s _) j q
  | timedOut p hp hphase => exact h.goes rfl rfl fun j q _ => goes_of_one (conclude_goes _) j q
  | channelClosed hopen =>
    refine h.goes rfl rfl fun j q _ => ?_
    split
    next => exact onConfirmError_goes _ _ q
    next => exact .refl q
  | finalize p outcome hp hphase =>
    refine h.mapIdx rfl rfl ?_ ?_ ?_
    · intro j q hq
      split
      next => exact ⟨rfl, rfl, rfl, rfl⟩
      next => exact .refl q
    · intro j q hq hsettled
      split
      next => exact ⟨outcome, rfl⟩
      next => exact hsettled
    · intro j q hq hqueued
      rw [if_neg]
      · exact .inl hqueued
      · rintro rfl
        obtain rfl := Option.some.inj (hp.symm.trans hq)
        cases hqueued.symm.trans hphase
  | failPendingReturns => exact h.of_eq rfl rfl

/-- In turns, a returned message that is not late is attributed. -/
theorem attributed_of_turn (h : WellFormed options s) (hchained : Chained s)
    (hheader : options.correlationHeader = false) (hlate : s.NoLateReturn a) :
    s.Attributed a := by
  cases a with
  | returned i =>
    intro p hp j
    have hid := h.header p (List.mem_of_getElem? hp)
    rw [hheader, if_neg (by decide)] at hid
    have hmarked : j ∈ s.marked p.message ↔ ∃ e ∈ s.pendingReturns, e.2 = j := by
      rw [marked, hid, List.mem_map]
    rw [hmarked]
    rcases hlate with hpending | hempty
    · rw [hp, Option.any_some] at hpending
      constructor
      · rintro ⟨e, he, rfl⟩
        obtain ⟨q, hq, -, hactive⟩ := h.pending e he
        obtain ⟨p', hp', -, hactive'⟩ := h.pending _ (isPending_iff.mp hpending)
        exact ⟨hchained.serial.eq_of_running hq hp' hactive.not_queued hactive.not_settled
          hactive'.not_queued hactive'.not_settled, hpending⟩
      · rintro ⟨rfl, -⟩
        exact ⟨_, isPending_iff.mp hpending, rfl⟩
    · simp [hempty, isPending]
  | _ => trivial

theorem meets_of_not_cleared (t : Ticket) {events : List PublishEvent}
    (h : .cleared ∉ events) : Machine.Meets Ticket.step Ticket.ClearsAnswered t events := by
  induction events generalizing t with
  | nil => trivial
  | cons e events ih =>
    have hrest : .cleared ∉ events := fun hmem => h (List.mem_cons_of_mem _ hmem)
    refine Machine.meets_cons.mpr ⟨?_, fun u _ _ => ih u hrest⟩
    rintro rfl
    exact absurd List.mem_cons_self h

/-- Only `failPendingReturns` clears. -/
theorem not_cleared_step (hmandatory : options.mandatory = true)
    (hstep : step options s a = some (s', out)) (hne : a ≠ .failPendingReturns) (j : ℕ) :
    .cleared ∉ history j out := by
  have hone : ∀ {i : ℕ} {e : PublishEvent}, e ≠ .cleared →
      .cleared ∉ history j [.happened i e] := by
    intro i e he hmem
    have heq := List.mem_singleton.mp (mem_history.mp hmem)
    exact he (Event.happened.inj heq).2.symm
  cases step_cases hstep with
  | quiet hpublishes hpending hchain hopen hout =>
    rcases hout with rfl | ⟨error, rfl⟩ <;> exact List.not_mem_nil
  | queued => exact List.not_mem_nil
  | called channel message hmessage hfresh hchain hdo =>
    obtain ⟨g, e, hbegins, rfl, rfl⟩ := doPublish_cases hmandatory hdo
    cases hbegins <;> exact hone nofun
  | doPublish p hp hphase hturn hdo =>
    obtain ⟨g, e, hbegins, rfl, rfl⟩ := doPublish_cases hmandatory hdo
    cases hbegins <;> exact hone nofun
  | returned | confirmed | nacked | timedOut | finalize => exact hone nofun
  | channelClosed hopen =>
    rw [history_eventsOf]
    cases s.publishes[j]? with
    | none => exact List.not_mem_nil
    | some p =>
      rw [Option.bind_some]
      split <;> simp
  | failPendingReturns => exact absurd rfl hne

theorem clears_step (h : WellFormed options s) (hmandatory : options.mandatory = true)
    (hclears : s.ClearsAfterClose a) (hstep : step options s a = some (s', out)) (j : ℕ) :
    Machine.Meets Ticket.step Ticket.ClearsAnswered (s.ticket j) (history j out) := by
  by_cases ha : a = .failPendingReturns
  · subst ha
    obtain ⟨rfl, rfl⟩ := Prod.mk.inj (Option.some.inj hstep)
    rw [history_eventsOf]
    cases hp : s.publishes[j]? with
    | none => trivial
    | some p =>
      rw [Option.bind_some]
      split
      next =>
        refine Machine.meets_cons.mpr ⟨fun _ => ?_, fun u _ _ => trivial⟩
        rw [ticket_of_getElem? hp]
        show p.outstanding = false
        rw [Bool.eq_false_iff]
        intro hout
        have hopen := h.open_of_outstanding p (List.mem_of_getElem? hp) hout
        have hlt := of_decide_eq_true (Bool.and_eq_true_iff.mp hopen).1
        rw [hclears p.channel hlt] at hopen
        cases hopen
      next => trivial
  · exact meets_of_not_cleared _ (not_cleared_step hmandatory hstep ha j)

theorem clears_run {actions : List Action} (hmandatory : options.mandatory = true)
    (hattributed : Machine.Meets (step options) Attributed {} actions)
    (hclears : Machine.Meets (step options) ClearsAfterClose {} actions)
    (hrun : Machine.run (step options) {} actions = some (s, log)) (i : ℕ) :
    Machine.Meets Ticket.step Ticket.ClearsAnswered {} (history i log) := by
  have hinv := Machine.run_invariant_of_meets (l := [])
    (I := fun s log => Follows options s log ∧
      ∀ i, Machine.Meets Ticket.step Ticket.ClearsAnswered {} (history i log))
    ?_ ⟨follows_initial, fun i => trivial⟩ (hattributed.and hclears) hrun
  · exact hinv.2 i
  · rintro s log a s' out ⟨hfollows, hmeets⟩ ⟨ha, hclear⟩ hstep
    refine ⟨hfollows.step hmandatory ha hstep, fun i => ?_⟩
    rw [history_append]
    exact (Machine.meets_append (hfollows.2 i)).mpr
      ⟨hmeets i, clears_step hfollows.1 hmandatory hclear hstep i⟩

/-- Without the header, as long as no message is returned too late and the map is cleared for
closed channels only: a publish is rejected as unroutable only if its message was returned, and
resolves only if its message was confirmed and not returned. -/
theorem correlated_by_turn {actions : List Action} (hmandatory : options.mandatory = true)
    (hheader : options.correlationHeader = false)
    (hclears : Machine.Meets (step options) ClearsAfterClose {} actions)
    (hlate : Machine.Meets (step options) NoLateReturn {} actions)
    (hrun : Machine.run (step options) {} actions = some (s, log)) (i : ℕ) (outcome : Outcome)
    (hsettled : .happened i (.settled outcome) ∈ log) :
    (outcome.verdict = .unroutable → .happened i .returned ∈ log) ∧
      (outcome = .resolved → .happened i .confirmed ∈ log ∧ .happened i .returned ∉ log) := by
  have hattributed : Machine.Meets (step options) Attributed {} actions :=
    Machine.Meets.of_invariant (P := fun s => WellFormed options s ∧ Chained s)
      (fun _ _ _ _ h hstep => ⟨h.1.step hmandatory hstep, h.2.step hmandatory hheader hstep⟩)
      (fun _ _ h hlate => attributed_of_turn h.1 h.2 hheader hlate)
      ⟨wellFormed_initial, chained_initial⟩ hlate
  obtain ⟨-, hhistory⟩ := follows_of_run hmandatory hattributed hrun
  have hexplained := Ticket.explained_of_run (hhistory i)
  have hphase := hexplained.settled outcome (mem_history.mpr hsettled)
  constructor
  · intro hverdict
    apply mem_history.mp
    apply hexplained.unroutable
    rw [hphase, ← hverdict]
    rfl
  · rintro rfl
    have hresolved : (s.ticket i).phase.verdict = some .resolved := by
      rw [hphase]
      rfl
    refine ⟨mem_history.mp (hexplained.resolved hresolved), fun hreturned => ?_⟩
    exact Ticket.not_returned_of_resolved (clears_run hmandatory hattributed hclears hrun i)
      (hhistory i) hresolved (mem_history.mpr hreturned)

def singleFlight : AmqpAdapterOptions where
  publisherOptions := { mandatory := some true, correlationHeader := some false }

/-- A returned message, and the loss of the connection afterwards. -/
def returnedPublish : List Action :=
  [.channelCreated, publishUserCreated "evt-1", .doPublish 0 none, .returned 0, .confirmed 0,
    .finalize 0, .channelClosed 0 "channel closed", .failPendingReturns]

def returnedLog : List Event :=
  [.happened 0 .started, .happened 0 .returned, .happened 0 .confirmed,
    .happened 0 (.settled (.rejected (unroutable "user.created")))]

theorem correlated_by_turn_returned : ∃ s,
    Machine.run (step singleFlight) {} returnedPublish = some (s, returnedLog) ∧
      .happened 0 .returned ∈ returnedLog := by
  obtain ⟨s, hrun⟩ : ∃ s, Machine.run (step singleFlight) {} returnedPublish =
      some (s, returnedLog) := ⟨_, rfl⟩
  exact ⟨s, hrun, (correlated_by_turn rfl rfl (by decide) (by decide) hrun 0
    (.rejected (unroutable "user.created")) (by decide)).1 rfl⟩

/-- The first message is returned when its publish has timed out and the second one is pending. -/
def lateReturn : List Action :=
  [.channelCreated, publishUserCreated "evt-1", .doPublish 0 none, .timedOut 0, .finalize 0,
    publishUserCreated "evt-2", .doPublish 1 none, .returned 0, .confirmed 1, .finalize 1]

def lateLog : List Event :=
  [.happened 0 .started, .happened 0 .timedOut,
    .happened 0 (.settled (.rejected (timedOut 30000 "user.created"))), .happened 1 .started,
    .happened 0 .returned, .happened 1 .confirmed,
    .happened 1 (.settled (.rejected (unroutable "user.created")))]

/-- A message that was confirmed and not returned is rejected as unroutable. -/
theorem late_return_misattributed :
    ¬ ∀ (options : AmqpAdapterOptions) (actions : List Action) (s : Publisher) (log : List Event)
      (i : ℕ) (outcome : Outcome), options.mandatory = true → options.correlationHeader = false →
      Machine.Meets (step options) ClearsAfterClose {} actions →
      Machine.run (step options) {} actions = some (s, log) →
      .happened i (.settled outcome) ∈ log →
      (outcome.verdict = .unroutable → .happened i .returned ∈ log) ∧
        (outcome = .resolved → .happened i .confirmed ∈ log ∧ .happened i .returned ∉ log) := by
  intro h
  obtain ⟨s, hrun⟩ : ∃ s, Machine.run (step singleFlight) {} lateReturn = some (s, lateLog) :=
    ⟨_, rfl⟩
  have hreturned := (h singleFlight lateReturn s lateLog 1
    (.rejected (unroutable "user.created")) rfl rfl (by decide) hrun (by decide)).1 rfl
  exact absurd hreturned (by decide)

end Publisher
end Connectum.Events.Amqp
