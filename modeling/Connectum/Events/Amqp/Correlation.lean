import Connectum.Events.Amqp.Ticket

/-! Mandatory publishes follow their tickets, and returned messages are correlated by the header. -/
namespace Connectum.Events.Amqp
namespace Publisher

/-- What has happened to one publish. -/
def history (i : ℕ) (log : List Event) : List PublishEvent :=
  log.filterMap fun event =>
    match event with
    | .happened j e => if j = i then some e else none
    | .refused _ => none

end Publisher

def PublishPhase.view : PublishPhase → Ticket.Phase
  | .queued => .idle
  | .waiting => .waiting
  | .finalizing outcome => .decided outcome.verdict
  | .settled outcome => .settled outcome.verdict

def Publish.ticket (held : Bool) (p : Publish) : Ticket :=
  ⟨p.phase.view, p.outstanding, held, p.returned⟩

namespace Publisher
variable {options : AmqpAdapterOptions} {s s' : Publisher} {p q : Publish} {a : Action}
  {i j : ℕ} {out log : List Event} {f : ℕ → Publish → Publish}

/-- The ticket of a publish, which is blank before the call. -/
def ticket (s : Publisher) (i : ℕ) : Ticket :=
  match s.publishes[i]? with
  | some p => p.ticket (s.isPending i p)
  | none => {}

theorem ticket_of_getElem? (h : s.publishes[i]? = some p) :
    s.ticket i = p.ticket (s.isPending i p) := by
  rw [ticket, h]

theorem history_append (log out : List Event) :
    history i (log ++ out) = history i log ++ history i out := List.filterMap_append

@[simp] theorem history_singleton (e : PublishEvent) :
    history i [.happened j e] = if j = i then [e] else [] := by
  unfold history
  by_cases h : j = i <;> simp [h]

theorem mem_history {e : PublishEvent} : e ∈ history i log ↔ .happened i e ∈ log := by
  simp only [history, List.mem_filterMap]
  constructor
  · rintro ⟨event, hmem, heq⟩
    split at heq
    next j e' =>
      split at heq
      next h =>
        obtain rfl := Option.some.inj heq
        exact h ▸ hmem
      next => cases heq
    next => cases heq
  · intro hmem
    exact ⟨_, hmem, if_pos rfl⟩

theorem filterMap_range {α : Type*} (x : Option α) (n : ℕ) :
    (List.range n).filterMap (fun j => if j = i then x else none) =
      if i < n then x.toList else [] := by
  induction n with
  | zero => rfl
  | succ n ih =>
    rw [List.range_succ, List.filterMap_append, ih]
    rcases Nat.lt_trichotomy i n with hlt | rfl | hlt
    · simp [hlt, Nat.lt_succ_of_lt hlt, Nat.ne_of_gt hlt]
    · cases x <;> simp
    · simp [Nat.not_lt_of_lt hlt, Nat.not_lt.mpr hlt, Nat.ne_of_lt hlt]

/-- The events of a step that concerns every publish. -/
theorem history_eventsOf (g : ℕ → Publish → Option PublishEvent) :
    history i (s.eventsOf g) = (s.publishes[i]?.bind (g i)).toList := by
  have heach : history i (s.eventsOf g) = (List.range s.publishes.length).filterMap fun j =>
      if j = i then s.publishes[i]?.bind (g i) else none := by
    rw [eventsOf, history, List.filterMap_filterMap]
    congr 1
    funext j
    by_cases hj : j = i
    · subst hj
      cases s.publishes[j]?.bind (g j) <;> simp
    · cases s.publishes[j]?.bind (g j) <;> simp [hj]
  rw [heach, filterMap_range]
  split
  next => rfl
  next hlt => simp [List.getElem?_eq_none (Nat.not_lt.mp hlt)]

end Publisher

namespace Publish

/-- The publish's record is in the pending map, unless the map has been cleared. -/
def Active (p : Publish) : Prop := p.phase = .waiting ∨ ∃ outcome, p.phase = .finalizing outcome

def Queued (p : Publish) : Prop := p.phase = .queued

def Settled (p : Publish) : Prop := ∃ outcome, p.phase = .settled outcome

/-- What a publish never changes. -/
structure Kept (p q : Publish) : Prop where
  eventId : q.eventId = p.eventId
  channel : q.channel = p.channel
  message : q.message = p.message
  after : q.after = p.after

theorem Kept.refl (p : Publish) : p.Kept p := ⟨rfl, rfl, rfl, rfl⟩

theorem Active.not_queued {p : Publish} (h : p.Active) : ¬ p.Queued := by
  rintro hqueued
  rcases h with h | ⟨outcome, h⟩ <;> cases hqueued.symm.trans h

theorem Active.not_settled {p : Publish} (h : p.Active) : ¬ p.Settled := by
  rintro ⟨outcome, hsettled⟩
  rcases h with h | ⟨outcome, h⟩ <;> cases hsettled.symm.trans h

theorem Settled.not_queued {p : Publish} (h : p.Settled) : ¬ p.Queued := by
  obtain ⟨outcome, h⟩ := h
  rintro hqueued
  cases hqueued.symm.trans h

/-- A change in which a publish keeps its place. -/
structure Goes (p q : Publish) : Prop where
  kept : p.Kept q
  active : p.Active → q.Active
  queued : p.Queued → q.Queued
  settled : p.Settled → q.Settled
  outstanding : q.outstanding = true → p.outstanding = true

theorem Goes.refl (p : Publish) : p.Goes p := ⟨.refl p, id, id, id, id⟩

end Publish

namespace Publisher
variable {options : AmqpAdapterOptions} {s s' : Publisher} {p q : Publish} {a : Action}
  {i j : ℕ} {out log : List Event} {f : ℕ → Publish → Publish} {outcome : Outcome}

theorem conclude_goes (outcome : Outcome) (p : Publish) : p.Goes (conclude outcome p) := by
  unfold conclude
  split
  next hphase =>
    refine ⟨⟨rfl, rfl, rfl, rfl⟩, fun _ => .inr ⟨outcome, rfl⟩, fun hqueued => ?_, ?_, id⟩
    · cases hqueued.symm.trans hphase
    · rintro ⟨_, hsettled⟩
      cases hsettled.symm.trans hphase
  next => exact .refl p

theorem answer_goes (outcome : Outcome) (p : Publish) :
    p.Goes (conclude outcome { p with outstanding := false }) := by
  have h := conclude_goes outcome { p with outstanding := false }
  exact ⟨⟨h.kept.eventId, h.kept.channel, h.kept.message, h.kept.after⟩, h.active, h.queued,
    h.settled, fun hout => nomatch h.outstanding hout⟩

theorem outstanding_answer (outcome : Outcome) (p : Publish) :
    (conclude outcome { p with outstanding := false }).outstanding = false := by
  unfold conclude
  split <;> rfl

theorem onAck_goes (p : Publish) : p.Goes (onAck p) := answer_goes _ p

theorem onConfirmError_goes (s : Publisher) (text : String) (p : Publish) :
    p.Goes (s.onConfirmError text p) := answer_goes _ p

theorem conclude_ticket (held : Bool) (outcome : Outcome) (p : Publish) :
    (conclude outcome p).ticket held = (p.ticket held).conclude outcome.verdict := by
  unfold conclude Ticket.conclude
  cases hphase : p.phase <;> simp [Publish.ticket, PublishPhase.view, hphase]

theorem answer_ticket (held : Bool) (outcome : Outcome) (p : Publish) :
    (conclude outcome { p with outstanding := false }).ticket held =
      (p.ticket held).answer outcome.verdict :=
  conclude_ticket held outcome { p with outstanding := false }

theorem verdict_classifyConfirmError (params : ConfirmFailure) :
    (Outcome.rejected (classifyConfirmError params)).verdict = .failed := by
  unfold classifyConfirmError
  split <;> rfl

@[simp] theorem adjust_publishes : (s.adjust f).publishes = s.publishes.mapIdx f := rfl

@[simp] theorem adjust_pendingReturns : (s.adjust f).pendingReturns = s.pendingReturns := rfl

/-- What holds of the pending map, the ids and the messages in every state. -/
structure WellFormed (options : AmqpAdapterOptions) (s : Publisher) : Prop where
  pending : ∀ e ∈ s.pendingReturns,
    ∃ p, s.publishes[e.2]? = some p ∧ p.eventId = e.1 ∧ p.Active
  distinct : ∀ (i j : ℕ) (p q : Publish), s.publishes[i]? = some p → s.publishes[j]? = some q →
    p.eventId = q.eventId → i = j
  header : ∀ p ∈ s.publishes, p.message.props.headers.lookup publishIdHeader =
    if options.correlationHeader then some p.eventId else none
  open_of_outstanding : ∀ p ∈ s.publishes, p.outstanding = true → s.isOpen p.channel = true

theorem wellFormed_initial : WellFormed options {} := by
  constructor <;> simp

theorem exists_of_mapIdx (hpublishes : s'.publishes = s.publishes.mapIdx f)
    (hq : s'.publishes[j]? = some q) : ∃ p, s.publishes[j]? = some p ∧ q = f j p := by
  rw [hpublishes, List.getElem?_mapIdx] at hq
  obtain ⟨p, hp, rfl⟩ := Option.map_eq_some_iff.mp hq
  exact ⟨p, hp, rfl⟩

theorem getElem?_mapIdx_of (hpublishes : s'.publishes = s.publishes.mapIdx f)
    (hp : s.publishes[j]? = some p) : s'.publishes[j]? = some (f j p) := by
  rw [hpublishes, List.getElem?_mapIdx, hp]
  rfl

/-- The invariant for a change of the publishes and of the pending map. -/
theorem WellFormed.adjust (h : WellFormed options s)
    (hpublishes : s'.publishes = s.publishes.mapIdx f)
    (hkept : ∀ (j : ℕ) (p : Publish), s.publishes[j]? = some p → p.Kept (f j p))
    (hopen : ∀ (j : ℕ) (p : Publish), s.publishes[j]? = some p → (f j p).outstanding = true →
      s'.isOpen p.channel = true)
    (hpending : ∀ e ∈ s'.pendingReturns,
      ∃ p, s.publishes[e.2]? = some p ∧ p.eventId = e.1 ∧ (f e.2 p).Active) :
    WellFormed options s' := by
  constructor
  · intro e he
    obtain ⟨p, hp, hid, hactive⟩ := hpending e he
    exact ⟨f e.2 p, getElem?_mapIdx_of hpublishes hp, (hkept e.2 p hp).eventId.trans hid, hactive⟩
  · intro i j p' q' hp' hq' hid
    obtain ⟨p, hp, rfl⟩ := exists_of_mapIdx hpublishes hp'
    obtain ⟨q, hq, rfl⟩ := exists_of_mapIdx hpublishes hq'
    rw [(hkept i p hp).eventId, (hkept j q hq).eventId] at hid
    exact h.distinct i j p q hp hq hid
  · intro q hq
    obtain ⟨j, hj⟩ := List.mem_iff_getElem?.mp hq
    obtain ⟨p, hp, rfl⟩ := exists_of_mapIdx hpublishes hj
    rw [(hkept j p hp).message, (hkept j p hp).eventId]
    exact h.header p (List.mem_of_getElem? hp)
  · intro q hq hout
    obtain ⟨j, hj⟩ := List.mem_iff_getElem?.mp hq
    obtain ⟨p, hp, rfl⟩ := exists_of_mapIdx hpublishes hj
    rw [(hkept j p hp).channel]
    exact hopen j p hp hout

theorem WellFormed.adjust_goes (h : WellFormed options s)
    (hpublishes : s'.publishes = s.publishes.mapIdx f)
    (hpending : s'.pendingReturns = s.pendingReturns)
    (hgoes : ∀ (j : ℕ) (p : Publish), s.publishes[j]? = some p → p.Goes (f j p))
    (hopen : ∀ (j : ℕ) (p : Publish), s.publishes[j]? = some p → (f j p).outstanding = true →
      s.isOpen p.channel = true → s'.isOpen p.channel = true) : WellFormed options s' := by
  refine h.adjust hpublishes (fun j p hp => (hgoes j p hp).kept) ?_ ?_
  · intro j p hp hout
    have hbefore := (hgoes j p hp).outstanding hout
    exact hopen j p hp hout (h.open_of_outstanding p (List.mem_of_getElem? hp) hbefore)
  · intro e he
    obtain ⟨p, hp, hid, hactive⟩ := h.pending e (hpending ▸ he)
    exact ⟨p, hp, hid, (hgoes e.2 p hp).active hactive⟩

/-- A change of one publish. -/
theorem goes_of_one {g : Publish → Publish} (hg : ∀ p : Publish, p.Goes (g p)) (j : ℕ)
    (p : Publish) :
    p.Goes (if j = i then g p else p) := by
  split
  next => exact hg p
  next => exact .refl p

theorem WellFormed.adjustOne (h : WellFormed options s) {g : Publish → Publish}
    (hg : ∀ p : Publish, p.Goes (g p)) : WellFormed options (s.adjustOne i g) :=
  h.adjust_goes rfl rfl (fun j p _ => goes_of_one hg j p) (fun _ _ _ _ hopen => hopen)

theorem WellFormed.of_eq (h : WellFormed options s) (hpublishes : s'.publishes = s.publishes)
    (hpending : ∀ e ∈ s'.pendingReturns, e ∈ s.pendingReturns)
    (hopen : ∀ channel, s.isOpen channel = true → s'.isOpen channel = true) :
    WellFormed options s' := by
  constructor
  · intro e he
    rw [hpublishes]
    exact h.pending e (hpending e he)
  · rw [hpublishes]
    exact h.distinct
  · rw [hpublishes]
    exact h.header
  · rw [hpublishes]
    exact fun p hp hout => hopen _ (h.open_of_outstanding p hp hout)

theorem getElem?_call : (s.call p).publishes[j]? =
    if j = s.publishes.length then some p else s.publishes[j]? := by
  rw [call, List.getElem?_append]
  split
  next hlt => rw [if_neg (Nat.ne_of_lt hlt)]
  next hge =>
    split
    next heq =>
      subst heq
      simp
    next hne =>
      rw [List.getElem?_eq_none (by simp; omega), List.getElem?_eq_none (by omega)]

theorem WellFormed.call (h : WellFormed options s)
    (hfresh : ∀ q ∈ s.publishes, q.eventId ≠ p.eventId)
    (hheader : p.message.props.headers.lookup publishIdHeader =
      if options.correlationHeader then some p.eventId else none)
    (hout : p.outstanding = false) : WellFormed options (s.call p) := by
  have hget : ∀ j q, (s.call p).publishes[j]? = some q →
      (j = s.publishes.length ∧ q = p) ∨ s.publishes[j]? = some q := by
    intro j q hq
    rw [getElem?_call] at hq
    split at hq
    next heq => exact .inl ⟨heq, (Option.some.inj hq).symm⟩
    next => exact .inr hq
  constructor
  · intro e he
    obtain ⟨q, hq, hid, hactive⟩ := h.pending e he
    refine ⟨q, ?_, hid, hactive⟩
    have hlt := (List.getElem?_eq_some_iff.mp hq).1
    rw [getElem?_call, if_neg (Nat.ne_of_lt hlt), hq]
  · intro i j q r hq hr hid
    rcases hget i q hq with ⟨hi, hqp⟩ | hqold <;> rcases hget j r hr with ⟨hj, hrp⟩ | hrold
    · rw [hi, hj]
    · exact absurd (hid.symm.trans (by rw [hqp])) (hfresh r (List.mem_of_getElem? hrold))
    · exact absurd (hid.trans (by rw [hrp])) (hfresh q (List.mem_of_getElem? hqold))
    · exact h.distinct i j q r hqold hrold hid
  · intro q hq
    rcases List.mem_append.mp hq with hq | hq
    · exact h.header q hq
    · obtain rfl := List.mem_singleton.mp hq
      exact hheader
  · intro q hq hqout
    rcases List.mem_append.mp hq with hq | hq
    · exact h.open_of_outstanding q hq hqout
    · obtain rfl := List.mem_singleton.mp hq
      rw [hout] at hqout
      cases hqout

/-- The part of a publish that `doPublish` is, for a mandatory message. -/
inductive Begins (s : Publisher) (i : ℕ) (p : Publish) : (Publish → Publish) → PublishEvent → Prop
  | started : s.isOpen p.channel = true →
      Begins s i p (fun q => { q with phase := .waiting, returned := false, outstanding := true })
        .started
  | failed (error : PublishError) : (Outcome.rejected error).verdict = .failed →
      Begins s i p (fun q => { q with phase := .finalizing (.rejected error), returned := false })
        .failed

theorem doPublish_cases {throws : Option String} (hmandatory : options.mandatory = true)
    (h : s.doPublish options i p throws = some (s', out)) :
    ∃ g e, Begins s i p g e ∧ out = [.happened i e] ∧
      s' = ({ s with pendingReturns := JsMap.set s.pendingReturns p.eventId i }).adjustOne i g := by
  simp only [doPublish, hmandatory, if_true] at h
  split at h
  next text =>
    obtain ⟨rfl, rfl⟩ := Prod.mk.inj (Option.some.inj h)
    exact ⟨_, _, .failed _ rfl, rfl, rfl⟩
  next =>
    split at h
    next hopen =>
      obtain ⟨rfl, rfl⟩ := Prod.mk.inj (Option.some.inj h)
      exact ⟨_, _, .started hopen, rfl, rfl⟩
    next => cases h

theorem Begins.kept {g : Publish → Publish} {e : PublishEvent} (h : Begins s i p g e)
    (q : Publish) : q.Kept (g q) := by
  cases h <;> exact ⟨rfl, rfl, rfl, rfl⟩

theorem Begins.active {g : Publish → Publish} {e : PublishEvent} (h : Begins s i p g e)
    (q : Publish) : (g q).Active := by
  cases h with
  | started => exact .inl rfl
  | failed error => exact .inr ⟨_, rfl⟩

/-- A pending return under another id is of another publish. -/
theorem WellFormed.pending_of_ne {e : String × ℕ} (h : WellFormed options s)
    (hp : s.publishes[i]? = some p) (he : e ∈ s.pendingReturns) (hne : e.1 ≠ p.eventId) :
    ∃ q, s.publishes[e.2]? = some q ∧ q.eventId = e.1 ∧ q.Active ∧ e.2 ≠ i := by
  obtain ⟨q, hq, hid, hactive⟩ := h.pending e he
  refine ⟨q, hq, hid, hactive, fun heq => ?_⟩
  rw [heq, hp] at hq
  obtain rfl := Option.some.inj hq
  exact hne hid.symm

theorem WellFormed.begin {g : Publish → Publish} {e : PublishEvent} (h : WellFormed options s)
    (hp : s.publishes[i]? = some p) (hbegins : Begins s i p g e) :
    WellFormed options
      (({ s with pendingReturns := JsMap.set s.pendingReturns p.eventId i }).adjustOne i g) := by
  refine h.adjust (f := fun j q => if j = i then g q else q) rfl ?_ ?_ ?_
  · intro j q hq
    split
    next => exact hbegins.kept q
    next => exact .refl q
  · intro j q hq hout
    split at hout
    next heq =>
      subst heq
      obtain rfl := Option.some.inj (hp.symm.trans hq)
      cases hbegins with
      | started hopen => exact hopen
      | failed => exact h.open_of_outstanding p (List.mem_of_getElem? hp) hout
    next => exact h.open_of_outstanding q (List.mem_of_getElem? hq) hout
  · intro e he
    rcases JsMap.mem_set.mp he with rfl | ⟨he, hne⟩
    · exact ⟨p, hp, rfl, by simpa using hbegins.active p⟩
    · obtain ⟨q, hq, hid, hactive, hother⟩ := h.pending_of_ne hp he hne
      refine ⟨q, hq, hid, ?_⟩
      rw [if_neg hother]
      exact hactive

theorem WellFormed.finalize (h : WellFormed options s) (hmandatory : options.mandatory = true)
    (hp : s.publishes[i]? = some p) (outcome : Outcome) :
    WellFormed options (s.finalize options i p outcome) := by
  refine h.adjust (f := fun j q => if j = i then { q with phase := .settled outcome } else q)
    (by simp [Publisher.finalize, Publisher.adjustOne]) ?_ ?_ ?_
  · intro j q hq
    split
    next => exact ⟨rfl, rfl, rfl, rfl⟩
    next => exact .refl q
  · intro j q hq hout
    have hout : q.outstanding = true := by
      split at hout <;> exact hout
    exact h.open_of_outstanding q (List.mem_of_getElem? hq) hout
  · intro e he
    simp only [Publisher.finalize, hmandatory, if_true] at he
    obtain ⟨he, hne⟩ := JsMap.mem_delete.mp he
    obtain ⟨q, hq, hid, hactive, hother⟩ := h.pending_of_ne hp he hne
    refine ⟨q, hq, hid, ?_⟩
    rw [if_neg hother]
    exact hactive

theorem WellFormed.close (h : WellFormed options s) (channel : ℕ) (text : String) :
    WellFormed options (s.close channel text) := by
  refine h.adjust_goes rfl rfl ?_ ?_
  · intro j q hq
    split
    next => exact onConfirmError_goes _ text q
    next => exact .refl q
  · intro j q hq hout hopen
    split at hout
    next =>
      rw [onConfirmError, outstanding_answer] at hout
      cases hout
    next hne =>
      have hchannel : q.channel ≠ channel := fun heq => hne ⟨heq, hout⟩
      obtain ⟨hlt, hclosed⟩ := Bool.and_eq_true_iff.mp hopen
      refine Bool.and_eq_true_iff.mpr ⟨hlt, ?_⟩
      simpa [Publisher.close, Publisher.adjust, hchannel] using hclosed

theorem WellFormed.begun (h : WellFormed options s) (hmandatory : options.mandatory = true)
    {env : PublishEnvironment} {eventType : String} {payload : List UInt8}
    {publishOptions : PublishOptions} {message : Message} (channel : ℕ)
    (hmessage : prepare options env eventType payload publishOptions = .ok message)
    (hfresh : ∀ p ∈ s.publishes, p.eventId ≠ env.randomUUID) :
    WellFormed options (s.call (s.begun env channel message)) := by
  apply h.call hfresh
  · rw [Publisher.begun, (prepare_eq_ok hmessage).2.2]
    exact lookup_publishHeaders env publishOptions hmandatory
  · rfl

theorem onReturn_goes (s : Publisher) (message : Message) (j : ℕ) (p : Publish) :
    p.Goes (if j ∈ s.marked message then { p with returned := true } else p) := by
  split
  next => exact ⟨⟨rfl, rfl, rfl, rfl⟩, id, id, id, id⟩
  next => exact .refl p

theorem WellFormed.step (h : WellFormed options s) (hmandatory : options.mandatory = true)
    (hstep : step options s a = some (s', out)) : WellFormed options s' := by
  cases step_cases hstep with
  | quiet hpublishes hpending hchain hopen =>
    exact h.of_eq hpublishes (fun e he => hpending ▸ he) hopen
  | queued channel message hmessage hfresh hchain =>
    exact (h.begun hmandatory channel hmessage hfresh).of_eq rfl (fun _ he => he)
      (fun _ hopen => hopen)
  | called channel message hmessage hfresh hchain hdo =>
    obtain ⟨g, e, hbegins, rfl, rfl⟩ := doPublish_cases hmandatory hdo
    exact (h.begun hmandatory channel hmessage hfresh).begin (by rw [getElem?_call, if_pos rfl])
      hbegins
  | doPublish p hp hphase hturn hdo =>
    obtain ⟨g, e, hbegins, rfl, rfl⟩ := doPublish_cases hmandatory hdo
    exact h.begin hp hbegins
  | returned p hp hout =>
    exact h.adjust_goes rfl rfl (fun j q _ => onReturn_goes s p.message j q)
      (fun _ _ _ _ hopen => hopen)
  | confirmed p hp hout => exact h.adjustOne onAck_goes
  | nacked p hp hout => exact h.adjustOne (onConfirmError_goes s _)
  | timedOut p hp hphase => exact h.adjustOne (conclude_goes _)
  | channelClosed hopen => exact h.close _ _
  | finalize p outcome hp hphase => exact h.finalize hmandatory hp outcome
  | failPendingReturns => exact h.of_eq rfl (fun e he => nomatch he) (fun _ hopen => hopen)

/-- A returned message marks the record of its own publish, and no other. -/
def Attributed (s : Publisher) : Action → Prop
  | .returned i => ∀ p, s.publishes[i]? = some p → ∀ j, j ∈ s.marked p.message ↔
      j = i ∧ s.isPending i p = true
  | _ => True

/-- Each publish goes the way of its ticket. -/
def Simulates (s : Publisher) (out : List Event) (s' : Publisher) : Prop :=
  ∀ j, Machine.run Ticket.step (s.ticket j) (history j out) = some (s'.ticket j, history j out)

theorem isPending_iff : s.isPending i p = true ↔ (p.eventId, i) ∈ s.pendingReturns := by
  simp [isPending]

theorem ticket_mapIdx (hpublishes : s'.publishes = s.publishes.mapIdx f)
    (hp : s.publishes[j]? = some p) : s'.ticket j = (f j p).ticket (s'.isPending j (f j p)) :=
  ticket_of_getElem? (getElem?_mapIdx_of hpublishes hp)

/-- A ticket stays as it is if its publish and its record do. -/
theorem ticket_eq (hpublishes : s'.publishes = s.publishes.mapIdx f)
    (hf : ∀ p, s.publishes[j]? = some p → f j p = p ∧ s'.isPending j p = s.isPending j p) :
    s'.ticket j = s.ticket j := by
  cases hp : s.publishes[j]? with
  | none =>
    have hnone : s'.publishes[j]? = none := by
      rw [hpublishes, List.getElem?_mapIdx, hp]
      rfl
    rw [ticket, ticket, hp, hnone]
  | some p =>
    obtain ⟨heq, hpending⟩ := hf p hp
    rw [ticket_mapIdx hpublishes hp, ticket_of_getElem? hp, heq, hpending]

theorem simulates_one {e : PublishEvent} (hother : ∀ j, j ≠ i → s'.ticket j = s.ticket j)
    (hown : Ticket.step (s.ticket i) e = some (s'.ticket i, [e])) :
    Simulates s [.happened i e] s' := by
  intro j
  rw [history_singleton]
  split
  next heq =>
    subst heq
    exact Machine.run_singleton.mpr hown
  next hne =>
    rw [hother j (Ne.symm hne)]
    rfl

/-- An event for one publish that leaves the pending map alone. -/
theorem simulates_adjustOne {g : Publish → Publish} {e : PublishEvent}
    (hp : s.publishes[i]? = some p) (hg : p.Kept (g p))
    (hown : Ticket.step (p.ticket (s.isPending i p)) e =
      some ((g p).ticket (s.isPending i p), [e])) :
    Simulates s [.happened i e] (s.adjustOne i g) := by
  apply simulates_one
  · intro j hne
    exact ticket_eq (f := fun j q => if j = i then g q else q) rfl fun q _ => ⟨if_neg hne, rfl⟩
  · have hafter : (s.adjustOne i g).ticket i = (g p).ticket (s.isPending i p) := by
      rw [ticket_mapIdx (f := fun j q => if j = i then g q else q) rfl hp, if_pos rfl, isPending,
        hg.eventId]
      rfl
    rw [ticket_of_getElem? hp, hafter]
    exact hown

theorem simulates_answer {e : PublishEvent} {verdict : Verdict} {outcome : Outcome}
    {g : Publish → Publish} (hp : s.publishes[i]? = some p)
    (hg : g p = conclude outcome { p with outstanding := false })
    (hverdict : outcome.verdict = verdict)
    (hstep : Ticket.step (p.ticket (s.isPending i p)) e =
      some ((p.ticket (s.isPending i p)).answer verdict, [e])) :
    Simulates s [.happened i e] (s.adjustOne i g) := by
  apply simulates_adjustOne hp
  · rw [hg]
    exact (answer_goes outcome p).kept
  · rw [hg, answer_ticket, hverdict]
    exact hstep

theorem simulates_confirmed (hp : s.publishes[i]? = some p) (hout : p.outstanding = true) :
    Simulates s [.happened i .confirmed] (s.adjustOne i onAck) := by
  have hverdict : Outcome.verdict
      (if p.returned then .rejected (unroutable p.message.routingKey) else .resolved) =
        if p.returned then .unroutable else .resolved := by
    split <;> rfl
  apply simulates_answer hp rfl hverdict
  simp [Ticket.step, Publish.ticket, hout]

theorem simulates_nacked (hp : s.publishes[i]? = some p) (hout : p.outstanding = true)
    (text : String) :
    Simulates s [.happened i .nacked] (s.adjustOne i (s.onConfirmError text)) := by
  apply simulates_answer hp rfl (verdict_classifyConfirmError _)
  simp [Ticket.step, Publish.ticket, hout]

theorem simulates_timedOut (hp : s.publishes[i]? = some p) (hphase : p.phase = .waiting)
    (timeoutMs : ℕ) (routingKey : String) :
    Simulates s [.happened i .timedOut]
      (s.adjustOne i (conclude (.rejected (Amqp.timedOut timeoutMs routingKey)))) := by
  apply simulates_adjustOne hp (conclude_goes _ p).kept
  rw [conclude_ticket]
  simp [Ticket.step, Ticket.conclude, Publish.ticket, PublishPhase.view, hphase, Outcome.verdict,
    Amqp.timedOut]

theorem simulates_returned (hp : s.publishes[i]? = some p) (hout : p.outstanding = true)
    (hattributed : s.Attributed (.returned i)) :
    Simulates s [.happened i .returned] (s.onReturn p.message) := by
  have hmarked := hattributed p hp
  have hpublishes : (s.onReturn p.message).publishes = s.publishes.mapIdx fun j q =>
      if j ∈ s.marked p.message then { q with returned := true } else q := rfl
  apply simulates_one
  · intro j hne
    refine ticket_eq hpublishes fun q _ => ⟨if_neg ?_, rfl⟩
    exact fun hmem => hne ((hmarked j).mp hmem).1
  · rw [ticket_of_getElem? hp, ticket_mapIdx hpublishes hp]
    have hown : i ∈ s.marked p.message ↔ s.isPending i p = true := by simp [hmarked i]
    have hstill : ∀ q : Publish, q.eventId = p.eventId →
        (s.onReturn p.message).isPending i q = s.isPending i p := by
      intro q hid
      rw [isPending, hid]
      rfl
    by_cases hmem : i ∈ s.marked p.message
    · rw [if_pos hmem, hstill { p with returned := true } rfl, hown.mp hmem]
      simp [Ticket.step, Publish.ticket, hout]
    · rw [if_neg hmem, hstill p rfl, Bool.eq_false_iff.mpr (mt hown.mpr hmem)]
      simp [Ticket.step, Publish.ticket, hout]

theorem simulates_close (channel : ℕ) (text : String) :
    Simulates s (s.eventsOf fun _ p =>
        if p.channel = channel ∧ p.outstanding = true then some .lost else none)
      (s.close channel text) := by
  intro j
  rw [history_eventsOf]
  cases hp : s.publishes[j]? with
  | none =>
    have hsame : (s.close channel text).ticket j = s.ticket j :=
      ticket_eq rfl fun p hsome => by rw [hp] at hsome; cases hsome
    rw [hsame]
    rfl
  | some p =>
    rw [Option.bind_some]
    by_cases hlost : p.channel = channel ∧ p.outstanding = true
    · have hafter : (s.close channel text).ticket j =
          (p.ticket (s.isPending j p)).answer .failed := by
        rw [ticket_mapIdx rfl hp, if_pos hlost, onConfirmError, answer_ticket,
          verdict_classifyConfirmError, isPending, ((answer_goes _ p).kept).eventId]
        rfl
      rw [if_pos hlost, hafter, ticket_of_getElem? hp]
      apply Machine.run_singleton.mpr
      simp [Ticket.step, Publish.ticket, hlost.2]
    · have hsame : (s.close channel text).ticket j = s.ticket j :=
        ticket_eq rfl fun q hq => by
          obtain rfl := Option.some.inj (hp.symm.trans hq)
          exact ⟨if_neg hlost, rfl⟩
      rw [if_neg hlost, hsame]
      rfl

theorem simulates_failPendingReturns :
    Simulates s (s.eventsOf fun j p => if s.isPending j p then some .cleared else none)
      { s with pendingReturns := [] } := by
  intro j
  rw [history_eventsOf]
  cases hp : s.publishes[j]? with
  | none =>
    rw [ticket, ticket, hp]
    rfl
  | some p =>
    have hafter : ({ s with pendingReturns := [] } : Publisher).ticket j = p.ticket false := by
      exact ticket_of_getElem? hp
    rw [hafter, ticket_of_getElem? hp, Option.bind_some]
    cases hheld : s.isPending j p with
    | true =>
      apply Machine.run_singleton.mpr
      simp [Ticket.step, Publish.ticket]
    | false => rfl

theorem simulates_finalize (h : WellFormed options s) (hmandatory : options.mandatory = true)
    (hp : s.publishes[i]? = some p) (hphase : p.phase = .finalizing outcome) :
    Simulates s [.happened i (.settled outcome)] (s.finalize options i p outcome) := by
  have hpublishes : (s.finalize options i p outcome).publishes = s.publishes.mapIdx fun j q =>
      if j = i then { q with phase := .settled outcome } else q := rfl
  have hpending : (s.finalize options i p outcome).pendingReturns =
      JsMap.delete s.pendingReturns p.eventId := if_pos hmandatory
  apply simulates_one
  · intro j hne
    refine ticket_eq hpublishes fun q hq => ⟨if_neg hne, ?_⟩
    have hid : q.eventId ≠ p.eventId := fun heq => hne (h.distinct j i q p hq hp heq)
    rw [Bool.eq_iff_iff, isPending_iff, isPending_iff, hpending, JsMap.mem_delete]
    exact and_iff_left hid
  · have hdropped : (s.finalize options i p outcome).isPending i
        { p with phase := .settled outcome } = false := by
      rw [Bool.eq_false_iff, Ne, isPending_iff, hpending, JsMap.mem_delete]
      exact fun hmem => hmem.2 rfl
    rw [ticket_of_getElem? hp, ticket_mapIdx hpublishes hp, if_pos rfl, hdropped]
    simp [Ticket.step, Publish.ticket, PublishPhase.view, hphase]

theorem Begins.step {g : Publish → Publish} {e : PublishEvent} (h : Begins s i p g e)
    (hphase : p.phase = .queued) (held : Bool) :
    Ticket.step (p.ticket held) e = some ((g p).ticket true, [e]) := by
  cases h with
  | started => simp [Ticket.step, Publish.ticket, PublishPhase.view, hphase]
  | failed error hverdict =>
    simp [Ticket.step, Publish.ticket, PublishPhase.view, hphase, hverdict]

theorem simulates_begin {g : Publish → Publish} {e : PublishEvent} (h : WellFormed options s)
    (hp : s.publishes[i]? = some p) (hphase : p.phase = .queued) (hbegins : Begins s i p g e) :
    Simulates s [.happened i e]
      (({ s with pendingReturns := JsMap.set s.pendingReturns p.eventId i }).adjustOne i g) := by
  have hpublishes : (({ s with
      pendingReturns := JsMap.set s.pendingReturns p.eventId i }).adjustOne i g).publishes =
        s.publishes.mapIdx fun j q => if j = i then g q else q := rfl
  apply simulates_one
  · intro j hne
    refine ticket_eq hpublishes fun q hq => ⟨if_neg hne, ?_⟩
    have hid : q.eventId ≠ p.eventId := fun heq => hne (h.distinct j i q p hq hp heq)
    rw [Bool.eq_iff_iff, isPending_iff, isPending_iff]
    show (q.eventId, j) ∈ JsMap.set s.pendingReturns p.eventId i ↔ _
    rw [JsMap.mem_set]
    simp [hid]
  · have hheld : (({ s with
        pendingReturns := JsMap.set s.pendingReturns p.eventId i }).adjustOne i g).isPending i
          (g p) = true := by
      rw [isPending_iff, (hbegins.kept p).eventId]
      exact JsMap.mem_set.mpr (.inl rfl)
    rw [ticket_of_getElem? hp, ticket_mapIdx hpublishes hp, if_pos rfl, hheld]
    exact hbegins.step hphase _

/-- A publish that has been called is as blank as before. -/
theorem ticket_call (h : WellFormed options s) (hphase : p.phase = .queued)
    (hout : p.outstanding = false) (hreturned : p.returned = false) (j : ℕ) :
    (s.call p).ticket j = s.ticket j := by
  rw [ticket, ticket, getElem?_call]
  by_cases hj : j = s.publishes.length
  · have hblank : s.isPending j p = false := by
      rw [Bool.eq_false_iff, Ne, isPending_iff]
      intro hmem
      obtain ⟨q, hq, -⟩ := h.pending _ hmem
      rw [hj, List.getElem?_eq_none (Nat.le_refl _)] at hq
      cases hq
    have hblank : (s.call p).isPending j p = false := hblank
    rw [if_pos hj, List.getElem?_eq_none (Nat.le_of_eq hj.symm)]
    simp [Publish.ticket, PublishPhase.view, hblank, hphase, hout, hreturned]
  · rw [if_neg hj]
    rfl

theorem simulates_of_ticket_eq (hticket : ∀ j, s'.ticket j = s.ticket j)
    (hout : ∀ j, history j out = []) : Simulates s out s' := by
  intro j
  rw [hout, hticket]
  rfl

theorem simulates_step (h : WellFormed options s) (hmandatory : options.mandatory = true)
    (hattributed : s.Attributed a) (hstep : step options s a = some (s', out)) :
    Simulates s out s' := by
  cases step_cases hstep with
  | quiet hpublishes hpending hchain hopen hout =>
    apply simulates_of_ticket_eq
    · intro j
      rw [ticket, ticket, hpublishes]
      unfold isPending
      rw [hpending]
    · intro j
      rcases hout with rfl | ⟨error, rfl⟩ <;> rfl
  | queued channel message hmessage hfresh hchain =>
    exact simulates_of_ticket_eq (fun j => ticket_call h rfl rfl rfl j) (fun _ => rfl)
  | called channel message hmessage hfresh hchain hdo =>
    obtain ⟨g, e, hbegins, rfl, rfl⟩ := doPublish_cases hmandatory hdo
    have hbegin := simulates_begin (h.begun hmandatory channel hmessage hfresh)
      (by rw [getElem?_call, if_pos rfl]) rfl hbegins
    intro j
    have hj := hbegin j
    rwa [ticket_call h rfl rfl rfl] at hj
  | doPublish p hp hphase hturn hdo =>
    obtain ⟨g, e, hbegins, rfl, rfl⟩ := doPublish_cases hmandatory hdo
    exact simulates_begin h hp hphase hbegins
  | returned p hp hout => exact simulates_returned hp hout hattributed
  | confirmed p hp hout => exact simulates_confirmed hp hout
  | nacked p hp hout => exact simulates_nacked hp hout _
  | timedOut p hp hphase => exact simulates_timedOut hp hphase _ _
  | channelClosed hopen => exact simulates_close _ _
  | finalize p outcome hp hphase => exact simulates_finalize h hmandatory hp hphase
  | failPendingReturns => exact simulates_failPendingReturns

/-- Each publish has a history that its ticket allows. -/
def Follows (options : AmqpAdapterOptions) (s : Publisher) (log : List Event) : Prop :=
  WellFormed options s ∧
    ∀ i, Machine.run Ticket.step {} (history i log) = some (s.ticket i, history i log)

theorem follows_initial : Follows options {} [] := ⟨wellFormed_initial, fun _ => rfl⟩

theorem Follows.step (h : Follows options s log) (hmandatory : options.mandatory = true)
    (hattributed : s.Attributed a) (hstep : step options s a = some (s', out)) :
    Follows options s' (log ++ out) := by
  refine ⟨h.1.step hmandatory hstep, fun i => ?_⟩
  rw [history_append]
  exact Machine.run_append.mpr
    ⟨_, _, _, h.2 i, simulates_step h.1 hmandatory hattributed hstep i, rfl⟩

/-- Every execution that attributes each returned message follows the tickets. -/
theorem follows_of_run {actions : List Action} (hmandatory : options.mandatory = true)
    (hattributed : Machine.Meets (step options) Attributed {} actions)
    (hrun : Machine.run (step options) {} actions = some (s, log)) : Follows options s log :=
  Machine.run_invariant_of_meets (fun _ _ _ _ _ h ha hstep => h.step hmandatory ha hstep)
    follows_initial hattributed hrun

/-- By the header, each returned message is attributed. -/
theorem attributed_of_header (h : WellFormed options s)
    (hheader : options.correlationHeader = true) (a : Action) : s.Attributed a := by
  cases a with
  | returned i =>
    intro p hp j
    have hid := h.header p (List.mem_of_getElem? hp)
    rw [if_pos hheader] at hid
    rw [marked, hid, Option.mem_toList, isPending_iff]
    constructor
    · intro hlookup
      have hmem := JsMap.mem_of_lookup hlookup
      obtain ⟨q, hq, heq, -⟩ := h.pending _ hmem
      obtain rfl := h.distinct j i q p hq hp heq
      exact ⟨rfl, hmem⟩
    · rintro ⟨rfl, hmem⟩
      obtain ⟨k, hlookup⟩ := JsMap.exists_lookup hmem
      obtain ⟨q, hq, heq, -⟩ := h.pending _ (JsMap.mem_of_lookup hlookup)
      obtain rfl := h.distinct k j q p hq hp heq
      exact hlookup
  | _ => trivial

/-- The outcome of a publish is certain. -/
def Decides (s : Publisher) (i : ℕ) (verdict : Verdict) : Prop :=
  ∃ p outcome, s.publishes[i]? = some p ∧ outcome.verdict = verdict ∧
    (p.phase = .finalizing outcome ∨ p.phase = .settled outcome)

theorem decides_of_ticket {verdict : Verdict} (h : (s.ticket i).phase.verdict = some verdict) :
    s.Decides i verdict := by
  unfold ticket at h
  split at h
  next p hp =>
    simp only [Publish.ticket] at h
    cases hphase : p.phase with
    | queued | waiting =>
      rw [hphase] at h
      cases h
    | finalizing outcome =>
      rw [hphase] at h
      exact ⟨p, outcome, hp, Option.some.inj h, .inl hphase⟩
    | settled outcome =>
      rw [hphase] at h
      exact ⟨p, outcome, hp, Option.some.inj h, .inr hphase⟩
  next => cases h

/-- The `finally` block of a publish whose outcome is certain can run, and settles it. -/
theorem Decides.settles {verdict : Verdict} (h : s.Decides i verdict) :
    ∃ p outcome, s.publishes[i]? = some p ∧ outcome.verdict = verdict ∧
      (p.phase = .settled outcome ∨ step options s (.finalize i) =
        some (s.finalize options i p outcome, [.happened i (.settled outcome)])) := by
  obtain ⟨p, outcome, hp, hverdict, hphase | hphase⟩ := h
  · refine ⟨p, outcome, hp, hverdict, .inr ?_⟩
    simp only [step, hp, hphase]
  · exact ⟨p, outcome, hp, hverdict, .inl hphase⟩

/-- With the header, a publish settles once; it is rejected as unroutable if its message was
returned before it was confirmed, unless it had timed out or lost its record, and only if its
message was returned; and it leaves nothing in the pending map. -/
theorem correlated_by_header {actions : List Action} (hmandatory : options.mandatory = true)
    (hheader : options.correlationHeader = true)
    (hrun : Machine.run (step options) {} actions = some (s, log)) (i : ℕ) :
    ((history i log).filter PublishEvent.isSettled).length ≤ 1 ∧
    (∀ before after, history i log = before ++ .confirmed :: after → .returned ∈ before →
      .timedOut ∉ before → .cleared ∉ before → s.Decides i .unroutable) ∧
    (∀ outcome, .settled outcome ∈ history i log → outcome.verdict = .unroutable →
      .returned ∈ history i log) ∧
    (∀ outcome, .settled outcome ∈ history i log →
      ∃ p, s.publishes[i]? = some p ∧ p.eventId ∉ s.pendingReturns.map Prod.fst) := by
  have hattributed : Machine.Meets (step options) Attributed {} actions :=
    Machine.Meets.of_invariant (fun _ _ _ _ h hstep => WellFormed.step h hmandatory hstep)
      (fun _ a h (_ : True) => attributed_of_header h hheader a) wellFormed_initial
      (Machine.meets_true _ actions)
  obtain ⟨hwf, hhistory⟩ := follows_of_run hmandatory hattributed hrun
  have hexplained := Ticket.explained_of_run (hhistory i)
  refine ⟨Ticket.settles_once (hhistory i), ?_, ?_, ?_⟩
  · intro before after heq hreturned htimedOut hcleared
    apply decides_of_ticket
    have hticket := hhistory i
    rw [heq] at hticket
    exact Ticket.unroutable_of_returned hticket hreturned htimedOut hcleared
  · intro outcome hsettled hverdict
    apply hexplained.unroutable
    rw [hexplained.settled outcome hsettled, ← hverdict]
    rfl
  · intro outcome hsettled
    have hphase := hexplained.settled outcome hsettled
    have hheld := hexplained.dropped _ hphase
    cases hp : s.publishes[i]? with
    | none =>
      rw [ticket, hp] at hphase
      cases hphase
    | some p =>
      refine ⟨p, rfl, fun hmem => ?_⟩
      obtain ⟨e, he, hid⟩ := List.mem_map.mp hmem
      obtain ⟨q, hq, heq, -⟩ := hwf.pending e he
      obtain rfl := hwf.distinct e.2 i q p hq hp (heq.trans hid)
      have hpending : s.isPending e.2 p = true := by
        rw [isPending_iff, ← hid]
        exact he
      rw [ticket_of_getElem? hp, hpending] at hheld
      cases hheld

def withHeader : AmqpAdapterOptions where
  publisherOptions := { mandatory := some true }

def publishUserCreated (id : String) : Action :=
  .publish ⟨id, 0, "1970-01-01T00:00:00.000Z"⟩ "user.created" [] {} none

/-- Two publishes at once, of which the first is returned. -/
def concurrentPublishes : List Action :=
  [.channelCreated, publishUserCreated "evt-1", publishUserCreated "evt-2", .returned 0,
    .confirmed 1, .confirmed 0, .finalize 0, .finalize 1]

def concurrentLog : List Event :=
  [.happened 0 .started, .happened 1 .started, .happened 0 .returned, .happened 1 .confirmed,
    .happened 0 .confirmed, .happened 0 (.settled (.rejected (unroutable "user.created"))),
    .happened 1 (.settled .resolved)]

theorem correlated_by_header_concurrent : ∃ s,
    Machine.run (step withHeader) {} concurrentPublishes = some (s, concurrentLog) ∧
      s.Decides 0 .unroutable ∧ ∃ p, s.publishes[1]? = some p ∧
        p.eventId ∉ s.pendingReturns.map Prod.fst := by
  obtain ⟨s, hrun⟩ : ∃ s, Machine.run (step withHeader) {} concurrentPublishes =
      some (s, concurrentLog) := ⟨_, rfl⟩
  refine ⟨s, hrun, ?_, ?_⟩
  · exact (correlated_by_header rfl rfl hrun 0).2.1 [.started, .returned] _ rfl (by decide)
      (by decide) (by decide)
  · exact (correlated_by_header rfl rfl hrun 1).2.2.2 .resolved (by decide)

end Publisher
end Connectum.Events.Amqp
