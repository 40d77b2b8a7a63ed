import Connectum.Events.Amqp.RecoveryChannels

/-! When the calls get in the way of a replay or of each other, and how a `disconnect()` comes to
its end. -/
namespace Connectum.Events.Amqp.Recovery

/-- The call has commands left to send on the channel of the record. -/
def Disconnecting.uses (r : ℕ) : Disconnecting → Bool
  | .visiting _ q _ command => decide (q = r ∧ command ≠ .close)
  | _ => false

/-- The call awaits its last command. -/
def Starting.isConsuming (job : Starting) : Bool :=
  match job.phase with
  | .configuring _ _ _ [] => true
  | _ => false

namespace Adapter

/-- The replay is not starting the record. -/
def notStarting (s : Adapter) (r : ℕ) : Bool :=
  (s.replay.bind Replay.cursor).all fun p => decide (p.2 ≠ r)

/-- The replay does not pass over an active record when `r` is taken out of the registry. -/
def skipsNone (s : Adapter) (r : ℕ) : Bool :=
  (s.replay.bind Replay.cursor).all fun p =>
    decide (r ∉ s.subscriptionRecords.take p.1) || !s.subscriptionRecords[p.1]?.any s.isActive

/-- The replay does not come to a record that is appended to the registry. -/
def startsOnce (s : Adapter) : Bool :=
  s.replay.all fun replay =>
    replay.cursor.any fun p => decide (s.subscriptionRecords.length < p.1)

/-- The calls do not get in the way of a replay, or of a `disconnect()`. -/
def undisturbed (s : Adapter) : Action → Bool
  | .unsubscribe r => decide (s.disconnects ≠ []) || s.notStarting r
  | .unsubscribeAnswered call _ =>
    s.unsubscribes[call]?.all fun u =>
      decide (u.awaiting ≠ .close) ||
        if s.disconnects = [] then s.skipsNone u.record
        else s.disconnects.all fun d => !d.uses u.record
  | .answered (.subscribe r) _ =>
    (s.findJob (.subscribe r)).all fun job =>
      !job.isConsuming ||
        if s.disconnects = [] then s.startsOnce
        else s.disconnects.all fun d => d.visited.isSome
  | _ => true

variable {options : AmqpAdapterOptions} {s s' t : Adapter} {a : Action} {r q : ℕ}
  {out : List Event}

/-- The call of `disconnect()` does not find its record without a channel. -/
def Proceeds (s : Adapter) (d : Disconnecting) : Prop :=
  ∀ r, d.uses r = true → s.channelOf r ≠ none

/-- What holds of the connection and the calls of `disconnect()`: a registry that one of them has
emptied stays empty, and one of them gets to the end. -/
structure Linked (s : Adapter) : Prop where
  quiet : s.link ≠ .up → s.consumers = [] ∧ s.replay = none
  idle : s.link = .idle → s.connection = false
  unconnected : s.connection = false → s.subscriptionRecords = [] ∧ s.consumers = [] ∧
    s.subscribes = [] ∧ s.replay.bind Replay.cursor = none
  emptied : ∀ d ∈ s.disconnects, d.visited = none → s.subscriptionRecords = []
  visiting : s.link ≠ .idle → ∀ d ∈ s.disconnects, d.visited ≠ none → s.connection = true
  leader : s.link ≠ .idle → s.disconnects ≠ [] → ∃ d ∈ s.disconnects, s.Proceeds d

theorem linked_initial : Linked {} := by
  refine ⟨fun _ => ⟨rfl, rfl⟩, fun _ => rfl, fun _ => ⟨rfl, rfl, rfl, rfl⟩, ?_, ?_, ?_⟩ <;> simp

theorem proceeds_of_visited {d : Disconnecting} (h : d.visited = none) : s.Proceeds d := by
  intro r hr
  cases d with
  | visiting => cases h
  | _ => cases hr

theorem Proceeds.mono {d : Disconnecting} (h : s.Proceeds d)
    (hkept : ∀ r, d.uses r = true → s.channelOf r ≠ none → s'.channelOf r ≠ none) :
    s'.Proceeds d := fun r hr => hkept r hr (h r hr)

/-- A step that leaves the connection and the calls of `disconnect()` as they are. -/
theorem Linked.keep (h : Linked s) (hlink : s'.link = s.link)
    (hconnection : s'.connection = s.connection) (hdisconnects : s'.disconnects = s.disconnects)
    (hquiet : s.link ≠ .up → s'.consumers = [] ∧ s'.replay = none)
    (hunconnected : s.connection = false → s'.subscriptionRecords = [] ∧ s'.consumers = [] ∧
      s'.subscribes = [] ∧ s'.replay.bind Replay.cursor = none)
    (hemptied : ∀ d ∈ s.disconnects, d.visited = none → s'.subscriptionRecords = [])
    (hchannel : ∀ d ∈ s.disconnects, ∀ r, d.uses r = true → s.channelOf r ≠ none →
      s'.channelOf r ≠ none) : Linked s' := by
  refine ⟨?_, ?_, ?_, ?_, ?_, ?_⟩
  · rw [hlink]
    exact hquiet
  · rw [hlink, hconnection]
    exact h.idle
  · rw [hconnection]
    exact hunconnected
  · rw [hdisconnects]
    exact hemptied
  · rw [hlink, hconnection, hdisconnects]
    exact h.visiting
  · rw [hlink, hdisconnects]
    intro hlive hcalls
    obtain ⟨d, hd, hproceeds⟩ := h.leader hlive hcalls
    exact ⟨d, hd, hproceeds.mono (hchannel d hd)⟩

theorem Linked.no_job (h : Linked s) (hconnection : s.connection = false) {j : Job}
    {job : Starting} (hjob : s.findJob j = some job) : False := by
  obtain ⟨-, -, hsubscribes, hcursor⟩ := h.unconnected hconnection
  rcases mem_jobs.mp (mem_jobs_of_findJob hjob) with ⟨next, hreplay⟩ | hmem
  · rw [hreplay] at hcursor
    cases hcursor
  · rw [hsubscribes] at hmem
    cases hmem

theorem Linked.dropConsumers (h : Linked s) {consumers : List (ℕ × ℕ)}
    (hconsumers : consumers.Sublist s.consumers) : Linked { s with consumers := consumers } := by
  refine h.keep rfl rfl rfl ?_ ?_ h.emptied fun _ _ _ _ hq => hq
  · intro hlink
    obtain ⟨hnil, hreplay⟩ := h.quiet hlink
    exact ⟨List.sublist_nil.mp (hnil ▸ hconsumers), hreplay⟩
  · intro hconnection
    obtain ⟨hregistry, hnil, hothers⟩ := h.unconnected hconnection
    exact ⟨hregistry, List.sublist_nil.mp (hnil ▸ hconsumers), hothers⟩

/-- A call of `disconnect()` that has left the registry beside the `rest`. -/
theorem Linked.left (h : Linked s) (publishChannel : Bool) (records : List SubscriptionRecord)
    {rest : List Disconnecting} (hrest : rest ⊆ s.disconnects) {d : Option Disconnecting}
    (hd : ∀ d' ∈ d, d'.visited = none) (hnone : d = none → s.connection = false) :
    Linked (({ s with
      publishChannel := publishChannel
      records := records
      subscriptionRecords := [] } : Adapter).settle rest d).1 := by
  have hunconnected : s.connection = false → [] = ([] : List ℕ) ∧ s.consumers = [] ∧
      s.subscribes = [] ∧ s.replay.bind Replay.cursor = none := fun hconnection =>
    ⟨rfl, (h.unconnected hconnection).2⟩
  cases d with
  | none =>
    have hconnection := hnone rfl
    refine ⟨h.quiet, h.idle, hunconnected, fun _ _ _ => rfl,
      fun hlink d' hd' => h.visiting hlink d' (hrest hd'), ?_⟩
    intro hlink hcalls
    obtain ⟨d', hd'⟩ := List.exists_mem_of_ne_nil _ hcalls
    refine ⟨d', hd', proceeds_of_visited ?_⟩
    by_contra hvisited
    rw [h.visiting hlink d' (hrest hd') hvisited] at hconnection
    cases hconnection
  | some d =>
    have hleft := hd d rfl
    refine ⟨h.quiet, h.idle, hunconnected, fun _ _ _ => rfl, ?_, ?_⟩
    · intro hlink d' hd' hvisited
      rcases List.mem_append.mp hd' with hd' | hd'
      · exact h.visiting hlink d' (hrest hd') hvisited
      · rw [List.mem_singleton.mp hd'] at hvisited
        exact absurd hleft hvisited
    · exact fun _ _ => ⟨d, List.mem_append_right _ List.mem_cons_self, proceeds_of_visited hleft⟩

/-- A call of `disconnect()` that has come to a record with a channel. -/
theorem Linked.visit (h : Linked s) (records : List SubscriptionRecord)
    {rest : List Disconnecting} (hrest : rest ⊆ s.disconnects) {next r channel : ℕ}
    {command : TeardownCommand} (hconnection : s.link ≠ .idle → s.connection = true)
    (hchannel : ({ s with records := records } : Adapter).channelOf r ≠ none) :
    Linked { s with
      records := records
      disconnects := rest ++ [.visiting next r channel command] } := by
  refine ⟨h.quiet, h.idle, h.unconnected, ?_, fun hlink _ _ _ => hconnection hlink, ?_⟩
  · intro d hd hvisited
    rcases List.mem_append.mp hd with hd | hd
    · exact h.emptied d (hrest hd) hvisited
    · rw [List.mem_singleton.mp hd] at hvisited
      cases hvisited
  · refine fun _ _ => ⟨_, List.mem_append_right _ List.mem_cons_self, fun q hq => ?_⟩
    obtain ⟨rfl, -⟩ := of_decide_eq_true hq
    exact hchannel

/-- The loop of `disconnect()`. -/
theorem Linked.disconnectFrom (h : Linked s) {records : List SubscriptionRecord}
    {rest : List Disconnecting} (hrest : rest ⊆ s.disconnects) {visited : List ℕ}
    (hvisited : visited ⊆ s.subscriptionRecords) (next : ℕ)
    (ht : t = { s with records := records }) :
    Linked ((t.disconnectFrom next visited).1.settle rest (t.disconnectFrom next visited).2).1 := by
  have hdetach : ∀ u r, (∃ updated, u = { t with records := updated }) → r ∈ visited →
      ∃ updated, u.detach r = { t with records := updated } := by
    rintro u r ⟨updated, rfl⟩ -
    exact ⟨_, rfl⟩
  obtain ⟨u, ⟨updated, rfl⟩, hcases⟩ := disconnectFrom_cases hdetach ⟨t.records, rfl⟩ next
  subst ht
  rcases hcases with ⟨next', r, channel, command, hr, hchannel, heq⟩ | ⟨d, hleft, hnone, heq⟩
  · rw [heq]
    refine h.visit updated hrest ?_ ?_
    · intro _
      by_contra hconnection
      have hmem := hvisited hr
      rw [(h.unconnected (Bool.eq_false_iff.mpr hconnection)).1] at hmem
      cases hmem
    · rw [hchannel]
      nofun
  · rw [heq]
    exact h.left s.publishChannel updated hrest hleft hnone

theorem nextTeardown_eq_none {command : TeardownCommand} :
    s.nextTeardown r command = none ↔ command = .close := by
  cases command <;> simp [nextTeardown]

/-- A rejected call of `disconnect()` is not the one that proceeds. -/
theorem Linked.reject (h : Linked s) {call next r channel : ℕ} {command : TeardownCommand}
    (hd : s.disconnects[call]? = some (.visiting next r channel command))
    (hcommand : command ≠ .close) (hchannel : s.channelOf r = none) :
    Linked { s with disconnects := s.disconnects.eraseIdx call } ∧
      (s.disconnects.eraseIdx call = [] → s.link = .idle) := by
  have hleader : s.link ≠ .idle → ∃ d ∈ s.disconnects.eraseIdx call, s.Proceeds d := by
    intro hlink
    obtain ⟨d, hmem, hproceeds⟩ :=
      h.leader hlink (List.ne_nil_of_mem (List.mem_of_getElem? hd))
    refine ⟨d, ?_, hproceeds⟩
    obtain ⟨i, hi⟩ := List.mem_iff_getElem?.mp hmem
    refine List.mem_eraseIdx_iff_getElem?.mpr ⟨i, ?_, hi⟩
    rintro rfl
    obtain rfl := Option.some.inj (hd.symm.trans hi)
    exact hproceeds r (decide_eq_true ⟨rfl, hcommand⟩) hchannel
  have hrest : s.disconnects.eraseIdx call ⊆ s.disconnects := List.eraseIdx_subset
  constructor
  · exact ⟨h.quiet, h.idle, h.unconnected, fun d hd' => h.emptied d (hrest hd'),
      fun hlink d hd' => h.visiting hlink d (hrest hd'), fun hlink _ => hleader hlink⟩
  · intro hnil
    by_contra hlink
    obtain ⟨d, hmem, -⟩ := hleader hlink
    rw [hnil] at hmem
    cases hmem

theorem Linked.disconnectAnswered (h : Linked s) {call : ℕ} {ok : Bool} {d : Disconnecting}
    (hd : s.disconnects[call]? = some d)
    (hanswered : s.disconnectAnswered call ok d = some (s', out)) : Linked s' := by
  have hmem := List.mem_of_getElem? hd
  have hrest : s.disconnects.eraseIdx call ⊆ s.disconnects := List.eraseIdx_subset
  cases disconnectAnswered_cases hanswered with
  | sent next r channel current command following consumers hconsumers hcurrent =>
    refine (h.dropConsumers hconsumers).visit s.records hrest ?_ ?_
    · exact fun hlink => h.visiting hlink _ hmem nofun
    · exact fun hnone => absurd (hcurrent.symm.trans hnone) nofun
  | rejected next r channel command following consumers hconsumers hcommand hchannel =>
    exact ((h.dropConsumers hconsumers).reject hd hcommand hchannel).1
  | detached next r channel command consumers hconsumers t ht =>
    refine (h.dropConsumers hconsumers).disconnectFrom hrest ?_ next ht
    rw [ht]
    exact List.drop_subset _ _
  | publishChannelClosed d hleft hconnection =>
    have hregistry := h.emptied _ hmem rfl
    have hleft := h.left false s.records hrest hleft hconnection
    rw [← hregistry] at hleft
    exact hleft

theorem Linked.connectionClosed (h : Linked s) {call : ℕ} {text : String}
    (hd : s.disconnects[call]? = some .closingConnection) :
    Linked (s.connectionClosed options call text).1 := by
  have hregistry : s.subscriptionRecords = [] := h.emptied _ (List.mem_of_getElem? hd) rfl
  exact ⟨fun _ => ⟨rfl, rfl⟩, fun _ => rfl, fun _ => ⟨hregistry, rfl, rfl, rfl⟩,
    fun _ _ _ => hregistry, fun hlink => absurd rfl hlink, fun hlink => absurd rfl hlink⟩

theorem Linked.continueReplay (h : Linked s) (hup : s.link = .up) (next : ℕ) :
    Linked (s.continueReplay next) := by
  refine h.keep rfl rfl rfl (fun hlink => absurd hup hlink) ?_ h.emptied fun _ _ _ _ hr => hr
  intro hconnection
  obtain ⟨hregistry, hconsumers, hsubscribes, -⟩ := h.unconnected hconnection
  refine ⟨hregistry, hconsumers, hsubscribes, ?_⟩
  rw [Adapter.continueReplay, hregistry, List.drop_nil]
  rfl

theorem Linked.setPhase (h : Linked s) (hup : s.link = .up) {j : Job} {job : Starting}
    {phase : StartPhase} (hjob : s.findJob j = some job) : Linked (s.setPhase phase j) := by
  obtain ⟨replay, subscribes, heq, -⟩ := setPhase_spec phase hjob
  rw [heq]
  exact h.keep rfl rfl rfl (fun hlink => absurd hup hlink)
    (fun hconnection => (h.no_job hconnection hjob).elim) h.emptied fun _ _ _ _ hr => hr

theorem Linked.finishStart (h : Linked s) (ho : Owned s) (hup : s.link = .up) {j : Job}
    {channel : ℕ} {consumerTag queueName : String} {answered : SetupCommand}
    (hjob : s.findJob j = some ⟨r, .configuring channel queueName answered []⟩)
    (hundisturbed : s.undisturbed (.answered j consumerTag) = true) :
    Linked (s.finishStart r channel consumerTag queueName j).1 := by
  have hr : r < s.records.length :=
    ho.created r (List.mem_of_getElem? (ho.configuring _ (mem_jobs_of_findJob hjob) channel rfl))
  have hstored : ∀ q, s.channelOf q ≠ none →
      (s.serve r channel consumerTag queueName).channelOf q ≠ none := by
    intro q hq
    rw [channelOf_serve channel consumerTag queueName hr]
    split
    next => nofun
    next => exact hq
  cases j with
  | replay =>
    obtain ⟨next, hreplay⟩ := findJob_replay.mp hjob
    have hserved : Linked (s.serve r channel consumerTag queueName) :=
      h.keep rfl rfl rfl (fun hlink => absurd hup hlink)
        (fun hconnection => (h.no_job hconnection hjob).elim) h.emptied
        fun _ _ q _ hq => hstored q hq
    rw [Adapter.finishStart, hreplay]
    exact hserved.continueReplay hup next
  | subscribe q =>
    refine h.keep rfl rfl rfl (fun hlink => absurd hup hlink)
      (fun hconnection => (h.no_job hconnection hjob).elim) ?_ fun _ _ q _ hq => hstored q hq
    obtain ⟨-, rfl⟩ := mem_subscribes_of_findJob hjob
    intro d hd hvisited
    have hcalls : s.disconnects ≠ [] := List.ne_nil_of_mem hd
    simp only [undisturbed, hjob, Option.all_some, Starting.isConsuming, Bool.not_true,
      Bool.false_or, if_neg hcalls, List.all_eq_true] at hundisturbed
    have hsome := hundisturbed d hd
    rw [hvisited] at hsome
    cases hsome

theorem Linked.endUnsubscribe (h : Linked s)
    (hfree : ∀ d ∈ s.disconnects, d.uses r = true → s.channelOf r = none) :
    Linked (s.endUnsubscribe r) := by
  refine h.keep rfl rfl rfl h.quiet ?_ ?_ ?_
  · intro hconnection
    obtain ⟨hregistry, hothers⟩ := h.unconnected hconnection
    refine ⟨?_, hothers⟩
    rw [Adapter.endUnsubscribe, hregistry]
    rfl
  · intro d hd hvisited
    rw [Adapter.endUnsubscribe, h.emptied d hd hvisited]
    rfl
  · intro d hd q hq hchannel
    have hcleared := channelOf_clear (s := s) (r := r) (q := q)
    rw [if_neg] at hcleared
    · exact fun hnone => hchannel (hcleared.symm.trans hnone)
    · rintro rfl
      exact hchannel (hfree d hd hq)

theorem Linked.unsubscribe (h : Linked s) : Linked (s.unsubscribe r).1 := by
  have hdeactivated : Linked (s.deactivate r) :=
    h.keep rfl rfl rfl h.quiet h.unconnected h.emptied fun _ _ q _ hq hnone =>
      hq (channelOf_deactivate.symm.trans hnone)
  rw [Adapter.unsubscribe]
  split
  next hchannel =>
    exact hdeactivated.endUnsubscribe fun _ _ _ => channelOf_deactivate.trans hchannel
  next channel hchannel =>
    exact hdeactivated.keep rfl rfl rfl hdeactivated.quiet hdeactivated.unconnected
      hdeactivated.emptied fun _ _ _ _ hq => hq

theorem Linked.unsubscribeAnswered (h : Linked s) {call : ℕ} {u : Unsubscribing} {ok : Bool}
    (hu : s.unsubscribes[call]? = some u)
    (hundisturbed : s.undisturbed (.unsubscribeAnswered call ok) = true) :
    Linked (s.unsubscribeAnswered call u ok).1 := by
  obtain ⟨consumers, heq, hsublist, -⟩ := s.commandDone_eq u.channel u.awaiting ok
  have hdone := h.dropConsumers hsublist
  rw [Adapter.unsubscribeAnswered, heq]
  split
  next command hnext =>
    exact hdone.keep rfl rfl rfl hdone.quiet hdone.unconnected hdone.emptied fun _ _ _ _ hq => hq
  next hnext =>
    have hended := hdone.endUnsubscribe (r := u.record) ?_
    · exact hended.keep rfl rfl rfl hended.quiet hended.unconnected hended.emptied
        fun _ _ _ _ hq => hq
    · intro d hd huses
      have hcalls : s.disconnects ≠ [] := List.ne_nil_of_mem hd
      simp only [undisturbed, hu, Option.all_some, nextTeardown_eq_none.mp hnext, ne_eq,
        not_true_eq_false, decide_false, Bool.false_or, if_neg hcalls,
        List.all_eq_true] at hundisturbed
      have hfree := hundisturbed d hd
      rw [huses] at hfree
      cases hfree

theorem Linked.step (h : Linked s) (ho : Owned s) (hundisturbed : s.undisturbed a = true)
    (hstep : step options s a = some (s', out)) : Linked s' := by
  cases step_cases hstep with
  | connect hidle hcalls =>
    refine ⟨fun _ => h.quiet ?_, nofun, h.unconnected, h.emptied, fun _ d hd => ?_, fun _ hne => ?_⟩
    · rw [hidle]
      nofun
    · have hmem : d ∈ s.disconnects := hd
      rw [hcalls] at hmem
      cases hmem
    · exact absurd hcalls hne
  | opened hdown =>
    have hlink : s.link ≠ .idle := by
      rw [hdown]
      nofun
    refine ⟨fun hne => absurd rfl hne, nofun, ?_, h.emptied, fun _ => h.visiting hlink,
      fun _ => h.leader hlink⟩
    intro hconnection
    obtain ⟨hregistry, hconsumers, hsubscribes, -⟩ := h.unconnected hconnection
    exact ⟨hregistry, hconsumers, hsubscribes, rfl⟩
  | publishChannelCreated hreplay =>
    refine h.keep rfl rfl rfl ?_ ?_ h.emptied fun _ _ _ _ hq => hq
    · intro hlink
      exact absurd (hreplay.symm.trans (h.quiet hlink).2) nofun
    · intro hconnection
      obtain ⟨hregistry, hconsumers, hsubscribes, -⟩ := h.unconnected hconnection
      exact ⟨hregistry, hconsumers, hsubscribes, rfl⟩
  | topologyApplied hreplay =>
    refine h.continueReplay ?_ 0
    by_contra hlink
    exact absurd (hreplay.symm.trans (h.quiet hlink).2) nofun
  | connected hup hreplay =>
    refine ⟨h.quiet, fun hidle => absurd (hup.symm.trans hidle) nofun, nofun, h.emptied,
      fun _ _ _ _ => rfl, h.leader⟩
  | connectFailed =>
    exact h.keep rfl rfl rfl h.quiet h.unconnected h.emptied fun _ _ _ _ hq => hq
  | connectRejected hdown hconnection =>
    refine ⟨fun _ => h.quiet ?_, fun _ => hconnection, h.unconnected, h.emptied,
      fun hlink => absurd rfl hlink, fun hlink => absurd rfl hlink⟩
    rw [hdown]
    nofun
  | lost text hup =>
    have hlink : s.link ≠ .idle := by
      rw [hup]
      nofun
    refine ⟨fun _ => ⟨rfl, rfl⟩, nofun, ?_, h.emptied, fun _ => h.visiting hlink,
      fun _ => h.leader hlink⟩
    intro hconnection
    obtain ⟨hregistry, -, hsubscribes, -⟩ := h.unconnected hconnection
    refine ⟨hregistry, rfl, ?_, rfl⟩
    rw [lose, hsubscribes]
    rfl
  | subscribe record patterns group hconnection hactive hchannel =>
    refine h.keep rfl rfl rfl h.quiet ?_ h.emptied ?_
    · intro hunconnected
      rw [hconnection] at hunconnected
      cases hunconnected
    · intro d hd q huses hq
      obtain ⟨channel, hsome⟩ := Option.ne_none_iff_exists'.mp hq
      simp only [channelOf, List.getElem?_append_left (lt_of_channelOf hsome)]
      exact hq
  | notConnected => exact h
  | channelCreated job uuid r record hup hjob hrecord =>
    have hextended : Linked { s with channels := s.channels ++ [r] } :=
      h.keep rfl rfl rfl h.quiet h.unconnected h.emptied fun _ _ _ _ hq => hq
    exact hextended.setPhase hup hjob
  | commandAnswered job consumerTag r channel queueName answered command rest hup hjob =>
    exact h.setPhase hup hjob
  | consumeAnswered job consumerTag r channel queueName answered hup hjob =>
    exact h.finishStart ho hup hjob hundisturbed
  | refused r text job hjob =>
    exact h.keep rfl rfl rfl h.quiet (fun hconnection => (h.no_job hconnection hjob).elim) h.emptied
      fun _ _ _ _ hq => hq
  | unsubscribe => exact h.unsubscribe
  | unsubscribeAnswered call ok u hu => exact h.unsubscribeAnswered hu hundisturbed
  | disconnect =>
    exact h.disconnectFrom (List.Subset.refl _) (List.Subset.refl _) 0 rfl
  | disconnectAnswered call ok d t out hd hanswered => exact h.disconnectAnswered hd hanswered
  | connectionClosed call text hd => exact h.connectionClosed hd

end Adapter
end Connectum.Events.Amqp.Recovery
