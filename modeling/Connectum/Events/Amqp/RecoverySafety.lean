import Connectum.Events.Amqp.RecoveryCalls
import Mathlib.Data.List.Perm.Basic

/-! Which subscriptions have a consumer once the replay and the calls have ended. -/
namespace Connectum.Events.Amqp.Recovery

/-- The effect of an output on the subscriptions that are still active. -/
def Event.track (live : List ℕ) : Event → List ℕ
  | .subscribed r => live ++ [r]
  | .unsubscribing r => live.erase r
  | .disconnected => []
  | _ => live

/-- The records of the subscriptions that `subscribe()` has returned, and that neither an
`unsubscribe()` nor the end of a `disconnect()` has followed. -/
def stillActive (log : List Event) : List ℕ := log.foldl Event.track []

namespace Adapter

/-- No replay and no call is left, and the connection is not being re-established. -/
structure Quiescent (s : Adapter) : Prop where
  link : s.link ≠ .down
  replay : s.replay = none
  subscribes : s.subscribes = []
  unsubscribes : s.unsubscribes = []
  disconnects : s.disconnects = []

/-- The records that the replay starts or may come to. -/
def upcoming (s : Adapter) : List ℕ :=
  match s.replay.map Replay.cursor with
  | none => []
  | some none => s.subscriptionRecords
  | some (some (next, r)) => r :: s.subscriptionRecords.drop next

variable {options : AmqpAdapterOptions} {s s' t : Adapter} {a : Action} {r q : ℕ}
  {live : List ℕ} {out log : List Event}

/-- While no `disconnect()` runs, the registry has the subscriptions that are still active, and a
consumer for each of them that the replay does not come to. -/
structure Restored (s : Adapter) (live : List ℕ) : Prop where
  live : s.subscriptionRecords.filter s.isActive = live
  started : ∀ r ∈ s.subscriptionRecords, s.channelOf r ≠ none
  served : s.link = .up → ∀ r ∈ s.subscriptionRecords, s.isActive r = true →
    r ∈ s.upcoming ∨ ∃ channel, (channel, r) ∈ s.consumers
  sound : ∀ c ∈ s.consumers,
    (c.2 ∈ s.subscriptionRecords ∧ s.isActive c.2 = true ∧ s.channelOf c.2 = some c.1) ∨
      ∃ u ∈ s.unsubscribes, u.record = c.2 ∧ u.channel = c.1
  once : s.consumers.Nodup
  pending : ∀ c ∈ s.consumers, c.2 ∉ s.upcoming
  current : ∀ next r, s.replay.bind Replay.cursor = some (next, r) →
    r ∈ s.subscriptionRecords ∧ s.isActive r = true ∧ r ∉ s.subscriptionRecords.drop next

theorem Linked.restored (h : Linked s) (hconnection : s.connection = false) : Restored s [] := by
  obtain ⟨hregistry, hconsumers, -, hcursor⟩ := h.unconnected hconnection
  refine ⟨?_, ?_, ?_, ?_, ?_, ?_, ?_⟩
  · rw [hregistry]
    rfl
  · simp [hregistry]
  · simp [hregistry]
  · simp [hconsumers]
  · rw [hconsumers]
    exact List.nodup_nil
  · simp [hconsumers]
  · simp [hcursor]

theorem upcoming_congr (hregistry : s'.subscriptionRecords = s.subscriptionRecords)
    (hreplay : s'.replay.map Replay.cursor = s.replay.map Replay.cursor) :
    s'.upcoming = s.upcoming := by
  rw [upcoming, upcoming, hregistry, hreplay]

/-- A step that leaves the registry, the consumers and the replay as they are. -/
theorem Restored.keep (h : Restored s live) (ho : Owned s)
    (hlink : s'.link = .up → s.link = .up)
    (hregistry : s'.subscriptionRecords = s.subscriptionRecords)
    (hreplay : s'.replay.map Replay.cursor = s.replay.map Replay.cursor)
    (hconsumers : s'.consumers = s.consumers)
    (hunsubscribes : ∀ u ∈ s.unsubscribes, ∃ u' ∈ s'.unsubscribes,
      u'.record = u.record ∧ u'.channel = u.channel)
    (hkept : ∀ r < s.records.length,
      s'.isActive r = s.isActive r ∧ s'.channelOf r = s.channelOf r) : Restored s' live := by
  have hregistered : ∀ r ∈ s.subscriptionRecords, r < s.records.length :=
    fun r hr => ho.engaged r (.inl hr)
  have hupcoming := upcoming_congr hregistry hreplay
  refine ⟨?_, ?_, ?_, ?_, ?_, ?_, ?_⟩
  · rw [hregistry, ← h.live]
    exact List.filter_congr fun r hr => (hkept r (hregistered r hr)).1
  · rw [hregistry]
    intro r hr
    rw [(hkept r (hregistered r hr)).2]
    exact h.started r hr
  · rw [hregistry, hconsumers, hupcoming]
    intro hup r hr hactive
    rw [(hkept r (hregistered r hr)).1] at hactive
    exact h.served (hlink hup) r hr hactive
  · rw [hregistry, hconsumers]
    intro c hc
    rcases h.sound c hc with ⟨hmem, hactive, hchannel⟩ | ⟨u, hu, hrecord, hchannel⟩
    · have hsame := hkept c.2 (hregistered c.2 hmem)
      rw [hsame.1, hsame.2]
      exact .inl ⟨hmem, hactive, hchannel⟩
    · obtain ⟨u', hu', hrecord', hchannel'⟩ := hunsubscribes u hu
      exact .inr ⟨u', hu', hrecord'.trans hrecord, hchannel'.trans hchannel⟩
  · rw [hconsumers]
    exact h.once
  · rw [hconsumers, hupcoming]
    exact h.pending
  · rw [hregistry, bind_cursor_congr hreplay]
    intro next r hcursor
    obtain ⟨hmem, hactive, hdrop⟩ := h.current next r hcursor
    rw [(hkept r (hregistered r hmem)).1]
    exact ⟨hmem, hactive, hdrop⟩

/-- The loop of `onSetup` goes on at an index from which no record has a consumer. -/
theorem restored_continueReplay {next : ℕ} (hnodup : s.subscriptionRecords.Nodup)
    (hlive : s.subscriptionRecords.filter s.isActive = live)
    (hstarted : ∀ r ∈ s.subscriptionRecords, s.channelOf r ≠ none)
    (hserved : ∀ r ∈ s.subscriptionRecords, s.isActive r = true →
      r ∈ s.subscriptionRecords.drop next ∨ ∃ channel, (channel, r) ∈ s.consumers)
    (hsound : ∀ c ∈ s.consumers,
      (c.2 ∈ s.subscriptionRecords ∧ s.isActive c.2 = true ∧ s.channelOf c.2 = some c.1) ∨
        ∃ u ∈ s.unsubscribes, u.record = c.2 ∧ u.channel = c.1)
    (honce : s.consumers.Nodup)
    (hpending : ∀ c ∈ s.consumers, c.2 ∉ s.subscriptionRecords.drop next) :
    Restored (s.continueReplay next) live := by
  rcases s.replayFrom_cases next (s.subscriptionRecords.drop next) with
    ⟨hrest, hnone⟩ | ⟨before, r, after, hdrop, hbefore, hr, hsome⟩
  · have hreplay : (s.continueReplay next).replay = none := hnone
    have hupcoming : (s.continueReplay next).upcoming = [] := by
      rw [upcoming, hreplay]
      rfl
    refine ⟨hlive, hstarted, fun _ q hq hactive => ?_, hsound, honce, ?_, ?_⟩
    · rcases hserved q hq hactive with hmem | hconsumer
      · exact absurd (hactive.symm.trans (hrest q hmem)) nofun
      · exact .inr hconsumer
    · rw [hupcoming]
      exact fun c _ => List.not_mem_nil
    · rw [hreplay]
      nofun
  · have hreplay : (s.continueReplay next).replay =
        some (.starting (next + before.length + 1) ⟨r, .creatingChannel⟩) := hsome
    have hafter : s.subscriptionRecords.drop (next + before.length + 1) = after := by
      rw [Nat.add_assoc, ← List.drop_drop, hdrop, ← List.drop_drop, List.drop_left]
      rfl
    have hupcoming : (s.continueReplay next).upcoming = r :: after := by
      rw [upcoming, hreplay, ← hafter]
      rfl
    refine ⟨hlive, hstarted, fun _ q hq hactive => ?_, hsound, honce, ?_, ?_⟩
    · rw [hupcoming]
      rcases hserved q hq hactive with hmem | hconsumer
      · rw [hdrop] at hmem
        rcases List.mem_append.mp hmem with hmem | hmem
        · exact absurd (hactive.symm.trans (hbefore q hmem)) nofun
        · exact .inl hmem
      · exact .inr hconsumer
    · rw [hupcoming]
      intro c hc hmem
      refine hpending c hc ?_
      rw [hdrop]
      exact List.mem_append_right _ hmem
    · rw [hreplay]
      intro next' q hcursor
      obtain ⟨rfl, rfl⟩ := Prod.mk.inj (Option.some.inj hcursor)
      have hmem : r ∈ s.subscriptionRecords.drop next := by
        rw [hdrop]
        exact List.mem_append_right _ List.mem_cons_self
      have hrest : (before ++ r :: after).Nodup :=
        hdrop ▸ hnodup.sublist (List.drop_sublist _ _)
      refine ⟨List.mem_of_mem_drop hmem, hr, ?_⟩
      show r ∉ s.subscriptionRecords.drop (next + before.length + 1)
      rw [hafter]
      exact (List.nodup_cons.mp (List.nodup_append.mp hrest).2.1).1

theorem mem_upcoming :
    q ∈ s.upcoming ↔ (s.replay.map Replay.cursor = some none ∧ q ∈ s.subscriptionRecords) ∨
      ∃ next r, s.replay.bind Replay.cursor = some (next, r) ∧
        (q = r ∨ q ∈ s.subscriptionRecords.drop next) := by
  cases hreplay : s.replay with
  | none => simp [upcoming, hreplay]
  | some replay =>
    rcases hcursor : replay.cursor with _ | ⟨next, r⟩ <;> simp [upcoming, hreplay, hcursor]

/-- An element behind the place where another one was taken out. -/
theorem mem_drop_erase {l : List ℕ} {n : ℕ} (hq : q ∈ l.drop n) (hne : q ≠ r)
    (htake : r ∈ l.take n → l[n]? ≠ some q) : q ∈ (l.erase r).drop n := by
  have hn : n < l.length := by
    by_contra hle
    rw [List.drop_eq_nil_of_le (not_lt.mp hle)] at hq
    cases hq
  have hlength : (l.take n).length = n := List.length_take_of_le hn.le
  rw [← List.take_append_drop n l]
  by_cases hr : r ∈ l.take n
  · rw [List.erase_append_left _ hr]
    have hpred : ((l.take n).erase r).length = n - 1 := by
      rw [List.length_erase_of_mem hr, hlength]
    have hpos : 0 < n := by
      have hlt := List.length_pos_of_mem hr
      rwa [hlength] at hlt
    rw [List.drop_eq_getElem_cons hn] at hq
    rcases List.mem_cons.mp hq with rfl | hq
    · exact absurd (List.getElem?_eq_getElem hn) (htake hr)
    · rw [List.drop_append, hpred, Nat.sub_sub_self hpos, List.drop_drop]
      exact List.mem_append_right _ hq
  · rw [List.erase_append_right _ hr]
    rw [List.drop_left' hlength]
    exact (List.mem_erase_of_ne hne).mpr hq

theorem upcoming_of_endUnsubscribe (h : q ∈ (s.endUnsubscribe r).upcoming) : q ∈ s.upcoming := by
  have hsublist : (s.subscriptionRecords.erase r).Sublist s.subscriptionRecords :=
    List.erase_sublist
  rcases mem_upcoming.mp h with ⟨hreplay, hq⟩ | ⟨next, p, hcursor, hq⟩
  · exact mem_upcoming.mpr (.inl ⟨hreplay, hsublist.subset hq⟩)
  · exact mem_upcoming.mpr
      (.inr ⟨next, p, hcursor, hq.imp_right fun hq => (hsublist.drop next).subset hq⟩)

/-- No active record is passed over. -/
theorem upcoming_endUnsubscribe (hskips : s.skipsNone r = true) (hne : q ≠ r)
    (hactive : s.isActive q = true) (h : q ∈ s.upcoming) : q ∈ (s.endUnsubscribe r).upcoming := by
  rcases mem_upcoming.mp h with ⟨hreplay, hq⟩ | ⟨next, p, hcursor, hq⟩
  · exact mem_upcoming.mpr (.inl ⟨hreplay, (List.mem_erase_of_ne hne).mpr hq⟩)
  · refine mem_upcoming.mpr (.inr ⟨next, p, hcursor, hq.imp_right fun hq => ?_⟩)
    refine mem_drop_erase hq hne fun htake hnext => ?_
    rw [skipsNone, hcursor, Option.all_some, hnext, Option.any_some, hactive] at hskips
    simp [htake] at hskips

theorem Restored.endUnsubscribe (h : Restored s live) (ho : Owned s)
    (hinactive : s.isActive r = false) (hskips : s.skipsNone r = true) :
    Restored (s.endUnsubscribe r) live := by
  have hkept : ∀ q, (s.endUnsubscribe r).isActive q = s.isActive q := fun q =>
    isActive_clear (s := s) (r := r) (q := q)
  have hchannel : ∀ q, q ≠ r → (s.endUnsubscribe r).channelOf q = s.channelOf q := by
    intro q hq
    have hcleared := channelOf_clear (s := s) (r := r) (q := q)
    rw [if_neg hq.symm] at hcleared
    exact hcleared
  have hne : ∀ q, s.isActive q = true → q ≠ r := by
    rintro q hq rfl
    rw [hinactive] at hq
    cases hq
  have hmem : ∀ q, q ∈ s.subscriptionRecords.erase r → q ≠ r ∧ q ∈ s.subscriptionRecords :=
    fun q hq => (ho.nodup.mem_erase_iff).mp hq
  refine ⟨?_, ?_, ?_, ?_, h.once, ?_, ?_⟩
  · show (s.subscriptionRecords.erase r).filter _ = live
    rw [List.filter_congr fun q _ => hkept q, ← List.erase_filter, h.live]
    refine List.erase_of_not_mem fun hr => ?_
    rw [← h.live] at hr
    exact hne r (List.mem_filter.mp hr).2 rfl
  · intro q hq
    rw [hchannel q (hmem q hq).1]
    exact h.started q (hmem q hq).2
  · intro hup q hq hactive
    rw [hkept q] at hactive
    exact (h.served hup q (hmem q hq).2 hactive).imp_left
      (upcoming_endUnsubscribe hskips (hne q hactive) hactive)
  · intro c hc
    rcases h.sound c hc with ⟨hregistered, hactive, hstored⟩ | hcall
    · refine .inl ⟨(List.mem_erase_of_ne (hne _ hactive)).mpr hregistered, ?_, ?_⟩
      · rw [hkept]
        exact hactive
      · rw [hchannel _ (hne _ hactive)]
        exact hstored
    · exact .inr hcall
  · exact fun c hc hupcoming => h.pending c hc (upcoming_of_endUnsubscribe hupcoming)
  · intro next q hcursor
    obtain ⟨hregistered, hactive, hdrop⟩ := h.current next q hcursor
    refine ⟨(List.mem_erase_of_ne (hne _ hactive)).mpr hregistered, ?_, ?_⟩
    · rw [hkept]
      exact hactive
    · exact fun hq => hdrop ((List.erase_sublist.drop next).subset hq)

/-- The synchronous part of `unsubscribe()`: a consumer of the record is left to the call. -/
theorem Restored.deactivate (h : Restored s live) (ho : Owned s)
    (hstarting : s.notStarting r = true) (added : List Unsubscribing)
    (hadded : ∀ channel, s.channelOf r = some channel →
      ∃ u ∈ added, u.record = r ∧ u.channel = channel) :
    Restored { s.deactivate r with unsubscribes := s.unsubscribes ++ added } (live.erase r) := by
  have hactive : ∀ q, ({ s.deactivate r with
      unsubscribes := s.unsubscribes ++ added } : Adapter).isActive q =
        (s.isActive q && decide (q ≠ r)) := fun q => isActive_deactivate
  have hchannel : ∀ q, ({ s.deactivate r with
      unsubscribes := s.unsubscribes ++ added } : Adapter).channelOf q = s.channelOf q :=
    fun q => channelOf_deactivate
  refine ⟨?_, ?_, ?_, ?_, h.once, h.pending, ?_⟩
  · show s.subscriptionRecords.filter _ = live.erase r
    rw [List.filter_congr fun q _ => hactive q, ← h.live,
      (ho.nodup.sublist List.filter_sublist).erase_eq_filter, List.filter_filter]
    refine List.filter_congr fun q _ => ?_
    rw [Bool.and_comm]
    by_cases hq : q = r <;> simp [hq]
  · intro q hq
    rw [hchannel]
    exact h.started q hq
  · intro hup q hq hq'
    rw [hactive, Bool.and_eq_true] at hq'
    exact h.served hup q hq hq'.1
  · intro c hc
    rcases h.sound c hc with ⟨hregistered, hcActive, hstored⟩ | ⟨u, hu, howner⟩
    · by_cases hr : c.2 = r
      · obtain ⟨u, hu, hrecord, huChannel⟩ := hadded c.1 (hr ▸ hstored)
        exact .inr ⟨u, List.mem_append_right _ hu, hrecord.trans hr.symm, huChannel⟩
      · refine .inl ⟨hregistered, ?_, ?_⟩
        · rw [hactive, hcActive, decide_eq_true hr]
          rfl
        · rw [hchannel]
          exact hstored
    · exact .inr ⟨u, List.mem_append_left _ hu, howner⟩
  · intro next q hcursor
    obtain ⟨hregistered, hqActive, hdrop⟩ := h.current next q hcursor
    refine ⟨hregistered, ?_, hdrop⟩
    have hq : q ≠ r := by
      have hcursor' : s.replay.bind Replay.cursor = some (next, q) := hcursor
      rw [notStarting, hcursor', Option.all_some] at hstarting
      exact of_decide_eq_true hstarting
    rw [hactive, hqActive, decide_eq_true hq]
    rfl

theorem Restored.unsubscribe (h : Restored s live) (ho : Owned s)
    (hsubscribed : ∀ job ∈ s.subscribes, job.record ≠ r) (hstarting : s.notStarting r = true) :
    Restored (s.unsubscribe r).1 (live.erase r) := by
  rw [Adapter.unsubscribe]
  split
  next hchannel =>
    have hfree : r ∉ s.subscriptionRecords := fun hr => h.started r hr hchannel
    have hdeactivated : Restored (s.deactivate r) (live.erase r) := by
      have hadded := h.deactivate ho hstarting [] fun channel hsome =>
        absurd (hsome.symm.trans hchannel) (Option.some_ne_none _)
      rw [List.append_nil] at hadded
      exact hadded
    refine hdeactivated.endUnsubscribe (ho.deactivate hsubscribed) ?_ ?_
    · rw [isActive_deactivate, decide_eq_false (fun hne => hne rfl), Bool.and_false]
    · have htake : ∀ n, r ∉ s.subscriptionRecords.take n := fun n hr =>
        hfree (List.mem_of_mem_take hr)
      have hregistry : (s.deactivate r).subscriptionRecords = s.subscriptionRecords := rfl
      rw [skipsNone]
      cases (s.deactivate r).replay.bind Replay.cursor with
      | none => rfl
      | some p => rw [Option.all_some, hregistry, decide_eq_true (htake p.1), Bool.true_or]
  next channel hchannel =>
    refine h.deactivate ho hstarting _ fun channel' hsome => ?_
    obtain rfl := Option.some.inj (hchannel.symm.trans hsome)
    exact ⟨_, List.mem_cons_self, rfl, rfl⟩

/-- A teardown command of an `unsubscribe()` takes no consumer from an active subscription. -/
theorem Restored.dropConsumers (h : Restored s live) (ho : Owned s) {u : Unsubscribing}
    (hu : u ∈ s.unsubscribes) {consumers : List (ℕ × ℕ)}
    (hsublist : consumers.Sublist s.consumers)
    (hkept : ∀ c ∈ s.consumers, c.1 ≠ u.channel → c ∈ consumers) :
    Restored { s with consumers := consumers } live := by
  refine ⟨h.live, h.started, ?_, fun c hc => h.sound c (hsublist.subset hc),
    h.once.sublist hsublist, fun c hc => h.pending c (hsublist.subset hc), h.current⟩
  intro hup q hq hactive
  refine (h.served hup q hq hactive).imp_right ?_
  rintro ⟨channel, hconsumer⟩
  refine ⟨channel, hkept _ hconsumer ?_⟩
  rintro rfl
  obtain ⟨hinactive, howner⟩ := ho.unsubscribing u hu
  obtain rfl := Option.some.inj ((ho.consuming _ hconsumer).symm.trans howner)
  exact absurd (hactive.symm.trans hinactive) nofun

theorem Restored.unsubscribeAnswered (h : Restored s live) (ho : Owned s) {call : ℕ} (ok : Bool)
    {u : Unsubscribing} (hu : s.unsubscribes[call]? = some u)
    (hskips : u.awaiting = .close → s.skipsNone u.record = true) :
    Restored (s.unsubscribeAnswered call u ok).1 live := by
  have hmem := List.mem_of_getElem? hu
  obtain ⟨consumers, heq, hsublist, hkept, hclosed⟩ := s.commandDone_eq u.channel u.awaiting ok
  have hdone := h.dropConsumers ho hmem hsublist hkept
  have hodone : Owned { s with consumers := consumers } :=
    ho.shrink { consumers := hsublist.subset }
  rw [Adapter.unsubscribeAnswered, heq]
  split
  next command hnext =>
    refine hdone.keep hodone id rfl rfl rfl ?_ fun _ _ => ⟨rfl, rfl⟩
    intro u' hu'
    obtain ⟨i, hi⟩ := List.mem_iff_getElem?.mp hu'
    by_cases hcall : call = i
    · subst hcall
      obtain rfl := Option.some.inj (hu.symm.trans hi)
      exact ⟨_, List.mem_of_getElem? (List.getElem?_set_self
        (List.getElem?_eq_some_iff.mp hu).1), rfl, rfl⟩
    · exact ⟨u', List.mem_of_getElem? ((List.getElem?_set_ne hcall).trans hi), rfl, rfl⟩
  next hnext =>
    have hclose := nextTeardown_eq_none.mp hnext
    have hended : Restored { s with
        consumers := consumers
        unsubscribes := s.unsubscribes.eraseIdx call } live := by
      refine ⟨hdone.live, hdone.started, hdone.served, ?_, hdone.once, hdone.pending,
        hdone.current⟩
      intro c hc
      refine (hdone.sound c hc).imp_right ?_
      rintro ⟨u', hu', hrecord, hchannel⟩
      obtain ⟨i, hi⟩ := List.mem_iff_getElem?.mp hu'
      refine ⟨u', List.mem_eraseIdx_iff_getElem?.mpr ⟨i, ?_, hi⟩, hrecord, hchannel⟩
      rintro rfl
      obtain rfl := Option.some.inj (hu.symm.trans hi)
      exact hclosed hclose c hc hchannel.symm
    have hoended : Owned { s with
        consumers := consumers
        unsubscribes := s.unsubscribes.eraseIdx call } :=
      hodone.shrink
        { unsubscribes := fun u' hu' => ⟨u', List.mem_of_mem_eraseIdx hu', rfl, rfl⟩ }
    exact hended.endUnsubscribe hoended (ho.unsubscribing u hmem).1 (hskips hclose)

theorem nodup_consumers {consumers : List (ℕ × ℕ)} (channel : ℕ) (h : consumers.Nodup)
    (hnone : ∀ c ∈ consumers, c.2 ≠ r) : (consumers ++ [(channel, r)]).Nodup := by
  rw [← List.concat_eq_append]
  exact (List.nodup_concat _ _).mpr ⟨fun hc => hnone _ hc rfl, h⟩

/-- The consumers after the start of a record that had none. -/
theorem Restored.sound_serve (h : Restored s live) {channel : ℕ} (consumerTag queueName : String)
    (hr : r < s.records.length) (hnone : ∀ c ∈ s.consumers, c.2 ≠ r) :
    ∀ c ∈ (s.serve r channel consumerTag queueName).consumers, c = (channel, r) ∨
      (c.2 ∈ s.subscriptionRecords ∧
        (s.serve r channel consumerTag queueName).isActive c.2 = true ∧
        (s.serve r channel consumerTag queueName).channelOf c.2 = some c.1) ∨
      ∃ u ∈ s.unsubscribes, u.record = c.2 ∧ u.channel = c.1 := by
  intro c hc
  rcases List.mem_append.mp hc with hc | hc
  · refine .inr ((h.sound c hc).imp_left ?_)
    rintro ⟨hmem, hactive, hchannel⟩
    rw [isActive_serve, channelOf_serve channel consumerTag queueName hr,
      if_neg (hnone c hc).symm]
    exact ⟨hmem, hactive, hchannel⟩
  · exact .inl (List.mem_singleton.mp hc)

theorem Restored.started_serve (h : Restored s live) {channel : ℕ}
    (consumerTag queueName : String) (hr : r < s.records.length) :
    ∀ q, q = r ∨ q ∈ s.subscriptionRecords →
      (s.serve r channel consumerTag queueName).channelOf q ≠ none := by
  intro q hq
  rw [channelOf_serve channel consumerTag queueName hr]
  split
  next => nofun
  next hne =>
    rcases hq with rfl | hq
    · exact absurd rfl hne
    · exact h.started q hq

/-- The replay has started a record: its consumer is the only one. -/
theorem Restored.finishReplay (h : Restored s live) (ho : Owned s) (hup : s.link = .up)
    {next channel : ℕ} {job : Starting} (consumerTag queueName : String)
    (hreplay : s.replay = some (.starting next job)) :
    Restored ((s.serve job.record channel consumerTag queueName).continueReplay next) live := by
  have hcursor : s.replay.bind Replay.cursor = some (next, job.record) := by
    rw [hreplay]
    rfl
  obtain ⟨hregistered, hactive, hdrop⟩ := h.current next job.record hcursor
  have hupcoming : s.upcoming = job.record :: s.subscriptionRecords.drop next := by
    rw [upcoming, hreplay]
    rfl
  have hr : job.record < s.records.length := ho.engaged _ (.inl hregistered)
  have hnone : ∀ c ∈ s.consumers, c.2 ≠ job.record := by
    intro c hc heq
    refine h.pending c hc ?_
    rw [hupcoming, heq]
    exact List.mem_cons_self
  refine restored_continueReplay ho.nodup ?_
    (fun q hq => h.started_serve consumerTag queueName hr q (.inr hq)) ?_ ?_
    (nodup_consumers channel h.once hnone) ?_
  · show s.subscriptionRecords.filter _ = live
    rw [List.filter_congr fun q _ => isActive_serve channel consumerTag queueName]
    exact h.live
  · intro q hq hqActive
    rw [isActive_serve] at hqActive
    rcases h.served hup q hq hqActive with hmem | ⟨channel', hconsumer⟩
    · rw [hupcoming] at hmem
      rcases List.mem_cons.mp hmem with rfl | hmem
      · exact .inr ⟨channel, List.mem_append_right _ List.mem_cons_self⟩
      · exact .inl hmem
    · exact .inr ⟨channel', List.mem_append_left _ hconsumer⟩
  · intro c hc
    rcases h.sound_serve consumerTag queueName hr hnone c hc with rfl | hsound
    · refine .inl ⟨hregistered, ?_, ?_⟩
      · rw [isActive_serve]
        exact hactive
      · rw [channelOf_serve channel consumerTag queueName hr, if_pos rfl]
    · exact hsound
  · intro c hc hmem
    rcases List.mem_append.mp hc with hc | hc
    · refine h.pending c hc ?_
      rw [hupcoming]
      exact List.mem_cons_of_mem _ hmem
    · rw [List.mem_singleton.mp hc] at hmem
      exact hdrop hmem

/-- Past the end of the registry, the loop of the replay does not come to an appended record. -/
theorem drop_of_startsOnce (h : s.startsOnce = true) {next : ℕ}
    (hcursor : s.replay.bind Replay.cursor = some (next, q)) :
    (s.subscriptionRecords ++ [r]).drop next = [] ∧ s.subscriptionRecords.drop next = [] := by
  obtain ⟨replay, hreplay, hcursor⟩ := Option.bind_eq_some_iff.mp hcursor
  rw [startsOnce, hreplay, Option.all_some, hcursor, Option.any_some] at h
  have hlt := of_decide_eq_true h
  refine ⟨List.drop_eq_nil_of_le ?_, List.drop_eq_nil_of_le hlt.le⟩
  rw [List.length_append]
  exact hlt

theorem upcoming_of_startsOnce (h : s.startsOnce = true) (hreplay : s'.replay = s.replay)
    (hregistry : s'.subscriptionRecords = s.subscriptionRecords ++ [r]) :
    s'.upcoming = s.upcoming := by
  rw [upcoming, upcoming, hreplay, hregistry]
  cases hsome : s.replay with
  | none => rfl
  | some replay =>
    rcases hcursor : replay.cursor with _ | ⟨next, q⟩
    · rw [startsOnce, hsome, Option.all_some, hcursor] at h
      cases h
    · obtain ⟨happended, hdrop⟩ := drop_of_startsOnce (r := r) h
        (by rw [hsome, Option.bind_some, hcursor])
      simp only [Option.map_some, hcursor, happended, hdrop]

/-- A `subscribe()` has ended while the replay does not come to its record. -/
theorem Restored.finishSubscribe (h : Restored s live) (ho : Owned s) {job : Starting}
    (hjob : job ∈ s.subscribes) {channel : ℕ} (consumerTag queueName : String)
    (honce : s.startsOnce = true) :
    Restored { (s.serve job.record channel consumerTag queueName).removeSubscribe job.record with
      subscriptionRecords := s.subscriptionRecords ++ [job.record] } (live ++ [job.record]) := by
  obtain ⟨hfree, hactive, -⟩ := ho.subscribing job hjob
  have hr : job.record < s.records.length := lt_of_isActive hactive
  have hregistry : job.record ∉ s.subscriptionRecords := fun hmem => hfree (.inl hmem)
  have hnone : ∀ c ∈ s.consumers, c.2 ≠ job.record := by
    intro c hc heq
    rcases h.sound c hc with ⟨hmem, -⟩ | ⟨u, hu, hrecord, -⟩
    · exact hregistry (heq ▸ hmem)
    · rw [← heq, ← hrecord, (ho.unsubscribing u hu).1] at hactive
      cases hactive
  obtain ⟨t, ht⟩ : ∃ t, t = ({ (s.serve job.record channel consumerTag queueName).removeSubscribe
      job.record with
    subscriptionRecords := s.subscriptionRecords ++ [job.record] } : Adapter) := ⟨_, rfl⟩
  have hmem : ∀ q, q ∈ t.subscriptionRecords ↔ q = job.record ∨ q ∈ s.subscriptionRecords := by
    intro q
    rw [ht, List.mem_append, List.mem_singleton, or_comm]
  have hkept : ∀ q, t.isActive q = s.isActive q := fun q => by
    rw [ht]
    exact isActive_serve channel consumerTag queueName
  have hchannel : ∀ q, t.channelOf q =
      (s.serve job.record channel consumerTag queueName).channelOf q := fun q => by rw [ht]; rfl
  have hconsumers : t.consumers = s.consumers ++ [(channel, job.record)] := by rw [ht]; rfl
  have hupcoming : t.upcoming = s.upcoming :=
    upcoming_of_startsOnce honce (by rw [ht]; rfl) (by rw [ht])
  rw [← ht]
  refine ⟨?_, ?_, ?_, ?_, ?_, ?_, ?_⟩
  · have hlist : t.subscriptionRecords = s.subscriptionRecords ++ [job.record] := by rw [ht]
    rw [hlist, List.filter_congr fun q _ => hkept q, List.filter_append, h.live,
      List.filter_cons_of_pos hactive, List.filter_nil]
  · intro q hq
    rw [hchannel]
    exact h.started_serve consumerTag queueName hr q ((hmem q).mp hq)
  · intro hup q hq hqActive
    rw [hupcoming, hconsumers]
    rcases (hmem q).mp hq with rfl | hq
    · exact .inr ⟨channel, List.mem_append_right _ List.mem_cons_self⟩
    · rw [hkept] at hqActive
      refine (h.served (by rw [ht] at hup; exact hup) q hq hqActive).imp_right ?_
      exact fun ⟨channel', hconsumer⟩ => ⟨channel', List.mem_append_left _ hconsumer⟩
  · rw [hconsumers]
    intro c hc
    rw [hmem, hkept, hchannel]
    rcases h.sound_serve consumerTag queueName hr hnone c hc with rfl | hsound
    · rw [channelOf_serve channel consumerTag queueName hr, if_pos rfl]
      exact .inl ⟨.inl rfl, hactive, rfl⟩
    · rw [isActive_serve] at hsound
      rw [ht]
      exact hsound.imp_left fun ⟨hregistered, hothers⟩ => ⟨.inr hregistered, hothers⟩
  · rw [hconsumers]
    exact nodup_consumers channel h.once hnone
  · rw [hconsumers, hupcoming]
    intro c hc hcUpcoming
    rcases List.mem_append.mp hc with hc | hc
    · exact h.pending c hc hcUpcoming
    · rw [List.mem_singleton.mp hc] at hcUpcoming
      rcases mem_upcoming.mp hcUpcoming with ⟨-, hin⟩ | ⟨next, q, hcursor, rfl | hin⟩
      · exact hregistry hin
      · exact hregistry (h.current next _ hcursor).1
      · exact hregistry (List.mem_of_mem_drop hin)
  · intro next q hcursor
    have hcursor : s.replay.bind Replay.cursor = some (next, q) := by
      rw [ht] at hcursor
      exact hcursor
    obtain ⟨hregistered, hqActive, -⟩ := h.current next q hcursor
    refine ⟨(hmem q).mpr (.inr hregistered), (hkept q).trans hqActive, ?_⟩
    rw [ht]
    show q ∉ (s.subscriptionRecords ++ [job.record]).drop next
    rw [(drop_of_startsOnce honce hcursor).1]
    exact List.not_mem_nil

theorem disconnectFrom_connection (s : Adapter) (next : ℕ) (rest : List ℕ) :
    (s.disconnectFrom next rest).1.connection = s.connection ∧
      ((s.disconnectFrom next rest).2 = none → s.connection = false) := by
  obtain ⟨t, ht, hcases⟩ := disconnectFrom_cases (P := fun t => t.connection = s.connection)
    (fun _ _ ht (_ : _ ∈ rest) => ht) rfl next
  rcases hcases with ⟨next', r, channel, command, -, -, heq⟩ | ⟨d, -, hnone, heq⟩
  · rw [heq]
    exact ⟨ht, nofun⟩
  · rw [heq]
    exact ⟨ht, fun hd => ht.symm.trans (hnone hd)⟩

theorem settle_ended {rest : List Disconnecting} {d : Option Disconnecting}
    (h : (s.settle rest d).1.disconnects = []) : d = none := by
  cases d with
  | none => rfl
  | some d => exact absurd h (List.append_ne_nil_of_right_ne_nil _ (List.cons_ne_nil _ _))

theorem settle_connection {rest : List Disconnecting} {d : Option Disconnecting} :
    (s.settle rest d).1.connection = s.connection := by
  cases d <;> rfl

/-- When the last call of `disconnect()` has ended, there is no connection. -/
theorem Linked.unconnected_of_ended (h : Linked s) {call : ℕ} {ok : Bool} {d : Disconnecting}
    (hd : s.disconnects[call]? = some d)
    (hanswered : s.disconnectAnswered call ok d = some (s', out)) (hended : s'.disconnects = []) :
    s'.connection = false := by
  cases disconnectAnswered_cases hanswered with
  | sent => exact absurd hended (List.append_ne_nil_of_right_ne_nil _ (List.cons_ne_nil _ _))
  | rejected next r channel command following consumers hconsumers hcommand hchannel =>
    exact h.idle ((h.reject hd hcommand hchannel).2 hended)
  | detached next r channel command consumers hconsumers t ht =>
    rw [settle_connection, (disconnectFrom_connection _ _ _).1]
    exact (disconnectFrom_connection _ _ _).2 (settle_ended hended)
  | publishChannelClosed d hleft hconnection =>
    rw [settle_connection]
    exact hconnection (settle_ended hended)

theorem track_of_kept (h : ∀ e ∈ out, ∀ live, Event.track live e = live) :
    out.foldl Event.track live = live := by
  induction out with
  | nil => rfl
  | cons e out ih =>
    rw [List.foldl_cons, h e List.mem_cons_self]
    exact ih fun e he => h e (List.mem_cons_of_mem _ he)

theorem track_nil (h : ∀ r, Event.subscribed r ∉ out) : out.foldl Event.track [] = [] := by
  induction out with
  | nil => rfl
  | cons e out ih =>
    have hout : ∀ r, Event.subscribed r ∉ out := fun r hr => h r (List.mem_cons_of_mem _ hr)
    cases e with
    | subscribed r => exact absurd List.mem_cons_self (h r)
    | _ => exact ih hout

theorem setPhase_calls (phase : StartPhase) (j : Job) :
    (s.setPhase phase j).connection = s.connection ∧
      (s.setPhase phase j).disconnects = s.disconnects := by
  cases j with
  | replay =>
    rw [setPhase]
    split <;> exact ⟨rfl, rfl⟩
  | subscribe r => exact ⟨rfl, rfl⟩

theorem configure_calls (r : ℕ) (record : SubscriptionRecord) (uuid : String) (j : Job) :
    (s.configure options r record uuid j).connection = s.connection ∧
      (s.configure options r record uuid j).disconnects = s.disconnects := setPhase_calls _ j

theorem finishStart_calls (r channel : ℕ) (consumerTag queueName : String) (j : Job) :
    (s.finishStart r channel consumerTag queueName j).1.connection = s.connection ∧
      (s.finishStart r channel consumerTag queueName j).1.disconnects = s.disconnects := by
  cases j with
  | replay =>
    rw [finishStart]
    split <;> exact ⟨rfl, rfl⟩
  | subscribe q => exact ⟨rfl, rfl⟩

theorem unsubscribe_calls (r : ℕ) : (s.unsubscribe r).1.connection = s.connection ∧
    (s.unsubscribe r).1.disconnects = s.disconnects := by
  rw [Adapter.unsubscribe]
  split <;> exact ⟨rfl, rfl⟩

theorem unsubscribeAnswered_calls (call : ℕ) (u : Unsubscribing) (ok : Bool) :
    (s.unsubscribeAnswered call u ok).1.connection = s.connection ∧
      (s.unsubscribeAnswered call u ok).1.disconnects = s.disconnects := by
  obtain ⟨consumers, heq, -⟩ := s.commandDone_eq u.channel u.awaiting ok
  rw [Adapter.unsubscribeAnswered, heq]
  dsimp only
  split <;> exact ⟨rfl, rfl⟩

/-- Only the end of `connection.close()` leaves no connection where there was one. -/
theorem connection_step (hstep : step options s a = some (s', out)) (h : s'.connection = false) :
    s.connection = false ∨ ∃ l, out = l ++ [.disconnected] := by
  cases step_cases hstep with
  | connected => cases h
  | connect | opened | publishChannelCreated | topologyApplied | connectFailed | connectRejected
  | lost | subscribe | notConnected | refused => exact .inl h
  | channelCreated job => exact .inl ((configure_calls _ _ _ job).1.symm.trans h)
  | commandAnswered job => exact .inl ((setPhase_calls _ job).1.symm.trans h)
  | consumeAnswered job => exact .inl ((finishStart_calls _ _ _ _ job).1.symm.trans h)
  | unsubscribe r => exact .inl ((unsubscribe_calls r).1.symm.trans h)
  | unsubscribeAnswered call ok u =>
    exact .inl ((unsubscribeAnswered_calls call u ok).1.symm.trans h)
  | disconnect =>
    refine .inl ?_
    rw [← (disconnectFrom_connection s 0 s.subscriptionRecords).1, ← h, disconnect]
    exact settle_connection.symm
  | disconnectAnswered call ok d t out hd hanswered =>
    refine .inl ?_
    cases disconnectAnswered_cases hanswered with
    | sent | rejected => exact h
    | detached next r channel command consumers hconsumers t ht =>
      rw [settle_connection, (disconnectFrom_connection _ _ _).1, ht] at h
      exact h
    | publishChannelClosed =>
      rw [settle_connection] at h
      exact h
  | connectionClosed => exact .inr ⟨_, rfl⟩

theorem not_subscribed (hl : Linked s) (hconnection : s.connection = false)
    (hstep : step options s a = some (s', out)) (r : ℕ) : .subscribed r ∉ out := by
  have hsettle : ∀ {t : Adapter} {rest : List Disconnecting} {d : Option Disconnecting},
      .subscribed r ∉ (t.settle rest d).2 := by
    intro t rest d
    cases d <;> simp [settle]
  cases step_cases hstep with
  | consumeAnswered job consumerTag q channel queueName answered hup hjob =>
    exact (hl.no_job hconnection hjob).elim
  | connect | opened | publishChannelCreated | topologyApplied | connected | connectFailed
  | connectRejected | subscribe | channelCreated | commandAnswered => exact List.not_mem_nil
  | lost => simp [lose]
  | notConnected | refused => simp
  | unsubscribe q =>
    rw [unsubscribe]
    split <;> simp
  | unsubscribeAnswered call ok u hu =>
    rw [unsubscribeAnswered]
    dsimp only
    split <;> simp
  | disconnect => exact hsettle
  | disconnectAnswered call ok d t out hd hanswered =>
    cases disconnectAnswered_cases hanswered with
    | sent | rejected => simp
    | detached => exact hsettle
    | publishChannelClosed => exact hsettle
  | connectionClosed => simp [connectionClosed]

/-- The connection has been opened: the replay comes to the whole registry. -/
theorem Restored.opened (h : Restored s live) (hconsumers : s.consumers = []) :
    Restored { s with link := .up, replay := some .creatingPublishChannel } live := by
  refine ⟨h.live, h.started, fun _ r hr _ => .inl hr, h.sound, h.once, ?_, nofun⟩
  rw [hconsumers]
  exact fun c hc => absurd hc List.not_mem_nil

theorem Restored.lose (h : Restored s live) (text : String) :
    Restored (s.lose options text).1 ((s.lose options text).2.foldl Event.track live) := by
  have hkept : ∀ e ∈ (s.lose options text).2, ∀ live, Event.track live e = live := by
    intro e he
    rcases List.mem_append.mp he with he | he <;>
      obtain ⟨_, -, rfl⟩ := List.mem_map.mp he <;> exact fun _ => rfl
  rw [track_of_kept hkept]
  exact ⟨h.live, h.started, nofun, nofun, List.nodup_nil, nofun, nofun⟩

theorem Restored.setPhase (h : Restored s live) (ho : Owned s) {j : Job} {job : Starting}
    {phase : StartPhase} (hjob : s.findJob j = some job) : Restored (s.setPhase phase j) live := by
  obtain ⟨replay, subscribes, heq, hcursor, -⟩ := setPhase_spec phase hjob
  rw [heq]
  exact h.keep ho id rfl hcursor rfl (fun u hu => ⟨u, hu, rfl, rfl⟩) fun _ _ => ⟨rfl, rfl⟩

theorem Restored.subscribe (h : Restored s live) (ho : Owned s) (record : SubscriptionRecord) :
    Restored { s with
      records := s.records ++ [record]
      subscribes := s.subscribes ++ [⟨s.records.length, .creatingChannel⟩] } live := by
  refine h.keep ho id rfl rfl rfl (fun u hu => ⟨u, hu, rfl, rfl⟩) fun r hr => ?_
  simp only [isActive, channelOf, List.getElem?_append_left hr, and_self]

theorem Restored.finishStart (h : Restored s live) (ho : Owned s) (hup : s.link = .up)
    (hcalls : s.disconnects = []) {j : Job} {channel : ℕ} {consumerTag queueName : String}
    {answered : SetupCommand}
    (hjob : s.findJob j = some ⟨r, .configuring channel queueName answered []⟩)
    (hundisturbed : s.undisturbed (.answered j consumerTag) = true) :
    Restored (s.finishStart r channel consumerTag queueName j).1
      ((s.finishStart r channel consumerTag queueName j).2.foldl Event.track live) := by
  cases j with
  | replay =>
    obtain ⟨next, hreplay⟩ := findJob_replay.mp hjob
    rw [Adapter.finishStart, hreplay]
    exact h.finishReplay ho hup consumerTag queueName hreplay
  | subscribe q =>
    simp only [undisturbed, hjob, Option.all_some, Starting.isConsuming, Bool.not_true,
      Bool.false_or, if_pos hcalls] at hundisturbed
    exact h.finishSubscribe ho (mem_subscribes_of_findJob hjob).1 consumerTag queueName hundisturbed

/-- What holds in every state, with the subscriptions that are still active. -/
structure Invariant (s : Adapter) (live : List ℕ) : Prop where
  owned : Owned s
  linked : Linked s
  dead : s.connection = false → live = []
  restored : s.disconnects = [] → Restored s live

theorem invariant_initial : Invariant {} [] :=
  ⟨owned_initial, linked_initial, fun _ => rfl, fun _ => linked_initial.restored rfl⟩

theorem Invariant.dead_step (h : Invariant s live) (hstep : step options s a = some (s', out))
    (hconnection : s'.connection = false) : out.foldl Event.track live = [] := by
  rcases connection_step hstep hconnection with hnone | ⟨l, rfl⟩
  · rw [h.dead hnone]
    exact track_nil (not_subscribed h.linked hnone hstep)
  · rw [List.foldl_append]
    rfl

theorem Invariant.restored_step (h : Invariant s live) (hlinked : Linked s')
    (hundisturbed : s.undisturbed a = true) (hstep : step options s a = some (s', out))
    (hended : s'.disconnects = []) : Restored s' (out.foldl Event.track live) := by
  have hsame : ∀ u ∈ s.unsubscribes, ∃ u' ∈ s.unsubscribes,
      u'.record = u.record ∧ u'.channel = u.channel := fun u hu => ⟨u, hu, rfl, rfl⟩
  have hunconnected : s'.connection = false → Restored s' (out.foldl Event.track live) := by
    intro hconnection
    rw [h.dead_step hstep hconnection]
    exact hlinked.restored hconnection
  cases step_cases hstep with
  | connect => exact (h.restored hended).keep h.owned nofun rfl rfl rfl hsame fun _ _ => ⟨rfl, rfl⟩
  | opened hdown =>
    refine (h.restored hended).opened (h.linked.quiet ?_).1
    rw [hdown]
    nofun
  | publishChannelCreated hreplay =>
    refine (h.restored hended).keep h.owned id rfl ?_ rfl hsame fun _ _ => ⟨rfl, rfl⟩
    rw [hreplay]
    rfl
  | topologyApplied hreplay =>
    have hrestored := h.restored hended
    have hupcoming : s.upcoming = s.subscriptionRecords := by
      rw [upcoming, hreplay]
      rfl
    have hup : s.link = .up := by
      by_contra hlink
      exact absurd (hreplay.symm.trans (h.linked.quiet hlink).2) nofun
    refine restored_continueReplay h.owned.nodup hrestored.live hrestored.started ?_
      hrestored.sound hrestored.once ?_
    · rw [List.drop_zero, ← hupcoming]
      exact fun r hr => hrestored.served hup r (hupcoming ▸ hr)
    · rw [List.drop_zero, ← hupcoming]
      exact hrestored.pending
  | connected =>
    exact (h.restored hended).keep h.owned id rfl rfl rfl hsame fun _ _ => ⟨rfl, rfl⟩
  | connectFailed =>
    exact (h.restored hended).keep h.owned id rfl rfl rfl hsame fun _ _ => ⟨rfl, rfl⟩
  | connectRejected hdown hconnection => exact hunconnected hconnection
  | lost text hup =>
    exact (h.restored hended).lose text
  | subscribe record => exact (h.restored hended).subscribe h.owned record
  | notConnected => exact h.restored hended
  | channelCreated job uuid r record hup hjob hrecord =>
    have hcalls : s.disconnects = [] := (configure_calls _ _ _ job).2.symm.trans hended
    have hr : r < s.records.length := (List.getElem?_eq_some_iff.mp hrecord).1
    have hextended : Restored { s with channels := s.channels ++ [r] } live :=
      (h.restored hcalls).keep h.owned id rfl rfl rfl hsame fun _ _ => ⟨rfl, rfl⟩
    exact hextended.setPhase (h.owned.extend hr) hjob
  | commandAnswered job consumerTag r channel queueName answered command rest hup hjob =>
    have hcalls : s.disconnects = [] := (setPhase_calls _ job).2.symm.trans hended
    exact (h.restored hcalls).setPhase h.owned hjob
  | consumeAnswered job consumerTag r channel queueName answered hup hjob =>
    have hcalls : s.disconnects = [] := (finishStart_calls _ _ _ _ job).2.symm.trans hended
    exact (h.restored hcalls).finishStart h.owned hup hcalls hjob hundisturbed
  | refused r text job hjob =>
    exact (h.restored hended).keep h.owned id rfl rfl rfl hsame fun _ _ => ⟨rfl, rfl⟩
  | unsubscribe r hr hsubscribed =>
    have hcalls : s.disconnects = [] := (unsubscribe_calls r).2.symm.trans hended
    simp only [undisturbed, hcalls, ne_eq, not_true_eq_false, decide_false,
      Bool.false_or] at hundisturbed
    have hrestored := (h.restored hcalls).unsubscribe h.owned hsubscribed hundisturbed
    have htrack : (s.unsubscribe r).2.foldl Event.track live = live.erase r := by
      rw [Adapter.unsubscribe]
      split <;> rfl
    rw [htrack]
    exact hrestored
  | unsubscribeAnswered call ok u hu =>
    have hcalls : s.disconnects = [] := (unsubscribeAnswered_calls call u ok).2.symm.trans hended
    have hrestored := (h.restored hcalls).unsubscribeAnswered h.owned ok hu fun hclose => by
      simpa [undisturbed, hu, hclose, hcalls] using hundisturbed
    have htrack : (s.unsubscribeAnswered call u ok).2.foldl Event.track live = live := by
      rw [Adapter.unsubscribeAnswered]
      dsimp only
      split <;> rfl
    rw [htrack]
    exact hrestored
  | disconnect =>
    refine hunconnected (settle_connection.trans ?_)
    rw [(disconnectFrom_connection _ _ _).1]
    exact (disconnectFrom_connection _ _ _).2 (settle_ended hended)
  | disconnectAnswered call ok d t out hd hanswered =>
    exact hunconnected (h.linked.unconnected_of_ended hd hanswered hended)
  | connectionClosed => exact hunconnected rfl

theorem Invariant.step (h : Invariant s live) (hundisturbed : s.undisturbed a = true)
    (hstep : step options s a = some (s', out)) : Invariant s' (out.foldl Event.track live) := by
  have hlinked := h.linked.step h.owned hundisturbed hstep
  exact ⟨h.owned.step hstep, hlinked, h.dead_step hstep,
    h.restored_step hlinked hundisturbed hstep⟩

theorem invariant_of_run {actions : List Action}
    (hundisturbed : Machine.Meets (step options) (fun s a => s.undisturbed a = true) {} actions)
    (hrun : Machine.run (step options) {} actions = some (s, log)) :
    Invariant s (stillActive log) := by
  refine Machine.run_invariant_of_meets (l := []) (I := fun s log => Invariant s (stillActive log))
    ?_ invariant_initial hundisturbed hrun
  intro s log a s' out hinvariant ha hstep
  have hnext := hinvariant.step ha hstep
  rw [stillActive, List.foldl_append]
  exact hnext

/-- As long as no call gets in the way of a replay or of a `disconnect()`: once the replay and the
calls have ended, the live consumers are those of the subscriptions that are still active, one
each. -/
theorem restores_active {actions : List Action}
    (hundisturbed : Machine.Meets (step options) (fun s a => s.undisturbed a = true) {} actions)
    (hrun : Machine.run (step options) {} actions = some (s, log)) (hquiescent : s.Quiescent) :
    (s.consumers.map Prod.snd).Nodup ∧
      (s.consumers.map Prod.snd).Perm (stillActive log) := by
  have hinvariant := invariant_of_run hundisturbed hrun
  have hrestored := hinvariant.restored hquiescent.disconnects
  have hupcoming : s.upcoming = [] := by
    rw [upcoming, hquiescent.replay]
    rfl
  have hsound : ∀ c ∈ s.consumers, c.2 ∈ s.subscriptionRecords ∧ s.isActive c.2 = true ∧
      s.channelOf c.2 = some c.1 := by
    intro c hc
    rcases hrestored.sound c hc with hactive | ⟨u, hu, -⟩
    · exact hactive
    · rw [hquiescent.unsubscribes] at hu
      cases hu
  have honce : (s.consumers.map Prod.snd).Nodup := by
    refine hrestored.once.map_on fun c hc c' hc' heq => Prod.ext ?_ heq
    have hchannel := (hsound c hc).2.2
    rw [heq, (hsound c' hc').2.2] at hchannel
    exact (Option.some.inj hchannel).symm
  refine ⟨honce, ?_⟩
  rw [← hrestored.live]
  refine (List.perm_ext_iff_of_nodup honce
    (hinvariant.owned.nodup.sublist List.filter_sublist)).mpr fun r => ?_
  rw [List.mem_map, List.mem_filter]
  constructor
  · rintro ⟨c, hc, rfl⟩
    exact ⟨(hsound c hc).1, (hsound c hc).2.1⟩
  · rintro ⟨hr, hactive⟩
    have hup : s.link = .up := by
      cases hlink : s.link with
      | up => rfl
      | down => exact absurd hlink hquiescent.link
      | idle =>
        have hregistry := (hinvariant.linked.unconnected (hinvariant.linked.idle hlink)).1
        rw [hregistry] at hr
        cases hr
    rcases hrestored.served hup r hr hactive with hmem | ⟨channel, hconsumer⟩
    · rw [hupcoming] at hmem
      cases hmem
    · exact ⟨_, hconsumer, rfl⟩

/-- Queues that exist: `startConsumer` awaits `prefetch` and `consume` only. -/
def existingQueues : AmqpAdapterOptions where
  topologyMode := .skip

def established : List Action :=
  [.connect, .opened, .publishChannelCreated, .topologyApplied, .connected]

def startedBy (job : Job) (consumerTag : String) : List Action :=
  [.channelCreated job "f47ac10b", .answered job "", .answered job consumerTag]

def reconnected : List Action :=
  [.lost "connection lost", .opened, .publishChannelCreated, .topologyApplied]

/-- The connection is lost in the middle of the third `subscribe()`, and the first subscription is
ended after the replay. -/
def restoredRun : List Action :=
  established ++
    [.subscribe ["user.*"] (some "a")] ++ startedBy (.subscribe 0) "tag-0" ++
    [.subscribe ["user.*"] (some "b")] ++ startedBy (.subscribe 1) "tag-1" ++
    [.subscribe ["user.*"] (some "c")] ++ reconnected ++
    startedBy .replay "tag-2" ++ startedBy .replay "tag-3" ++ startedBy (.subscribe 2) "tag-4" ++
    [.unsubscribe 0, .unsubscribeAnswered 0 true, .unsubscribeAnswered 0 true]

def restoredLog : List Event :=
  [.subscribed 0, .subscribed 1, .subscribed 2, .unsubscribing 0, .unsubscribed 0]

theorem restores_active_reconnected : ∃ s,
    Machine.run (step existingQueues) {} restoredRun = some (s, restoredLog) ∧
      (s.consumers.map Prod.snd).Nodup ∧ (s.consumers.map Prod.snd).Perm [1, 2] := by
  obtain ⟨s, hrun, hquiescent⟩ : ∃ s,
      Machine.run (step existingQueues) {} restoredRun = some (s, restoredLog) ∧ s.Quiescent :=
    ⟨_, rfl, nofun, rfl, rfl, rfl, rfl⟩
  exact ⟨s, hrun, restores_active (by decide) hrun hquiescent⟩

/-- The only subscription is ended while the replay starts it. -/
def orphanedRun : List Action :=
  established ++ [.subscribe ["user.*"] (some "a")] ++ startedBy (.subscribe 0) "tag-0" ++
    reconnected ++ [.unsubscribe 0] ++ startedBy .replay "tag-1" ++
    [.unsubscribeAnswered 0 false, .unsubscribeAnswered 0 false]

def orphanedLog : List Event := [.subscribed 0, .unsubscribing 0, .unsubscribed 0]

/-- The consumer of an ended subscription stays alive. -/
theorem unsubscribed_consumer_alive :
    ¬ ∀ (options : AmqpAdapterOptions) (actions : List Action) (s : Adapter) (log : List Event),
      Machine.run (step options) {} actions = some (s, log) → s.Quiescent →
      (s.consumers.map Prod.snd).Nodup ∧
        (s.consumers.map Prod.snd).Perm (stillActive log) := by
  intro h
  obtain ⟨s, hrun, hquiescent, hconsumers⟩ : ∃ s,
      Machine.run (step existingQueues) {} orphanedRun = some (s, orphanedLog) ∧ s.Quiescent ∧
        s.consumers.map Prod.snd = [0] :=
    ⟨_, rfl, ⟨nofun, rfl, rfl, rfl, rfl⟩, rfl⟩
  have hperm := (h existingQueues orphanedRun s orphanedLog hrun hquiescent).2
  rw [hconsumers] at hperm
  exact absurd hperm.length_eq (by decide)

end Adapter
end Connectum.Events.Amqp.Recovery
