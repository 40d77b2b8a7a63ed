import Connectum.Events.Redis.GroupAccounts
import Connectum.JsMap

/-! What the subscriptions of consumer groups hand over: each entry until it is acknowledged, and as
a first attempt only once. -/
namespace Connectum.Events.Redis.Groups
open Machine

variable {s t : State} {server : Server} {log events : List Event} {key group : String} {entry : Entry}
  {entries : List Entry} {count i : ℕ} {attempt : Attempt} {g : Group}

/-- The new entries that a loop still has to hand over. -/
def owed : Loop → List Entry
  | .received next entries => next :: entries
  | .processing _ entries => entries
  | _ => []

/-- The claimed entries that a loop still has to hand over, and those whose attempts it asks for. -/
def owedAgain : Loop → List Attempt
  | .claimed next entries _ => next :: entries
  | .reclaimed _ entries _ => entries
  | _ => []

def uncounted : Loop → List Entry
  | .counting entries _ => entries
  | _ => []

/-- A loop that has nothing to hand over. -/
structure Idle (loop : Loop) : Prop where
  owed : owed loop = []
  owedAgain : owedAgain loop = []
  uncounted : uncounted loop = []

theorem idle_nextKey (keys : List String) : Idle (Reader.nextKey keys) := by
  cases keys <;> exact ⟨rfl, rfl, rfl⟩

theorem idle_loopHead (streamKeys : List String) (r : Reader) :
    Idle (r.loopHead streamKeys).loop := by
  unfold Reader.loopHead
  split
  · dsimp only
    split
    · exact idle_nextKey streamKeys
    · exact ⟨rfl, rfl, rfl⟩
  · exact ⟨rfl, rfl, rfl⟩

/-- What is known of the entries that a loop holds. -/
structure Backed (group : String) (log : List Event) (loop : Loop) : Prop where
  owed : ∀ e ∈ owed loop, e ∈ deliveries group log
  owedAgain : ∀ a ∈ owedAgain loop, 2 ≤ a.2 ∧ a.2 ≤ (deliveries group log).count a.1
  uncounted : ∀ e ∈ uncounted loop, 2 ≤ (deliveries group log).count e

theorem Idle.backed {loop : Loop} (h : Idle loop) : Backed group log loop := by
  constructor
  · simp [h.owed]
  · simp [h.owedAgain]
  · simp [h.uncounted]

theorem Backed.append {loop : Loop} (h : Backed group log loop) (events : List Event) :
    Backed group (log ++ events) loop := by
  have hcount (e : Entry) :
      (deliveries group log).count e ≤ (deliveries group (log ++ events)).count e := by
    rw [deliveries_append, List.count_append]
    omega
  refine ⟨?_, ?_, ?_⟩
  · intro e he
    rw [deliveries_append]
    exact List.mem_append_left _ (h.owed e he)
  · exact fun a ha => ⟨(h.owedAgain a ha).1, Nat.le_trans (h.owedAgain a ha).2 (hcount a.1)⟩
  · exact fun e he => Nat.le_trans (h.uncounted e he) (hcount e)

/-- What the broker's replies to a loop may be. -/
def Promised (group : String) (log : List Event) (loop : Loop) : ReaderAction → Prop
  | .autoClaimReply entries => ∀ e ∈ entries, 2 ≤ (deliveries group log).count e
  | .pendingReply pendingAll => ∀ e ∈ uncounted loop, ∀ n ∈ pendingAll.lookup e.entryId,
    n = (deliveries group log).count e
  | .readReply entries => ∀ e ∈ entries, e ∈ deliveries group log
  | _ => True

def received : ReaderAction → List Entry
  | .readReply entries => entries
  | _ => []

variable {r r' : Reader} {streamKeys : List String} {callback : ℕ → Option Bool} {k : ReaderAction}

/-- A loop with nothing to hand over after its step. -/
theorem handsOver_of_idle {loop : Loop} (h : Idle loop) (list : List Entry) :
    Backed group log loop ∧ (owed loop).Sublist list :=
  ⟨h.backed, by rw [h.owed]; exact List.nil_sublist _⟩

theorem handsOver_nextReceived (hentries : ∀ e ∈ entries, e ∈ deliveries group log) :
    Backed group log (r.nextReceived streamKeys entries).loop ∧
      (owed (r.nextReceived streamKeys entries).loop).Sublist entries := by
  cases entries with
  | nil => exact handsOver_of_idle (idle_loopHead streamKeys r) []
  | cons next entries =>
    show Backed group log (.received next entries) ∧ _
    exact ⟨⟨hentries, by simp [owedAgain], by simp [uncounted]⟩, .refl _⟩

theorem handsOver_nextClaimed {keys : List String} {attempts : List Attempt}
    (hattempts : ∀ a ∈ attempts, 2 ≤ a.2 ∧ a.2 ≤ (deliveries group log).count a.1)
    (list : List Entry) :
    Backed group log (Reader.nextClaimed keys attempts) ∧
      (owed (Reader.nextClaimed keys attempts)).Sublist list := by
  cases attempts with
  | nil => exact handsOver_of_idle (idle_nextKey keys) list
  | cons next attempts =>
    exact ⟨⟨by simp [Reader.nextClaimed, owed], hattempts, by simp [Reader.nextClaimed, uncounted]⟩,
      List.nil_sublist _⟩

theorem handsOver_internal (h : Backed group log r.loop) (hk : Promised group log r.loop k)
    (hr : r.internal streamKeys callback k = some r') :
    Backed group log r'.loop ∧ (owed r'.loop).Sublist (owed r.loop ++ received k) := by
  cases k with
  | autoClaimReply entries =>
    simp only [Reader.internal] at hr
    split at hr
    next =>
      obtain rfl := Option.some.inj hr
      dsimp only
      split
      · exact handsOver_of_idle (idle_nextKey _) _
      · exact ⟨⟨by simp [owed], by simp [owedAgain], hk⟩, List.nil_sublist _⟩
    next => cases hr
  | autoClaimError =>
    simp only [Reader.internal] at hr
    split at hr
    next =>
      obtain rfl := Option.some.inj hr
      exact handsOver_of_idle (idle_nextKey _) _
    next => cases hr
  | pendingReply pendingAll =>
    simp only [Reader.internal] at hr
    split at hr
    next entries keys hloop =>
      obtain rfl := Option.some.inj hr
      apply handsOver_nextClaimed
      intro a ha
      obtain ⟨e, he, rfl⟩ := List.mem_map.mp ha
      have hunc : e ∈ uncounted r.loop := by rwa [hloop]
      have htwo := h.uncounted e hunc
      cases hlookup : pendingAll.lookup e.entryId with
      | none => exact ⟨Nat.le_refl 2, htwo⟩
      | some n =>
        have hn := hk e hunc n hlookup
        simp only [Option.getD_some]
        omega
    next => cases hr
  | stopReclaim =>
    simp only [Reader.internal] at hr
    split at hr
    next =>
      split at hr
      next => cases hr
      next =>
        obtain rfl := Option.some.inj hr
        exact handsOver_of_idle ⟨rfl, rfl, rfl⟩ _
    next => cases hr
  | readReply entries =>
    simp only [Reader.internal] at hr
    split at hr
    next hloop =>
      obtain rfl := Option.some.inj hr
      rw [hloop]
      exact handsOver_nextReceived hk
    next => cases hr
  | readError =>
    simp only [Reader.internal] at hr
    split at hr
    next =>
      obtain rfl := Option.some.inj hr
      dsimp only
      split <;> exact handsOver_of_idle ⟨rfl, rfl, rfl⟩ _
    next => cases hr
  | processed =>
    simp only [Reader.internal] at hr
    split at hr
    next d attempts keys hloop =>
      split at hr
      next => cases hr
      next =>
        obtain rfl := Option.some.inj hr
        exact handsOver_nextClaimed (by rw [hloop] at h; exact h.owedAgain) _
      next =>
        obtain rfl := Option.some.inj hr
        exact handsOver_of_idle (idle_nextKey _) _
    next d entries hloop =>
      split at hr
      next => cases hr
      next =>
        obtain rfl := Option.some.inj hr
        rw [hloop] at h
        rw [hloop, show received .processed = [] from rfl, List.append_nil]
        exact handsOver_nextReceived h.owed
    next => cases hr
  | slept =>
    simp only [Reader.internal] at hr
    split at hr
    next =>
      obtain rfl := Option.some.inj hr
      exact handsOver_of_idle (idle_loopHead _ _) _
    next => cases hr

/-- The entry that is handed over is a first attempt that was owed, or one of those claimed. -/
theorem handsOver_accept {env : ℕ → Environment} {d : ℕ} {event : RawEvent}
    (h : Backed group log r.loop) (hnext : next? r.loop = some attempt)
    (hr : r.accept env d event = some r') :
    Backed group log r'.loop ∧
      (attempt.2 = 1 ∧ owed r.loop = attempt.1 :: owed r'.loop ∨
        attempt ∈ owedAgain r.loop ∧ owed r'.loop = owed r.loop) := by
  unfold Reader.accept at hr
  split at hr
  next next attempts keys hloop =>
    split at hr
    next =>
      obtain rfl := Option.some.inj hr
      rw [hloop] at h hnext ⊢
      obtain rfl := Option.some.inj hnext
      exact ⟨⟨by simp [owed], fun a ha => h.owedAgain a (List.mem_cons_of_mem _ ha),
        by simp [uncounted]⟩, .inr ⟨List.mem_cons_self, rfl⟩⟩
    next => cases hr
  next next entries hloop =>
    split at hr
    next =>
      obtain rfl := Option.some.inj hr
      rw [hloop] at h hnext ⊢
      obtain rfl := Option.some.inj hnext
      exact ⟨⟨fun e he => h.owed e (List.mem_cons_of_mem _ he), by simp [owedAgain],
        by simp [uncounted]⟩, .inl ⟨rfl, rfl⟩⟩
    next => cases hr
  next => cases hr

/-- The entries that a subscription has handed over, or will, as first attempts. -/
def taken (log : List Event) (i : ℕ) (sub : Subscription) : List Entry :=
  firsts i log ++ owed sub.reader.loop

/-- What holds of the subscriptions and of the events so far. -/
structure Subscribed (s : State) (log : List Event) : Prop where
  ordered : ∀ i sub, s.subscriptions[i]? = some sub → ∀ key,
    (ofKey key (taken log i sub)).Sublist (readEntries s.server key sub.group)
  disjoint : ∀ i j sub other, s.subscriptions[i]? = some sub → s.subscriptions[j]? = some other →
    i ≠ j → sub.group = other.group → ∀ e ∈ taken log i sub, e ∉ taken log j other
  backed : ∀ (i : ℕ) (sub : Subscription), s.subscriptions[i]? = some sub →
    Backed sub.group log sub.reader.loop
  handed : ∀ i group attempt, .handed i group attempt ∈ log →
    ∃ sub, s.subscriptions[i]? = some sub ∧ sub.group = group
  called : ∀ call ∈ s.calls, ∃ group, .handed call.1 group call.2 ∈ log

variable {sub sub' : Subscription} {reader : Reader} {calls : List (ℕ × Attempt)} {j : ℕ}

theorem firsts_eq_nil (h : ∀ group attempt, .handed i group attempt ∉ events) :
    firsts i events = [] := by
  apply List.filterMap_eq_nil_iff.mpr
  intro event hevent
  cases event with
  | handed j group attempt =>
    apply if_neg
    rintro ⟨rfl, -⟩
    exact h group attempt hevent
  | server e => rfl

theorem mem_of_mem_taken (h : Subscribed s log) (hsub : s.subscriptions[i]? = some sub)
    (hmem : entry ∈ taken log i sub) : entry ∈ readEntries s.server entry.key sub.group :=
  (h.ordered i sub hsub entry.key).subset (mem_ofKey.mpr ⟨hmem, rfl⟩)

/-- A step in which no loop moves. -/
theorem Subscribed.grow (h : Subscribed s log) (hsubscriptions : t.subscriptions = s.subscriptions)
    (hcalls : t.calls = s.calls)
    (hread : ∀ key group, (readEntries s.server key group).Sublist (readEntries t.server key group))
    (hevents : ∀ i group attempt, .handed i group attempt ∉ events) :
    Subscribed t (log ++ events) := by
  have htaken : ∀ i sub, taken (log ++ events) i sub = taken log i sub := by
    intro i sub
    rw [taken, firsts_append, firsts_eq_nil (hevents i), List.append_nil, taken]
  refine ⟨?_, ?_, ?_, ?_, ?_⟩
  · intro i sub hsub key
    rw [hsubscriptions] at hsub
    rw [htaken]
    exact (h.ordered i sub hsub key).trans (hread key sub.group)
  · intro i j sub other hsub hother hne hgroup
    rw [hsubscriptions] at hsub hother
    rw [htaken, htaken]
    exact h.disjoint i j sub other hsub hother hne hgroup
  · intro i sub hsub
    rw [hsubscriptions] at hsub
    exact (h.backed i sub hsub).append events
  · intro i group attempt hmem
    rw [hsubscriptions]
    rcases List.mem_append.mp hmem with hmem | hmem
    · exact h.handed i group attempt hmem
    · exact absurd hmem (hevents i group attempt)
  · intro call hcall
    rw [hcalls] at hcall
    obtain ⟨group, hhanded⟩ := h.called call hcall
    exact ⟨group, List.mem_append_left _ hhanded⟩

theorem handed_notMem_delivered (i : ℕ) (group other : String) (attempt : Attempt)
    (entries : List Entry) : .handed i other attempt ∉ deliveredEvents group entries := by
  simp [deliveredEvents]

theorem Reads.sublist {v : Server} (h : Reads server v group entries) (key other : String) :
    (readEntries server key other).Sublist (readEntries v key other) := by
  by_cases heq : other = group
  · rw [heq, h.appended]
    exact List.sublist_append_left _ _
  · rw [h.others key other heq]

theorem getElem?_setReader (s : State) (i : ℕ) (reader : Reader) (j : ℕ) :
    (s.setReader i reader).subscriptions[j]? =
      if i = j then (s.subscriptions[j]?).map (fun sub => { sub with reader })
      else s.subscriptions[j]? := by
  show (s.subscriptions.modify i _)[j]? = _
  rw [List.getElem?_modify]
  split
  next => rfl
  next => simp

theorem setReader_cases (h : (s.setReader i reader).subscriptions[j]? = some sub') :
    i ≠ j ∧ s.subscriptions[j]? = some sub' ∨
      i = j ∧ ∃ sub, s.subscriptions[i]? = some sub ∧ sub' = { sub with reader } := by
  rw [getElem?_setReader] at h
  split at h
  next heq =>
    obtain ⟨sub, hsub, rfl⟩ := Option.map_eq_some_iff.mp h
    exact .inr ⟨heq, sub, heq ▸ hsub, rfl⟩
  next hne => exact .inl ⟨hne, h⟩

/-- The step of one loop, which may hand an entry over. What it owes afterwards it owed before, or
no subscription of its group did. -/
theorem Subscribed.setReader (h : Subscribed s log) (hsub : s.subscriptions[i]? = some sub)
    (hbacked : Backed sub.group (log ++ events) reader.loop)
    (hordered : ∀ key, (ofKey key (taken (log ++ events) i { sub with reader })).Sublist
      (readEntries s.server key sub.group))
    (hnew : ∀ e ∈ taken (log ++ events) i { sub with reader }, e ∈ taken log i sub ∨
      ∀ j other, s.subscriptions[j]? = some other → other.group = sub.group →
        e ∉ taken log j other)
    (hevents : ∀ j group attempt, .handed j group attempt ∈ events → j = i ∧ group = sub.group)
    (hcalls : ∀ call ∈ calls, call ∈ s.calls ∨ ∃ group, .handed call.1 group call.2 ∈ events) :
    Subscribed { s.setReader i reader with calls } (log ++ events) := by
  have htaken : ∀ j other, i ≠ j → taken (log ++ events) j other = taken log j other := by
    intro j other hne
    have hnil : firsts j events = [] := firsts_eq_nil fun group attempt hmem =>
      hne (hevents j group attempt hmem).1.symm
    rw [taken, firsts_append, hnil, List.append_nil, taken]
  -- the entries of this subscription and those of any other one
  have hdisjoint : ∀ j other, i ≠ j → s.subscriptions[j]? = some other →
      other.group = sub.group →
      ∀ e ∈ taken (log ++ events) i { sub with reader }, e ∉ taken log j other := by
    intro j other hne hother hgroup e he
    rcases hnew e he with hold | hfresh
    · exact h.disjoint i j sub other hsub hother hne hgroup.symm e hold
    · exact hfresh j other hother hgroup
  refine ⟨?_, ?_, ?_, ?_, ?_⟩
  · intro j other hother key
    rcases setReader_cases hother with ⟨hne, hother⟩ | ⟨rfl, old, hold, rfl⟩
    · rw [htaken j other hne]
      exact h.ordered j other hother key
    · obtain rfl := Option.some.inj (hsub.symm.trans hold)
      exact hordered key
  · intro j k first second hfirst hsecond hne hgroup e he
    rcases setReader_cases hfirst with ⟨hj, hfirst⟩ | ⟨rfl, old, hold, rfl⟩ <;>
      rcases setReader_cases hsecond with ⟨hk, hsecond⟩ | ⟨rfl, old', hold', rfl⟩
    · rw [htaken j first hj] at he
      rw [htaken k second hk]
      exact h.disjoint j k first second hfirst hsecond hne hgroup e he
    · obtain rfl := Option.some.inj (hsub.symm.trans hold')
      rw [htaken j first hj] at he
      exact fun hmem => hdisjoint j first hj hfirst hgroup e hmem he
    · obtain rfl := Option.some.inj (hsub.symm.trans hold)
      rw [htaken k second hk]
      exact hdisjoint k second hk hsecond hgroup.symm e he
    · exact absurd rfl hne
  · intro j other hother
    rcases setReader_cases hother with ⟨hne, hother⟩ | ⟨rfl, old, hold, rfl⟩
    · exact (h.backed j other hother).append events
    · obtain rfl := Option.some.inj (hsub.symm.trans hold)
      exact hbacked
  · intro j group attempt hmem
    have hold : ∃ other, s.subscriptions[j]? = some other ∧ other.group = group := by
      rcases List.mem_append.mp hmem with hmem | hmem
      · exact h.handed j group attempt hmem
      · obtain ⟨rfl, rfl⟩ := hevents j group attempt hmem
        exact ⟨sub, hsub, rfl⟩
    obtain ⟨other, hother, hgroup⟩ := hold
    show ∃ other, (s.setReader i reader).subscriptions[j]? = some other ∧ _
    rw [getElem?_setReader, hother]
    split
    · exact ⟨_, rfl, hgroup⟩
    · exact ⟨_, rfl, hgroup⟩
  · intro call hcall
    rcases hcalls call hcall with hold | ⟨group, hhanded⟩
    · obtain ⟨group, hhanded⟩ := h.called call hold
      exact ⟨group, List.mem_append_left _ hhanded⟩
    · exact ⟨group, List.mem_append_right _ hhanded⟩

theorem Served.nodup_readEntries (h : Served server log) (key group : String) :
    (readEntries server key group).Nodup := by
  unfold readEntries
  cases server.groups (key, group) with
  | none => exact List.nodup_nil
  | some g => exact (h.nodup_streams key).sublist (List.take_sublist _ _)

/-- What a group reads no subscription of it has, or will have, handed over. -/
theorem Reads.notMem_taken (h : Reads s.server server group entries) (hserved : Served server events)
    (hs : Subscribed s log) (hentry : entry ∈ entries) (hsub : s.subscriptions[j]? = some sub)
    (hgroup : sub.group = group) : entry ∉ taken log j sub := by
  intro hmem
  have hold : entry ∈ readEntries s.server entry.key group := hgroup ▸ mem_of_mem_taken hs hsub hmem
  have hnodup := hserved.nodup_readEntries entry.key group
  rw [h.appended] at hnodup
  exact List.disjoint_of_nodup_append hnodup hold (mem_ofKey.mpr ⟨hentry, rfl⟩)

theorem advance_of_some {callback : Option Bool} (h : s.advance i callback k = some t) :
    ∃ sub reader, s.subscriptions[i]? = some sub ∧
      sub.reader.internal sub.streamKeys (fun _ => callback) k = some reader ∧
      t = s.setReader i reader := by
  obtain ⟨sub, hsub, h⟩ := Option.bind_eq_some_iff.mp h
  obtain ⟨reader, hreader, rfl⟩ := Option.map_eq_some_iff.mp h
  exact ⟨sub, reader, hsub, hreader, rfl⟩

/-- A step of a loop after which it owes at most what it owed, and the reply. -/
theorem Subscribed.advance {callback : Option Bool} (h : Subscribed s log)
    (hsub : s.subscriptions[i]? = some sub) (hadvance : s.advance i callback k = some t)
    (hk : Promised sub.group log sub.reader.loop k)
    (hordered : ∀ key, (ofKey key (taken log i sub ++ received k)).Sublist
      (readEntries s.server key sub.group))
    (hfresh : ∀ e ∈ received k, ∀ j other, s.subscriptions[j]? = some other →
      other.group = sub.group → e ∉ taken log j other) :
    Subscribed t log := by
  obtain ⟨old, reader, hold, hreader, rfl⟩ := advance_of_some hadvance
  obtain rfl := Option.some.inj (hsub.symm.trans hold)
  obtain ⟨hbacked, hsublist⟩ := handsOver_internal (h.backed i sub hsub) hk hreader
  have hmore : (taken log i { sub with reader }).Sublist (taken log i sub ++ received k) := by
    rw [taken, taken, List.append_assoc]
    exact (List.Sublist.refl _).append hsublist
  rw [← List.append_nil log]
  apply h.setReader hsub
  · rwa [List.append_nil]
  · rw [List.append_nil]
    exact fun key => (hmore.filter _).trans (hordered key)
  · rw [List.append_nil]
    intro e he
    rcases List.mem_append.mp (hmore.subset he) with hold | hnew
    · exact .inl hold
    · exact .inr (hfresh e hnew)
  · simp
  · exact fun call hcall => .inl hcall

/-- The invariant of the machine. -/
structure Invariant (s : State) (log : List Event) : Prop where
  served : Served s.server log
  subscribed : Subscribed s log

/-- The step of a loop that gets no new entries. -/
theorem Invariant.advance {callback : Option Bool} (h : Invariant s log)
    (hadvance : s.advance i callback k = some t) (hquiet : received k = [])
    (hk : ∀ sub, s.subscriptions[i]? = some sub → Promised sub.group log sub.reader.loop k) :
    Invariant t log := by
  obtain ⟨sub, reader, hsub, -, ht⟩ := advance_of_some hadvance
  refine ⟨by rw [ht]; exact h.served, h.subscribed.advance hsub hadvance (hk sub hsub) ?_ ?_⟩
  · rw [hquiet, List.append_nil]
    exact h.subscribed.ordered i sub hsub
  · simp [hquiet]

/-- What XPENDING counts are the deliveries. -/
theorem Served.promised_counts (h : Served server log) {pendingAll : List (String × ℕ)}
    {loop : Loop} (hcounts : server.Counts group (uncounted loop) pendingAll) :
    Promised group log loop (.pendingReply pendingAll) := by
  intro e he n hn
  have hmem : (e.entryId, n) ∈ pendingAll := JsMap.mem_of_lookup hn
  obtain ⟨g, hg, hheld⟩ := hcounts _ hmem e he rfl
  have hcount := ((h.ledger hg).counted _ hheld).1
  rwa [count_ofKey] at hcount

/-- Commands keep the accounts, and what the loop gets is promised by them. -/
theorem Served.serve {v : Server} {command : Command} (h : Served server log)
    (hserve : server.serve sub command = some (v, entries, k)) :
    Served v (log ++ deliveredEvents sub.group entries) ∧
      (∃ new, Reads server v sub.group new ∧ (received k = new ∨ received k = [])) ∧
      Promised sub.group (log ++ deliveredEvents sub.group entries) sub.reader.loop k := by
  cases command with
  | read answered =>
    rcases hread : server.readGroup sub.group sub.count sub.streamKeys with ⟨w, new⟩
    simp only [Server.serve, hread, Option.some.injEq, Prod.mk.injEq] at hserve
    obtain ⟨rfl, rfl, rfl⟩ := hserve
    obtain ⟨hserved, hreads⟩ := h.readGroup hread
    refine ⟨hserved, ⟨new, hreads, ?_⟩, ?_⟩
    · cases answered with
      | true => exact .inl rfl
      | false => exact .inr rfl
    · cases answered with
      | true =>
        intro e he
        rw [deliveries_append, deliveries_delivered, if_pos rfl]
        exact List.mem_append_right _ he
      | false => trivial
  | readFails | claimFails =>
    obtain ⟨rfl, rfl, rfl⟩ : server = v ∧ [] = entries ∧ _ = k := by
      simpa [Server.serve] using hserve
    exact ⟨by simpa using h, ⟨[], .refl server sub.group, .inr rfl⟩, trivial⟩
  | claim idle answered =>
    simp only [Server.serve] at hserve
    split at hserve
    next key keys hloop =>
      rcases hclaim : server.claimKey sub.group sub.count idle key with ⟨w, claimed⟩
      simp only [hclaim, Option.some.injEq, Prod.mk.injEq] at hserve
      obtain ⟨rfl, rfl, rfl⟩ := hserve
      obtain ⟨hserved, hreads, htwo⟩ := h.claimKey hclaim
      refine ⟨hserved, ⟨[], hreads, .inr ?_⟩, ?_⟩
      · cases answered with
        | true => rfl
        | false => rfl
      · cases answered with
        | true => exact htwo
        | false => trivial
    next => cases hserve
  | counts pendingAll =>
    simp only [Server.serve] at hserve
    split at hserve
    next counted keys hloop =>
      split at hserve
      next hcounts =>
        obtain ⟨rfl, rfl, rfl⟩ : server = v ∧ [] = entries ∧ _ = k := by simpa using hserve
        rw [deliveredEvents_nil, List.append_nil]
        refine ⟨h, ⟨[], .refl server sub.group, .inr rfl⟩, h.promised_counts ?_⟩
        rwa [hloop]
      next => cases hserve
    next => cases hserve

/-- The server executes a command, and the loop goes on with what it gets. -/
theorem Invariant.command {command : Command} (h : Invariant s log)
    (hsub : s.subscriptions[i]? = some sub)
    (hserve : s.server.serve sub command = some (server, entries, k)) {callback : Option Bool}
    (hadvance : State.advance { s with server } i callback k = some t) :
    Invariant t (log ++ deliveredEvents sub.group entries) := by
  obtain ⟨hserved, ⟨new, hreads, hreceived⟩, hk⟩ := h.served.serve hserve
  have hsubscribed : Subscribed { s with server } (log ++ deliveredEvents sub.group entries) :=
    h.subscribed.grow rfl rfl hreads.sublist
      fun i other attempt => handed_notMem_delivered i sub.group other attempt entries
  have htaken : ∀ j other, taken (log ++ deliveredEvents sub.group entries) j other =
      taken log j other := by
    intro j other
    rw [taken, firsts_append, firsts_delivered, List.append_nil, taken]
  obtain ⟨-, reader, -, -, ht⟩ := advance_of_some hadvance
  refine ⟨by rw [ht]; exact hserved, hsubscribed.advance hsub hadvance hk ?_ ?_⟩
  · intro key
    have hordered := h.subscribed.ordered i sub hsub key
    rw [htaken, hreads.appended, ofKey_append]
    rcases hreceived with heq | heq
    · rw [heq]
      exact hordered.append (.refl _)
    · rw [heq, ofKey_nil, List.append_nil]
      exact hordered.trans (List.sublist_append_left _ _)
  · intro e he j other hother hgroup
    rw [htaken]
    rcases hreceived with heq | heq
    · exact hreads.notMem_taken hserved h.subscribed (heq ▸ he) hother hgroup
    · rw [heq] at he
      cases he

theorem Subscribed.subscribe (h : Subscribed s log) (hidle : Idle sub.reader.loop) :
    Subscribed { s with subscriptions := s.subscriptions ++ [sub] } log := by
  have hcases : ∀ (j : ℕ) other, (s.subscriptions ++ [sub])[j]? = some other →
      s.subscriptions[j]? = some other ∨ s.subscriptions[j]? = none ∧ other = sub := by
    intro j other hother
    rcases Nat.lt_or_ge j s.subscriptions.length with hlt | hge
    · rw [List.getElem?_append_left hlt] at hother
      exact .inl hother
    · rw [List.getElem?_append_right hge] at hother
      have hsub : other ∈ [sub] := List.mem_of_getElem? hother
      exact .inr ⟨List.getElem?_eq_none hge, List.mem_singleton.mp hsub⟩
  -- nothing has been handed over by the new subscription
  have hnil : ∀ j, s.subscriptions[j]? = none → taken log j sub = [] := by
    intro j hj
    have hfirsts : firsts j log = [] := by
      apply firsts_eq_nil
      intro group attempt hmem
      obtain ⟨other, hother, -⟩ := h.handed j group attempt hmem
      rw [hj] at hother
      cases hother
    rw [taken, hfirsts, hidle.owed, List.append_nil]
  refine ⟨?_, ?_, ?_, ?_, h.called⟩
  · intro j other hother key
    rcases hcases j other hother with hold | ⟨hnone, rfl⟩
    · exact h.ordered j other hold key
    · rw [hnil j hnone]
      exact List.nil_sublist _
  · intro j k first second hfirst hsecond hne hgroup e he
    rcases hcases j first hfirst with hj | ⟨hj, rfl⟩
    · rcases hcases k second hsecond with hk | ⟨hk, rfl⟩
      · exact h.disjoint j k first second hj hk hne hgroup e he
      · rw [hnil k hk]
        exact List.not_mem_nil
    · rw [hnil j hj] at he
      cases he
  · intro j other hother
    rcases hcases j other hother with hold | ⟨-, rfl⟩
    · exact h.backed j other hold
    · exact hidle.backed
  · intro j group attempt hmem
    obtain ⟨other, hother, hgroup⟩ := h.handed j group attempt hmem
    have hlt : j < s.subscriptions.length := (List.getElem?_eq_some_iff.mp hother).1
    exact ⟨other, List.getElem?_append_left hlt ▸ hother, hgroup⟩

theorem Invariant.hand {env : ℕ → Environment} {d : ℕ} {event : RawEvent} (h : Invariant s log)
    (hsub : s.subscriptions[i]? = some sub) (hnext : next? sub.reader.loop = some attempt)
    (hreader : sub.reader.accept env d event = some reader) :
    Invariant { s.setReader i reader with calls := s.calls ++ [(i, attempt)] }
      (log ++ [.handed i sub.group attempt]) := by
  have hold := h.subscribed.backed i sub hsub
  obtain ⟨hbacked, hattempt⟩ := handsOver_accept hold hnext hreader
  have htaken : taken (log ++ [.handed i sub.group attempt]) i { sub with reader } =
      taken log i sub := by
    rw [taken, taken, firsts_append]
    rcases hattempt with ⟨hone, howed⟩ | ⟨hagain, howed⟩
    · rw [howed]
      simp [firsts, hone]
    · have htwo := (hold.owedAgain attempt hagain).1
      have hne : attempt.2 ≠ 1 := by omega
      rw [howed]
      simp [firsts, hne]
  have hexplained : Explained log (.handed i sub.group attempt) := by
    rcases hattempt with ⟨hone, howed⟩ | ⟨hagain, -⟩
    · have hmem : attempt.1 ∈ deliveries sub.group log := by
        apply hold.owed
        rw [howed]
        exact List.mem_cons_self
      have hpos : 1 ≤ (deliveries sub.group log).count attempt.1 := List.count_pos_iff.mpr hmem
      exact ⟨by omega, by omega⟩
    · obtain ⟨htwo, hle⟩ := hold.owedAgain attempt hagain
      exact ⟨by omega, hle⟩
  constructor
  · refine ⟨h.served.nodup, h.served.keyed, ?_, ?_⟩
    case refine_2 => exact justified_concat.mpr ⟨h.served.explained, hexplained⟩
    intro key group
    rw [deliveries_append, acknowledged_append, deliveries_handed, acknowledged_handed,
      List.append_nil, List.append_nil]
    exact h.served.accounts key group
  · apply h.subscribed.setReader hsub (hbacked.append _)
    · rw [htaken]
      exact h.subscribed.ordered i sub hsub
    · rw [htaken]
      exact fun e he => .inl he
    · intro j group other hmem
      cases List.mem_singleton.mp hmem
      exact ⟨rfl, rfl⟩
    · intro call hcall
      rcases List.mem_append.mp hcall with hcall | hcall
      · exact .inl hcall
      · cases List.mem_singleton.mp hcall
        exact .inr ⟨sub.group, List.mem_singleton_self _⟩

theorem Invariant.ack {d : ℕ} (h : Invariant s log) (hack : s.ack d = some (t, events)) :
    Invariant t (log ++ events) := by
  obtain ⟨⟨i, entry, n⟩, hcall, hack⟩ := Option.bind_eq_some_iff.mp hack
  obtain ⟨sub, hsub, hack⟩ := Option.bind_eq_some_iff.mp hack
  split at hack
  next =>
    obtain ⟨group, hhanded⟩ := h.subscribed.called _ (List.mem_of_getElem? hcall)
    obtain ⟨other, hother, rfl⟩ := h.subscribed.handed i group _ hhanded
    obtain rfl := Option.some.inj (hsub.symm.trans hother)
    rcases hserver : s.server.xack sub.group entry with ⟨server, acks⟩
    simp only [hserver, Option.some.injEq, Prod.mk.injEq] at hack
    obtain ⟨rfl, rfl⟩ := hack
    obtain ⟨hserved, hreads, rfl⟩ := h.served.xack hhanded hserver
    exact ⟨hserved, h.subscribed.grow rfl rfl hreads.sublist (by simp)⟩
  next => cases hack

/-- A loop that loses its connection, or its process. -/
theorem Invariant.setReader (h : Invariant s log) (hsub : s.subscriptions[i]? = some sub)
    (hreader : reader.loop = sub.reader.loop ∨ Idle reader.loop) :
    Invariant (s.setReader i reader) log := by
  have hsublist : (owed reader.loop).Sublist (owed sub.reader.loop) := by
    rcases hreader with heq | hidle
    · rw [heq]
    · rw [hidle.owed]
      exact List.nil_sublist _
  have hbacked : Backed sub.group log reader.loop := by
    rcases hreader with heq | hidle
    · rw [heq]
      exact h.subscribed.backed i sub hsub
    · exact hidle.backed
  have hless : (taken log i { sub with reader }).Sublist (taken log i sub) :=
    (List.Sublist.refl _).append hsublist
  refine ⟨h.served, ?_⟩
  rw [← List.append_nil log]
  apply h.subscribed.setReader hsub
  · rwa [List.append_nil]
  · rw [List.append_nil]
    exact fun key => (hless.filter _).trans (h.subscribed.ordered i sub hsub key)
  · rw [List.append_nil]
    exact fun e he => .inl (hless.subset he)
  · simp
  · exact fun call hcall => .inl hcall

variable {env : ℕ → Environment} {action : Action}

theorem invariant_step (h : Invariant s log) (hstep : step env s action = some (t, events)) :
    Invariant t (log ++ events) := by
  cases action with
  | publish entry =>
    obtain ⟨server, hpublish, hv⟩ := Option.map_eq_some_iff.mp hstep
    cases hv
    obtain ⟨hserved, hread⟩ := h.served.publish hpublish
    constructor
    · rwa [List.append_nil]
    · exact h.subscribed.grow rfl rfl (fun key group => hread key group ▸ .refl _) (by simp)
  | createGroup key group =>
    cases hstep
    obtain ⟨hserved, hread⟩ := h.served.createGroup key group
    constructor
    · rwa [List.append_nil]
    · exact h.subscribed.grow rfl rfl hread (by simp)
  | subscribe group patterns count =>
    simp only [step] at hstep
    split at hstep
    next =>
      cases hstep
      rw [List.append_nil]
      exact ⟨h.served, h.subscribed.subscribe (idle_loopHead _ _)⟩
    next => cases hstep
  | command i command =>
    obtain ⟨sub, hsub, hstep⟩ := Option.bind_eq_some_iff.mp hstep
    obtain ⟨⟨server, entries, k⟩, hserve, hstep⟩ := Option.bind_eq_some_iff.mp hstep
    obtain ⟨v, hadvance, hv⟩ := Option.map_eq_some_iff.mp hstep
    cases hv
    exact h.command hsub hserve hadvance
  | hand i =>
    obtain ⟨sub, hsub, hstep⟩ := Option.bind_eq_some_iff.mp hstep
    obtain ⟨attempt, hnext, hstep⟩ := Option.bind_eq_some_iff.mp hstep
    obtain ⟨reader, hreader, hv⟩ := Option.map_eq_some_iff.mp hstep
    cases hv
    exact h.hand hsub hnext hreader
  | returned i ok | stopReclaim i | slept i =>
    obtain ⟨v, hadvance, hv⟩ := Option.map_eq_some_iff.mp hstep
    cases hv
    rw [List.append_nil]
    exact h.advance hadvance rfl fun _ _ => trivial
  | ack d => exact h.ack hstep
  | nack d requeue =>
    simp only [step] at hstep
    split at hstep
    next => exact h.ack hstep
    next =>
      cases hstep
      rwa [List.append_nil]
  | unsubscribe i =>
    obtain ⟨sub, hsub, hv⟩ := Option.map_eq_some_iff.mp hstep
    cases hv
    rw [List.append_nil]
    exact h.setReader hsub (.inl rfl)
  | crash i =>
    obtain ⟨sub, hsub, hv⟩ := Option.map_eq_some_iff.mp hstep
    cases hv
    rw [List.append_nil]
    exact h.setReader hsub (.inr ⟨rfl, rfl, rfl⟩)

theorem invariant_initial : Invariant {} [] where
  served := ⟨fun _ => List.nodup_nil, by simp, fun _ _ => ⟨rfl, rfl⟩, justified_nil⟩
  subscribed := ⟨by simp, by simp, by simp, by simp, by simp⟩

/-- What the groups and their subscriptions have delivered. An entry that was added to the stream
after the group is unread, pending with the number of its deliveries, or acknowledged; new entries
are handed over once, by one subscription of the group, which keeps their order. -/
structure Delivered (s : State) (log : List Event) : Prop where
  explained : Justified Explained log
  kept : ∀ key group g, s.server.groups (key, group) = some g →
    ∀ entry ∈ (s.server.streams key).drop g.start,
      entry ∈ (s.server.streams key).drop g.leases.position ∧ entry ∉ deliveries group log ∨
        (entry, (deliveries group log).count entry) ∈ g.leases.held ∨
          entry ∈ acknowledged group log
  inOrder : ∀ i key, (ofKey key (firsts i log)).Sublist (s.server.streams key)
  nodup : ∀ i, (firsts i log).Nodup
  unique : ∀ i j group entry, .handed i group (entry, 1) ∈ log →
    .handed j group (entry, 1) ∈ log → i = j

theorem readEntries_sublist (s : Server) (key group : String) :
    (readEntries s key group).Sublist (s.streams key) := by
  unfold readEntries
  split
  · exact List.nil_sublist _
  · exact List.take_sublist _ _

theorem Served.kept (h : Served server log) (hg : server.groups (key, group) = some g)
    (hentry : entry ∈ (server.streams key).drop g.start) :
    entry ∈ (server.streams key).drop g.leases.position ∧ entry ∉ deliveries group log ∨
      (entry, (deliveries group log).count entry) ∈ g.leases.held ∨
        entry ∈ acknowledged group log := by
  have hledger := h.ledger hg
  have hkey : entry.key = key := h.keyed key entry (List.mem_of_mem_drop hentry)
  have hdrop : (server.streams key).drop g.start =
      ((server.streams key).take g.leases.position).drop g.start ++
        (server.streams key).drop g.leases.position := by
    have hlength : g.start ≤ ((server.streams key).take g.leases.position).length := by
      have hstart := hledger.start_le
      have hposition := hledger.le_length
      rw [List.length_take]
      omega
    rw [← List.drop_append_of_le_length hlength, List.take_append_drop]
  rw [hdrop] at hentry
  rcases List.mem_append.mp hentry with hread | hunread
  · rcases hledger.kept entry hread with hheld | hreleased
    · obtain ⟨e, he, rfl⟩ := List.mem_map.mp hheld
      subst hkey
      have hcount := (hledger.counted e he).1
      rw [count_ofKey] at hcount
      rw [← hcount]
      exact .inr (.inl he)
    · exact .inr (.inr (mem_ofKey.mp hreleased).1)
  · refine .inl ⟨hunread, fun hmem => ?_⟩
    have hold := hledger.outs_subset entry (mem_ofKey.mpr ⟨hmem, hkey⟩)
    exact List.disjoint_take_drop (h.nodup_streams key) (Nat.le_refl _) hold hunread

theorem mem_firsts (h : .handed i group (entry, 1) ∈ log) : entry ∈ firsts i log :=
  List.mem_filterMap.mpr ⟨_, h, if_pos ⟨rfl, rfl⟩⟩

theorem Subscribed.firsts_sublist (h : Subscribed s log) (i : ℕ) (key : String) :
    (ofKey key (firsts i log)).Sublist (s.server.streams key) := by
  cases hsub : s.subscriptions[i]? with
  | none =>
    have hnil : firsts i log = [] := by
      apply firsts_eq_nil
      intro group attempt hmem
      obtain ⟨sub, hsome, -⟩ := h.handed i group attempt hmem
      rw [hsub] at hsome
      cases hsome
    rw [hnil]
    exact List.nil_sublist _
  | some sub =>
    have htaken := (h.ordered i sub hsub key).trans (readEntries_sublist s.server key sub.group)
    rw [taken, ofKey_append] at htaken
    exact (List.sublist_append_left _ _).trans htaken

/-- However publishers, the subscriptions of several processes, their handlers, lost replies and
crashes interleave. -/
theorem groups_deliver {actions : List Action}
    (hrun : run (step env) {} actions = some (s, log)) : Delivered s log := by
  have hinv : Invariant s log :=
    run_invariant (fun _ _ _ _ _ h hstep => invariant_step h hstep) invariant_initial hrun
  obtain ⟨hserved, hsubscribed⟩ := hinv
  refine ⟨hserved.explained, ?_, hsubscribed.firsts_sublist, ?_, ?_⟩
  · exact fun key group g hg entry hentry => hserved.kept hg hentry
  · intro i
    apply List.nodup_iff_count_le_one.mpr
    intro entry
    have hone := (hserved.nodup_streams entry.key).sublist (hsubscribed.firsts_sublist i entry.key)
    rw [← count_ofKey]
    exact List.nodup_iff_count_le_one.mp hone entry
  · intro i j group entry hi hj
    by_contra hne
    obtain ⟨sub, hsub, hgroup⟩ := hsubscribed.handed i group (entry, 1) hi
    obtain ⟨other, hother, hgroup'⟩ := hsubscribed.handed j group (entry, 1) hj
    exact hsubscribed.disjoint i j sub other hsub hother hne (hgroup.trans hgroup'.symm) entry
      (List.mem_append_left _ (mem_firsts hi)) (List.mem_append_left _ (mem_firsts hj))

def laterEntry : Entry :=
  ⟨"events:user.created", "2-0", ["eventId", "evt-2", "eventType", "user.created"]⟩

/-- The first of two workers crashes in its handler, and the other one claims what it had read. -/
def crashActions : List Action :=
  [.createGroup userEntry.key "workers", .publish userEntry, .publish laterEntry,
    .subscribe "workers" ["user.created"] 10, .subscribe "workers" ["user.created"] 10,
    .command 0 (.read true), .hand 0, .crash 0, .command 1 (.read true), .command 1 (.read true),
    .command 1 (.read true), .command 1 (.read true), .command 1 (.claim (fun _ => true) true),
    .command 1 (.counts [("1-0", 2)]), .hand 1, .ack 1, .returned 1 true, .hand 1, .nack 2 none]

theorem groups_deliver_crash : ∃ s log,
    run (step fixedEnvironment) {} crashActions = some (s, log) ∧
    firsts 0 log = [userEntry] ∧ firsts 1 log = [] ∧
    deliveries "workers" log = [userEntry, laterEntry, userEntry, laterEntry] ∧
    acknowledged "workers" log = [userEntry] ∧ Delivered s log := by
  have hvalues : (run (step fixedEnvironment) {} crashActions).map (fun p => (firsts 0 p.2,
      firsts 1 p.2, deliveries "workers" p.2, acknowledged "workers" p.2)) =
      some ([userEntry], [], [userEntry, laterEntry, userEntry, laterEntry], [userEntry]) := by
    decide +kernel
  obtain ⟨⟨s, log⟩, hrun, heq⟩ := Option.map_eq_some_iff.mp hvalues
  obtain ⟨hfirst, hsecond, hdeliveries, hacknowledged⟩ : _ ∧ _ ∧ _ ∧ _ := by
    simpa only [Prod.mk.injEq] using heq
  exact ⟨s, log, hrun, hfirst, hsecond, hdeliveries, hacknowledged, groups_deliver hrun⟩

end Connectum.Events.Redis.Groups
