import Connectum.Events.Redis.ConsumerGroup

/-! The accounts that the consumer groups of a server keep of what they deliver. -/
namespace Connectum.Events.Redis.Groups
open Machine Leases

/-- The entries that a group has delivered, with repetitions. -/
def deliveries (group : String) (log : List Event) : List Entry :=
  log.filterMap fun
  | .server (.delivered g entry) => if g = group then some entry else none
  | _ => none

def acknowledged (group : String) (log : List Event) : List Entry :=
  log.filterMap fun
  | .server (.acked g entry) => if g = group then some entry else none
  | _ => none

/-- The entries that a subscription has handed over as first attempts. -/
def firsts (i : ℕ) (log : List Event) : List Entry :=
  log.filterMap fun
  | .handed j _ attempt => if j = i ∧ attempt.2 = 1 then some attempt.1 else none
  | _ => none

def ofKey (key : String) (entries : List Entry) : List Entry :=
  entries.filter fun entry => decide (entry.key = key)

/-- An entry is delivered until it is acknowledged, handed over as at most the attempt that its
deliveries make it, and acknowledged only after that. -/
def Explained (log : List Event) : Event → Prop
  | .server (.delivered group entry) => entry ∉ acknowledged group log
  | .handed _ group attempt =>
    1 ≤ attempt.2 ∧ attempt.2 ≤ (deliveries group log).count attempt.1
  | .server (.acked group entry) => ∃ i n, .handed i group (entry, n) ∈ log

variable {s t u : Server} {log events : List Event} {key group : String} {entry : Entry}
  {entries rest : List Entry} {count i : ℕ} {attempt : Attempt} {g : Group}

@[simp] theorem deliveries_append (group : String) (log events : List Event) :
    deliveries group (log ++ events) = deliveries group log ++ deliveries group events :=
  List.filterMap_append

@[simp] theorem acknowledged_append (group : String) (log events : List Event) :
    acknowledged group (log ++ events) = acknowledged group log ++ acknowledged group events :=
  List.filterMap_append

@[simp] theorem firsts_append (i : ℕ) (log events : List Event) :
    firsts i (log ++ events) = firsts i log ++ firsts i events :=
  List.filterMap_append

@[simp] theorem ofKey_append (key : String) (entries rest : List Entry) :
    ofKey key (entries ++ rest) = ofKey key entries ++ ofKey key rest :=
  List.filter_append _ _

@[simp] theorem ofKey_nil (key : String) : ofKey key [] = [] := rfl

@[simp] theorem deliveries_nil (group : String) : deliveries group [] = [] := rfl

@[simp] theorem acknowledged_nil (group : String) : acknowledged group [] = [] := rfl

@[simp] theorem deliveries_handed (group other : String) (i : ℕ) (attempt : Attempt) :
    deliveries group [.handed i other attempt] = [] := rfl

@[simp] theorem acknowledged_handed (group other : String) (i : ℕ) (attempt : Attempt) :
    acknowledged group [.handed i other attempt] = [] := rfl

@[simp] theorem firsts_nil (i : ℕ) : firsts i [] = [] := rfl

@[simp] theorem deliveredEvents_nil (group : String) : deliveredEvents group [] = [] := rfl

@[simp] theorem deliveredEvents_append (group : String) (entries rest : List Entry) :
    deliveredEvents group (entries ++ rest) =
      deliveredEvents group entries ++ deliveredEvents group rest :=
  List.map_append

theorem deliveredEvents_cons (group : String) (entry : Entry) (entries : List Entry) :
    deliveredEvents group (entry :: entries) =
      [.server (.delivered group entry)] ++ deliveredEvents group entries := rfl

theorem mem_ofKey : entry ∈ ofKey key entries ↔ entry ∈ entries ∧ entry.key = key := by
  simp [ofKey]

theorem count_ofKey (entries : List Entry) (entry : Entry) :
    (ofKey entry.key entries).count entry = entries.count entry :=
  List.count_filter (by simp)

theorem ofKey_of_keyed (hkeyed : ∀ e ∈ entries, e.key = key) (other : String) :
    ofKey other entries = if other = key then entries else [] := by
  unfold ofKey
  split
  next heq =>
    apply List.filter_eq_self.mpr
    intro e he
    simp [hkeyed e he, heq]
  next hne =>
    apply List.filter_eq_nil_iff.mpr
    intro e he
    simp [hkeyed e he, Ne.symm hne]

@[simp] theorem deliveries_delivered (group other : String) (entries : List Entry) :
    deliveries other (deliveredEvents group entries) = if other = group then entries else [] := by
  induction entries with
  | nil => simp
  | cons e entries ih =>
    rw [deliveredEvents_cons, deliveries_append, ih]
    by_cases h : group = other
    · simp [deliveries, h]
    · simp [deliveries, h, Ne.symm h]

@[simp] theorem acknowledged_delivered (group other : String) (entries : List Entry) :
    acknowledged other (deliveredEvents group entries) = [] := by
  induction entries with
  | nil => rfl
  | cons e entries ih => exact ih

@[simp] theorem firsts_delivered (group : String) (i : ℕ) (entries : List Entry) :
    firsts i (deliveredEvents group entries) = [] := by
  induction entries with
  | nil => rfl
  | cons e entries ih => exact ih

theorem justified_delivered (h : Justified Explained log)
    (hentries : ∀ e ∈ entries, e ∉ acknowledged group log) :
    Justified Explained (log ++ deliveredEvents group entries) := by
  induction entries generalizing log with
  | nil => simpa using h
  | cons e entries ih =>
    obtain ⟨he, hentries⟩ := List.forall_mem_cons.mp hentries
    have hfirst : Justified Explained (log ++ [.server (.delivered group e)]) :=
      justified_concat.mpr ⟨h, he⟩
    have hrest := ih hfirst fun e' he' => by simpa [acknowledged] using hentries e' he'
    simpa [deliveredEvents_cons] using hrest

/-- What has been handed over has been delivered. -/
theorem mem_deliveries_of_handed (h : Justified Explained log)
    (hmem : .handed i group attempt ∈ log) : attempt.1 ∈ deliveries group log := by
  obtain ⟨before, after, rfl⟩ := List.append_of_mem hmem
  obtain ⟨hpos, hle⟩ := h before _ after rfl
  rw [deliveries_append]
  exact List.mem_append_left _ (List.count_pos_iff.mp (by omega))

/-- The entries of a stream that a group has read. -/
def readEntries (s : Server) (key group : String) : List Entry :=
  match s.groups (key, group) with
  | none => []
  | some g => (s.streams key).take g.leases.position

def Accounts (items : List Entry) (outs released : List Entry) : Option Group → Prop
  | none => outs = [] ∧ released = []
  | some g => Ledger items g.start g.leases outs released

/-- What holds of the server and of the events so far. -/
structure Served (s : Server) (log : List Event) : Prop where
  nodup : ∀ key, ((s.streams key).map Entry.entryId).Nodup
  keyed : ∀ key, ∀ e ∈ s.streams key, e.key = key
  accounts : ∀ key group, Accounts (s.streams key) (ofKey key (deliveries group log))
    (ofKey key (acknowledged group log)) (s.groups (key, group))
  explained : Justified Explained log

theorem Served.ledger (h : Served s log) (hg : s.groups (key, group) = some g) :
    Ledger (s.streams key) g.start g.leases (ofKey key (deliveries group log))
      (ofKey key (acknowledged group log)) := by
  have haccounts := h.accounts key group
  rwa [hg] at haccounts

theorem Served.mem_readEntries (h : Served s log) (hentry : entry ∈ deliveries group log) :
    entry ∈ readEntries s entry.key group := by
  have hmem : entry ∈ ofKey entry.key (deliveries group log) := mem_ofKey.mpr ⟨hentry, rfl⟩
  have haccounts := h.accounts entry.key group
  unfold readEntries
  cases hg : s.groups (entry.key, group) with
  | none =>
    rw [hg] at haccounts
    rw [haccounts.1] at hmem
    cases hmem
  | some g => exact (h.ledger hg).outs_subset entry hmem

theorem Served.acknowledged_subset (h : Served s log) (hentry : entry ∈ acknowledged group log) :
    entry ∈ deliveries group log := by
  have hmem : entry ∈ ofKey entry.key (acknowledged group log) := mem_ofKey.mpr ⟨hentry, rfl⟩
  have haccounts := h.accounts entry.key group
  cases hg : s.groups (entry.key, group) with
  | none =>
    rw [hg] at haccounts
    rw [haccounts.2] at hmem
    cases hmem
  | some g => exact (mem_ofKey.mp ((h.ledger hg).released_subset entry hmem)).1

/-- A change of one group, with events of that group and of its stream. -/
theorem Served.setGroup (h : Served s log) {g : Group}
    (hothers : ∀ key' group', (key', group') ≠ (key, group) →
      ofKey key' (deliveries group' events) = [] ∧ ofKey key' (acknowledged group' events) = [])
    (hledger : Ledger (s.streams key) g.start g.leases
      (ofKey key (deliveries group (log ++ events)))
      (ofKey key (acknowledged group (log ++ events))))
    (hexplained : Justified Explained (log ++ events)) :
    Served (s.setGroup key group g) (log ++ events) := by
  refine ⟨h.nodup, h.keyed, ?_, hexplained⟩
  intro key' group'
  show Accounts (s.streams key') _ _ (Function.update s.groups (key, group) (some g) (key', group'))
  by_cases heq : (key', group') = (key, group)
  · obtain ⟨rfl, rfl⟩ := Prod.mk.inj heq
    rw [Function.update_self]
    exact hledger
  · obtain ⟨hdelivered, hacked⟩ := hothers key' group' heq
    rw [Function.update_of_ne heq, deliveries_append, acknowledged_append, ofKey_append,
      ofKey_append, hdelivered, hacked, List.append_nil, List.append_nil]
    exact h.accounts key' group'

/-- Events of deliveries of one stream to one group. -/
theorem delivered_others (hkeyed : ∀ e ∈ entries, e.key = key) {key' group' : String}
    (hne : (key', group') ≠ (key, group)) :
    ofKey key' (deliveries group' (deliveredEvents group entries)) = [] ∧
      ofKey key' (acknowledged group' (deliveredEvents group entries)) = [] := by
  rw [deliveries_delivered, acknowledged_delivered]
  refine ⟨?_, rfl⟩
  split
  next hgroup =>
    rw [ofKey_of_keyed hkeyed, if_neg]
    rintro rfl
    exact hne (by rw [hgroup])
  next => rfl

/-- What a command of the server leaves: the group reads `entries`, and no other group does. -/
structure Reads (s t : Server) (group : String) (entries : List Entry) : Prop where
  appended : ∀ key, readEntries t key group = readEntries s key group ++ ofKey key entries
  others : ∀ key other, other ≠ group → readEntries t key other = readEntries s key other

theorem Reads.refl (s : Server) (group : String) : Reads s s group [] where
  appended key := by simp
  others _ _ _ := rfl

theorem Reads.trans (h : Reads s t group entries) (h' : Reads t u group rest) :
    Reads s u group (entries ++ rest) where
  appended key := by rw [h'.appended, h.appended, ofKey_append, List.append_assoc]
  others key other hne := (h'.others key other hne).trans (h.others key other hne)

theorem Reads.setGroup {g : Group} (hkeyed : ∀ e ∈ entries, e.key = key)
    (hread : (s.streams key).take g.leases.position = readEntries s key group ++ entries) :
    Reads s (s.setGroup key group g) group entries := by
  constructor
  · intro key'
    rw [ofKey_of_keyed hkeyed]
    unfold readEntries
    show (match Function.update s.groups (key, group) (some g) (key', group) with
      | none => []
      | some g => (s.streams key').take g.leases.position) = _
    split_ifs with heq
    · rw [heq, Function.update_self]
      exact hread
    · rw [Function.update_of_ne (fun h => heq (Prod.mk.inj h).1), List.append_nil]
  · intro key' other hne
    unfold readEntries
    show (match Function.update s.groups (key, group) (some g) (key', other) with
      | none => []
      | some g => (s.streams key').take g.leases.position) = _
    rw [Function.update_of_ne (fun h => hne (Prod.mk.inj h).2)]

theorem readEntries_of_some (hg : s.groups (key, group) = some g) :
    readEntries s key group = (s.streams key).take g.leases.position := by
  simp only [readEntries, hg]

theorem Served.nodup_streams (h : Served s log) (key : String) : (s.streams key).Nodup :=
  (h.nodup key).of_map _

theorem Served.readKey (h : Served s log) (hread : s.readKey group count key = (t, entries)) :
    Served t (log ++ deliveredEvents group entries) ∧ Reads s t group entries := by
  unfold Server.readKey at hread
  split at hread
  next =>
    obtain ⟨rfl, rfl⟩ := Prod.mk.inj hread
    exact ⟨by simpa using h, .refl s group⟩
  next g hg =>
    obtain ⟨rfl, rfl⟩ := Prod.mk.inj hread
    generalize (if count = 0 then (s.streams key).length else count) = n
    have hkeyed : ∀ e ∈ g.leases.next (s.streams key) n, e.key = key := fun e he =>
      h.keyed key e (List.mem_of_mem_drop (List.mem_of_mem_take he))
    have hfresh : ∀ e ∈ g.leases.next (s.streams key) n, e ∉ acknowledged group log := by
      intro e he hacked
      have hold := h.mem_readEntries (h.acknowledged_subset hacked)
      rw [hkeyed e he, readEntries_of_some hg] at hold
      exact notMem_of_mem_next (h.nodup_streams key) he hold
    refine ⟨h.setGroup (fun _ _ => delivered_others hkeyed) ?_
      (justified_delivered h.explained hfresh), Reads.setGroup hkeyed ?_⟩
    · have hledger := (h.ledger hg).take (h.nodup_streams key) n
      simpa [ofKey_of_keyed hkeyed] using hledger
    · rw [readEntries_of_some hg]
      exact take_position_take

theorem Served.readGroup {streamKeys : List String} (h : Served s log)
    (hread : s.readGroup group count streamKeys = (t, entries)) :
    Served t (log ++ deliveredEvents group entries) ∧ Reads s t group entries := by
  induction streamKeys generalizing s log entries with
  | nil =>
    obtain ⟨rfl, rfl⟩ := Prod.mk.inj hread
    exact ⟨by simpa using h, .refl s group⟩
  | cons key streamKeys ih =>
    simp only [Server.readGroup] at hread
    rcases hkey : s.readKey group count key with ⟨v, first⟩
    rcases hrest : v.readGroup group count streamKeys with ⟨w, last⟩
    rw [hkey] at hread
    simp only [hrest, Prod.mk.injEq] at hread
    obtain ⟨rfl, rfl⟩ := hread
    obtain ⟨hserved, hreads⟩ := h.readKey hkey
    obtain ⟨hserved', hreads'⟩ := ih hserved hrest
    exact ⟨by simpa using hserved', hreads.trans hreads'⟩

/-- Claimed entries have been delivered before. -/
theorem Served.claimKey {idle : Entry → Bool} (h : Served s log)
    (hclaim : s.claimKey group count idle key = (t, entries)) :
    Served t (log ++ deliveredEvents group entries) ∧ Reads s t group [] ∧
      ∀ e ∈ entries, 2 ≤ (deliveries group (log ++ deliveredEvents group entries)).count e := by
  unfold Server.claimKey at hclaim
  split at hclaim
  next =>
    obtain ⟨rfl, rfl⟩ := Prod.mk.inj hclaim
    exact ⟨by simpa using h, .refl s group, by simp⟩
  next g hg =>
    obtain ⟨rfl, rfl⟩ := Prod.mk.inj hclaim
    have hheld : ∀ e ∈ g.leases.again idle count, e ∈ g.leases.held.map Prod.fst :=
      fun e he => again_subset he
    have hout : ∀ e ∈ g.leases.again idle count, e ∈ ofKey key (deliveries group log) :=
      fun e he => (h.ledger hg).held_subset (hheld e he)
    have hkeyed : ∀ e ∈ g.leases.again idle count, e.key = key := fun e he =>
      (mem_ofKey.mp (hout e he)).2
    have hpending : ∀ e ∈ g.leases.again idle count, e ∉ acknowledged group log := by
      intro e he hacked
      exact (h.ledger hg).gone e (mem_ofKey.mpr ⟨hacked, hkeyed e he⟩) (hheld e he)
    refine ⟨h.setGroup (fun _ _ => delivered_others hkeyed) ?_
      (justified_delivered h.explained hpending), Reads.setGroup (by simp) ?_, ?_⟩
    · have hledger := (h.ledger hg).renew ((h.ledger hg).nodup_again idle count) hheld
      simpa [ofKey_of_keyed hkeyed] using hledger
    · rw [readEntries_of_some hg, List.append_nil]
      rfl
    · intro e he
      have hold : 1 ≤ (deliveries group log).count e :=
        List.count_pos_iff.mpr (mem_ofKey.mp (hout e he)).1
      have hnew : 1 ≤ (g.leases.again idle count).count e := List.count_pos_iff.mpr he
      rw [deliveries_append, deliveries_delivered, if_pos rfl, List.count_append]
      omega

theorem Served.xack {acks : List GroupEvent} {n : ℕ} (h : Served s log)
    (hhanded : .handed i group (entry, n) ∈ log) (hack : s.xack group entry = (t, acks)) :
    Served t (log ++ acks.map .server) ∧ Reads s t group [] ∧ acks = [.acked group entry] := by
  have hmem : entry ∈ deliveries group log := mem_deliveries_of_handed h.explained hhanded
  have hread := h.mem_readEntries hmem
  unfold Server.xack at hack
  split at hack
  next hg => simp [readEntries, hg] at hread
  next g hg =>
    obtain ⟨rfl, rfl⟩ := Prod.mk.inj hack
    rw [readEntries_of_some hg] at hread
    have hid : ∀ b ∈ ofKey entry.key (deliveries group log),
        decide (b.entryId = entry.entryId) = true ↔ b = entry := by
      intro b hb
      have hb' := List.mem_of_mem_take ((h.ledger hg).outs_subset b hb)
      rw [decide_eq_true_iff]
      constructor
      · exact fun heq => List.inj_on_of_nodup_map (h.nodup entry.key) hb'
          (List.mem_of_mem_take hread) heq
      · exact fun heq => heq ▸ rfl
    have hacked : ∀ key' group', ofKey key' (acknowledged group' [.server (.acked group entry)]) =
        if (key', group') = (entry.key, group) then [entry] else [] := by
      intro key' group'
      by_cases hgroup : group = group' <;> by_cases hkey : entry.key = key' <;>
        simp [acknowledged, ofKey, hgroup, hkey, Ne.symm]
    rw [List.map_singleton]
    refine ⟨h.setGroup ?_ ?_ ?_, Reads.setGroup (by simp) ?_, rfl⟩
    · intro key' group' hne
      rw [hacked, if_neg hne]
      exact ⟨rfl, rfl⟩
    · have hledger := (h.ledger hg).release (mem_ofKey.mpr ⟨hmem, rfl⟩) hid
      rw [deliveries_append, acknowledged_append, ofKey_append, ofKey_append, hacked, if_pos rfl]
      simpa [deliveries] using hledger
    · exact justified_concat.mpr ⟨h.explained, i, n, hhanded⟩
    · rw [readEntries_of_some hg, List.append_nil]
      rfl

theorem Served.publish (h : Served s log) (hpublish : s.publish entry = some t) :
    Served t log ∧ ∀ key group, readEntries t key group = readEntries s key group := by
  unfold Server.publish at hpublish
  dsimp only at hpublish
  split at hpublish
  next => cases hpublish
  next hnew =>
    obtain rfl := Option.some.inj hpublish
    have hstream (key : String) :
        Function.update s.streams entry.key (s.streams entry.key ++ [entry]) key =
          if key = entry.key then s.streams key ++ [entry] else s.streams key := by
      split
      next heq => rw [heq, Function.update_self]
      next hne => rw [Function.update_of_ne hne]
    refine ⟨⟨?_, ?_, ?_, h.explained⟩, ?_⟩
    · intro key
      dsimp only
      rw [hstream]
      split
      next heq =>
        rw [List.map_append, List.map_singleton, ← List.concat_eq_append]
        exact (h.nodup key).concat (heq ▸ hnew)
      next => exact h.nodup key
    · intro key e he
      dsimp only at he
      rw [hstream] at he
      split at he
      next heq =>
        rcases List.mem_append.mp he with he | he
        · exact h.keyed key e he
        · rw [List.mem_singleton.mp he, heq]
      next => exact h.keyed key e he
    · intro key group
      have haccounts := h.accounts key group
      dsimp only
      rw [hstream]
      split
      next =>
        cases hg : s.groups (key, group) with
        | none => rwa [hg] at haccounts
        | some g => exact (h.ledger hg).push entry
      next => exact haccounts
    · intro key group
      unfold readEntries
      dsimp only
      rw [hstream]
      cases hg : s.groups (key, group) with
      | none => rfl
      | some g =>
        dsimp only
        split
        next => exact List.take_append_of_le_length (h.ledger hg).le_length
        next => rfl

theorem Served.createGroup (h : Served s log) (key group : String) :
    Served (s.createGroup key group) log ∧ ∀ key' other,
      (readEntries s key' other).Sublist (readEntries (s.createGroup key group) key' other) := by
  unfold Server.createGroup
  split
  next => exact ⟨h, fun _ _ => .refl _⟩
  next hnone =>
    have haccounts := h.accounts key group
    rw [hnone] at haccounts
    constructor
    · rw [← List.append_nil log]
      apply h.setGroup
      · exact fun _ _ _ => ⟨rfl, rfl⟩
      · rw [List.append_nil, haccounts.1, haccounts.2]
        exact ledger_new _
      · rw [List.append_nil]
        exact h.explained
    · intro key' other
      unfold readEntries
      show List.Sublist _ (match Function.update s.groups (key, group) _ (key', other) with
        | none => []
        | some g => (s.streams key').take g.leases.position)
      by_cases heq : (key', other) = (key, group)
      · rw [heq, hnone]
        exact List.nil_sublist _
      · rw [Function.update_of_ne heq]

end Connectum.Events.Redis.Groups
