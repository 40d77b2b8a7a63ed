import Connectum.Auth.Cache
import Connectum.Machine
import Mathlib.Data.Finset.Card

/-! The LRU cache against the history of its calls: what has been set last, and which other keys
have been used since. -/
namespace Connectum.Auth

inductive CacheCall (V : Type) where
  | get (key : JsString)
  | set (key : JsString) (value : V)
  | clear

/-- A call with the time that it reads from the clock, and what a `get` returns. -/
inductive CacheEvent (V : Type) where
  | got (time : ℚ) (key : JsString) (result : Option V)
  | set (time : ℚ) (key : JsString) (value : V)
  | cleared

/-- The cache, and the time of the last call. -/
structure ClockedCache (V : Type) where
  now : ℚ
  cache : LruCache V

namespace ClockedCache
variable {V : Type}

/-- The clock does not go back. -/
def step : Machine.Step (ClockedCache V) (ℚ × CacheCall V) (CacheEvent V)
  | s, (time, call) =>
    if time < s.now then none
    else match call with
      | .get key =>
        let (cache, result) := s.cache.get time key
        some (⟨time, cache⟩, [.got time key result])
      | .set key value => some (⟨time, s.cache.set time key value⟩, [.set time key value])
      | .clear => some (⟨time, s.cache.clear⟩, [.cleared])

end ClockedCache

namespace CacheEvent
variable {V : Type}

/-- The key that the call sets or hits. -/
def used : CacheEvent V → Option JsString
  | .got _ key (some _) | .set _ key _ => some key
  | .got _ _ none | .cleared => none

/-- The time and the value of the last `set` of a key since the last `clear`. -/
def lastSet (key : JsString) (log : List (CacheEvent V)) : Option (ℚ × V) :=
  log.foldl (fun last event =>
    match event with
    | .set time key' value => if key' = key then some (time, value) else last
    | .cleared => none
    | .got _ _ _ => last) none

/-- The other keys that have been set or hit since the key was last set or hit. -/
def usedSince (key : JsString) (log : List (CacheEvent V)) : Finset JsString :=
  log.foldl (fun keys event =>
    match event.used with
    | some key' => if key' = key then ∅ else insert key' keys
    | none => keys) ∅

variable {log : List (CacheEvent V)} {key key' : JsString} {time : ℚ} {value : V}
  {result : Option V}

@[simp] theorem lastSet_got : lastSet key (log ++ [.got time key' result]) = lastSet key log := by
  simp [lastSet]

@[simp] theorem lastSet_cleared : lastSet key (log ++ [.cleared]) = none := by
  simp [lastSet]

@[simp] theorem lastSet_set : lastSet key (log ++ [.set time key' value]) =
    if key' = key then some (time, value) else lastSet key log := by
  simp [lastSet]

theorem usedSince_of_used {event : CacheEvent V} (h : event.used = some key') :
    usedSince key (log ++ [event]) = if key' = key then ∅ else insert key' (usedSince key log) := by
  simp [usedSince, h]

theorem usedSince_of_not_used {event : CacheEvent V} (h : event.used = none) :
    usedSince key (log ++ [event]) = usedSince key log := by
  simp [usedSince, h]

end CacheEvent

namespace ClockedCache
open CacheEvent LruCache JsString
variable {V : Type} {s t : ClockedCache V} {log : List (CacheEvent V)} {key : JsString} {value : V}
  {time : ℚ}

/-- How the entries follow from the history. -/
structure Tracks (s : ClockedCache V) (log : List (CacheEvent V)) : Prop where
  size : s.cache.entries.length ≤ s.cache.maxSize
  entry : ∀ e ∈ s.cache.entries, ∃ time, lastSet e.1 log = some (time, e.2.value) ∧
    e.2.expiresAt = time + s.cache.ttl
  order : s.cache.entries.Pairwise fun e later => later.1 ∈ usedSince e.1 log
  lost : ∀ key time value, lastSet key log = some (time, value) →
    key ∉ s.cache.entries.map Prod.fst →
      time + s.cache.ttl ≤ s.now ∨ s.cache.maxSize ≤ (usedSince key log).card

/-- What the history says about a `get`. -/
def Explains (ttl : ℚ) (maxSize : ℕ) (before : List (CacheEvent V)) : CacheEvent V → Prop
  | .got time key result =>
    (∀ value, result = some value →
      ∃ set, lastSet key before = some (set, value) ∧ time - set < ttl) ∧
    ∀ set value, lastSet key before = some (set, value) → time - set < ttl →
      (usedSince key before).card < maxSize → result = some value
  | .set _ _ _ | .cleared => True

theorem subset_usedSince {event : CacheEvent V} {other : JsString}
    (hused : event.used = some key) (hne : key ≠ other) :
    usedSince other log ⊆ usedSince other (log ++ [event]) := by
  rw [usedSince_of_used hused, if_neg hne]
  exact Finset.subset_insert _ _

/-- The key that is used becomes the last entry, and the entries before it are kept or evicted. -/
theorem Tracks.use (h : Tracks s log) {cache : LruCache V} {event : CacheEvent V}
    {kept : List (JsString × CacheEntry V)} {entry : CacheEntry V} (hnow : s.now ≤ time)
    (hused : event.used = some key)
    (hlast : ∀ other ≠ key, lastSet other (log ++ [event]) = lastSet other log)
    (hentry : ∃ time, lastSet key (log ++ [event]) = some (time, entry.value) ∧
      entry.expiresAt = time + s.cache.ttl)
    (hkept : kept.Sublist (erase s.cache.entries key)) (hsize : kept.length < s.cache.maxSize)
    (hevicted : ∀ e ∈ erase s.cache.entries key, e ∉ kept →
      s.cache.maxSize ≤ (usedSince e.1 (log ++ [event])).card)
    (hentries : cache.entries = kept ++ [(key, entry)]) (httl : cache.ttl = s.cache.ttl)
    (hmax : cache.maxSize = s.cache.maxSize) : Tracks ⟨time, cache⟩ (log ++ [event]) := by
  have hold : kept.Sublist s.cache.entries := hkept.trans List.filter_sublist
  have hne : ∀ e ∈ kept, e.1 ≠ key := fun e he => (mem_erase.mp (hkept.subset he)).2
  refine ⟨?_, ?_, ?_, ?_⟩
  · rw [hentries, hmax, List.length_append, List.length_singleton]
    exact hsize
  · intro e he
    rw [hentries] at he
    rw [httl]
    rcases List.mem_append.mp he with he | he
    · rw [hlast _ (hne e he)]
      exact h.entry e (hold.subset he)
    · rw [List.mem_singleton.mp he]
      exact hentry
  · rw [hentries]
    refine List.pairwise_append.mpr ⟨?_, List.pairwise_singleton _ _, ?_⟩
    · refine (h.order.sublist hold).imp_of_mem ?_
      intro e later he _ hlater
      exact subset_usedSince hused (hne e he).symm hlater
    · intro e he later hlater
      rw [List.mem_singleton.mp hlater, usedSince_of_used hused, if_neg (hne e he).symm]
      exact Finset.mem_insert_self _ _
  · intro other set value hset hnot
    rw [hentries, List.map_append, List.mem_append, not_or] at hnot
    have hother : other ≠ key := by
      rintro rfl
      exact hnot.2 (List.mem_singleton_self _)
    rw [hlast _ hother] at hset
    rw [httl, hmax]
    by_cases hmem : other ∈ s.cache.entries.map Prod.fst
    · obtain ⟨e, he, rfl⟩ := List.mem_map.mp hmem
      have hgone : e ∉ kept := fun hmem => hnot.1 (List.mem_map_of_mem hmem)
      exact .inr (hevicted e (mem_erase.mpr ⟨he, hother⟩) hgone)
    · rcases h.lost other set value hset hmem with hexpired | hcard
      · exact .inl (hexpired.trans hnow)
      · exact .inr (hcard.trans (Finset.card_le_card (subset_usedSince hused hother.symm)))

/-- The call leaves the entries, or removes some that have expired. -/
theorem Tracks.drop (h : Tracks s log) {cache : LruCache V} {event : CacheEvent V}
    (hnow : s.now ≤ time) (hused : event.used = none)
    (hlast : ∀ key, lastSet key (log ++ [event]) = lastSet key log)
    (hsub : cache.entries.Sublist s.cache.entries)
    (hexpired : ∀ e ∈ s.cache.entries, e ∉ cache.entries → e.2.expiresAt ≤ time)
    (httl : cache.ttl = s.cache.ttl) (hmax : cache.maxSize = s.cache.maxSize) :
    Tracks ⟨time, cache⟩ (log ++ [event]) := by
  refine ⟨?_, ?_, ?_, ?_⟩
  · rw [hmax]
    exact hsub.length_le.trans h.size
  · intro e he
    rw [httl, hlast]
    exact h.entry e (hsub.subset he)
  · simp only [usedSince_of_not_used hused]
    exact h.order.sublist hsub
  · intro key set value hset hnot
    rw [hlast] at hset
    rw [httl, hmax, usedSince_of_not_used hused]
    by_cases hmem : key ∈ s.cache.entries.map Prod.fst
    · obtain ⟨e, he, rfl⟩ := List.mem_map.mp hmem
      obtain ⟨set', hset', hexpiresAt⟩ := h.entry e he
      obtain ⟨rfl, -⟩ := Prod.mk.inj (Option.some.inj (hset.symm.trans hset'))
      have hgone : e ∉ cache.entries := fun hmem => hnot (List.mem_map_of_mem hmem)
      exact .inl (hexpiresAt ▸ hexpired e he hgone)
    · rcases h.lost key set value hset hmem with hexpired | hcard
      · exact .inl (hexpired.trans hnow)
      · exact .inr hcard

theorem length_erase_lt {entries : List (JsString × CacheEntry V)} {e : JsString × CacheEntry V}
    (he : e ∈ entries) : (erase entries e.1).length < entries.length := by
  apply List.length_filter_lt_length_iff_exists.mpr
  exact ⟨e, he, by simp⟩

theorem Tracks.get (h : Tracks s log) (hnow : s.now ≤ time) (key : JsString) :
    Tracks ⟨time, (s.cache.get time key).1⟩
      (log ++ [.got time key (s.cache.get time key).2]) := by
  unfold LruCache.get
  split
  next =>
    exact h.drop hnow rfl (fun _ => lastSet_got) (List.Sublist.refl _)
      (fun e he hgone => absurd he hgone) rfl rfl
  next entry hentry =>
    have hmem := LruCache.mem_of_lookup hentry
    obtain ⟨set, hset, hexpiresAt⟩ := h.entry _ hmem
    split
    next hexpired =>
      refine h.drop hnow rfl (fun _ => lastSet_got) List.filter_sublist ?_ rfl rfl
      intro e he hgone
      have hkey : e.1 = key := by
        by_contra hne
        exact hgone (mem_erase.mpr ⟨he, hne⟩)
      -- the expired entry is the only one of its key
      have heq := List.inj_on_of_nodup_map s.cache.nodup he hmem hkey
      rw [heq]
      exact hexpired
    next =>
      refine h.use hnow rfl (fun _ _ => lastSet_got) ⟨set, ?_, hexpiresAt⟩ (List.Sublist.refl _)
        ((length_erase_lt hmem).trans_le h.size) (fun e he hgone => absurd he hgone) rfl rfl rfl
      rw [lastSet_got]
      exact hset

/-- When room is made, the least recently used entry has seen enough other keys. -/
theorem Tracks.evicted (h : Tracks s log) {event : CacheEvent V} (hused : event.used = some key)
    {e : JsString × CacheEntry V} (he : e ∈ erase s.cache.entries key)
    (hgone : e ∉ makeRoom s.cache.maxSize (erase s.cache.entries key)) :
    s.cache.maxSize ≤ (usedSince e.1 (log ++ [event])).card := by
  have hne := (mem_erase.mp he).2
  have horder := h.order.sublist (List.filter_sublist (p := fun e => decide (e.1 ≠ key)))
  have hnodup := nodup_erase key s.cache.nodup
  unfold makeRoom at hgone
  split at hgone
  next hfull =>
    rw [← erase] at horder
    cases hentries : erase s.cache.entries key with
    | nil => simp [hentries] at he
    | cons oldest rest =>
      rw [hentries] at he hgone hfull horder hnodup
      rcases List.mem_cons.mp he with rfl | hrest
      · have hlater := (List.pairwise_cons.mp horder).1
        have hkey : key ∉ rest.map Prod.fst := by
          intro hmem
          apply notMem_erase s.cache.entries key
          rw [hentries]
          exact List.mem_cons_of_mem _ hmem
        have hsubset : insert key (rest.map Prod.fst).toFinset ⊆ usedSince e.1 (log ++ [event]) := by
          rw [usedSince_of_used hused, if_neg hne.symm]
          apply Finset.insert_subset_insert
          intro other hother
          obtain ⟨later, hmem, rfl⟩ := List.mem_map.mp (List.mem_toFinset.mp hother)
          exact hlater later hmem
        have hcard := Finset.card_le_card hsubset
        rw [Finset.card_insert_of_notMem (by simpa using hkey),
          List.toFinset_card_of_nodup (List.nodup_cons.mp hnodup).2, List.length_map] at hcard
        exact hfull.trans hcard
      · exact absurd hrest hgone
  next => exact absurd he hgone

theorem length_makeRoom_lt {entries : List (JsString × CacheEntry V)} {maxSize : ℕ}
    (hmax : 1 ≤ maxSize) (hle : entries.length ≤ maxSize) :
    (makeRoom maxSize entries).length < maxSize := by
  unfold makeRoom
  split
  · rw [List.length_tail]
    omega
  · omega

theorem Tracks.set (h : Tracks s log) (hnow : s.now ≤ time) (hmax : 1 ≤ s.cache.maxSize)
    (key : JsString) (value : V) :
    Tracks ⟨time, s.cache.set time key value⟩ (log ++ [.set time key value]) := by
  have hsize := (List.filter_sublist (l := s.cache.entries)
    (p := fun e => decide (e.1 ≠ key))).length_le.trans h.size
  refine h.use hnow rfl ?_ ⟨time, ?_, rfl⟩ (makeRoom_sublist _ _) (length_makeRoom_lt hmax hsize)
    (fun e he hgone => h.evicted rfl he hgone) rfl rfl rfl
  · intro other hne
    rw [lastSet_set, if_neg hne.symm]
  · rw [lastSet_set, if_pos rfl]

theorem tracks_clear (s : ClockedCache V) (log : List (CacheEvent V)) :
    Tracks ⟨time, s.cache.clear⟩ (log ++ [.cleared]) where
  size := Nat.zero_le _
  entry e he := absurd he List.not_mem_nil
  order := List.Pairwise.nil
  lost key set value hset := by
    rw [lastSet_cleared] at hset
    cases hset

theorem lookup_of_mem {entries : List (JsString × CacheEntry V)} {e : JsString × CacheEntry V}
    (hnodup : (entries.map Prod.fst).Nodup) (he : e ∈ entries) :
    entries.lookup e.1 = some e.2 := by
  cases hfound : entries.lookup e.1 with
  | none =>
    rw [List.lookup_eq_none_iff] at hfound
    exact absurd rfl (bne_iff_ne.mp (hfound e he))
  | some entry =>
    have heq := List.inj_on_of_nodup_map hnodup (LruCache.mem_of_lookup hfound) he rfl
    rw [← heq]

/-- A hit returns what was set last, and only expiry or enough other keys make a miss. -/
theorem Tracks.explains (h : Tracks s log) (hnow : s.now ≤ time) (key : JsString) :
    Explains s.cache.ttl s.cache.maxSize log (.got time key (s.cache.get time key).2) := by
  constructor
  · intro value hvalue
    obtain ⟨entry, hmem, rfl, hlive⟩ := exists_entry_of_get hvalue
    obtain ⟨set, hset, hexpiresAt⟩ := h.entry _ hmem
    refine ⟨set, hset, ?_⟩
    rw [hexpiresAt] at hlive
    exact sub_left_lt_of_lt_add hlive
  · intro set value hset hlive hcard
    have hmem : key ∈ s.cache.entries.map Prod.fst := by
      by_contra hnot
      rcases h.lost key set value hset hnot with hexpired | hfull
      · exact absurd (hexpired.trans hnow) (not_le.mpr (lt_add_of_sub_left_lt hlive))
      · exact absurd hcard (not_lt.mpr hfull)
    obtain ⟨e, hentry, rfl⟩ := List.mem_map.mp hmem
    obtain ⟨set', hset', hexpiresAt⟩ := h.entry e hentry
    obtain ⟨rfl, rfl⟩ := Prod.mk.inj (Option.some.inj (hset.symm.trans hset'))
    have hlookup := lookup_of_mem s.cache.nodup hentry
    have hnot : ¬ e.2.expiresAt ≤ time := by
      rw [hexpiresAt]
      exact not_le.mpr (lt_add_of_sub_left_lt hlive)
    rw [LruCache.get, hlookup]
    dsimp only
    rw [if_neg hnot]

/-- What every call keeps: the options of the cache, and the agreement with the history. -/
structure Refines (ttl : ℚ) (maxSize : ℕ) (s : ClockedCache V) (log : List (CacheEvent V)) :
    Prop where
  options : s.cache.ttl = ttl ∧ s.cache.maxSize = maxSize
  tracks : Tracks s log
  explained : Machine.Justified (Explains ttl maxSize) log

@[simp] theorem get_maxSize : (s.cache.get time key).1.maxSize = s.cache.maxSize := by
  unfold LruCache.get
  split
  next => rfl
  next => split <;> rfl

theorem Refines.step {ttl : ℚ} {maxSize : ℕ} (h : Refines ttl maxSize s log) (hmax : 1 ≤ maxSize)
    {action : ℚ × CacheCall V} {out : List (CacheEvent V)}
    (hstep : ClockedCache.step s action = some (t, out)) : Refines ttl maxSize t (log ++ out) := by
  obtain ⟨time, call⟩ := action
  simp only [ClockedCache.step] at hstep
  split at hstep
  next => cases hstep
  next hnow =>
    have hnow := not_lt.mp hnow
    obtain ⟨⟨rfl, rfl⟩, htracks, hexplained⟩ := h
    cases call with
    | get key =>
      obtain ⟨rfl, rfl⟩ := Prod.mk.inj (Option.some.inj hstep)
      exact ⟨⟨get_ttl, get_maxSize⟩, htracks.get hnow key,
        Machine.justified_concat.mpr ⟨hexplained, htracks.explains hnow key⟩⟩
    | set key value =>
      obtain ⟨rfl, rfl⟩ := Prod.mk.inj (Option.some.inj hstep)
      exact ⟨⟨rfl, rfl⟩, htracks.set hnow hmax key value,
        Machine.justified_concat.mpr ⟨hexplained, trivial⟩⟩
    | clear =>
      obtain ⟨rfl, rfl⟩ := Prod.mk.inj (Option.some.inj hstep)
      exact ⟨⟨rfl, rfl⟩, tracks_clear s log, Machine.justified_concat.mpr ⟨hexplained, trivial⟩⟩

theorem refines_create {ttl : ℚ} {maxSize : Option ℕ} {cache : LruCache V} (start : ℚ)
    (hcreate : LruCache.create ttl maxSize = some cache) :
    Refines ttl (maxSize.getD 1000) ⟨start, cache⟩ [] := by
  unfold LruCache.create at hcreate
  split at hcreate
  · cases hcreate
  next =>
    obtain rfl := Option.some.inj hcreate
    exact ⟨⟨rfl, rfl⟩, ⟨Nat.zero_le _, fun e he => absurd he List.not_mem_nil, List.Pairwise.nil,
      fun key set value hset => by cases hset⟩, Machine.justified_nil⟩

/-- In every sequence of calls at times that do not decrease the cache keeps to its size, and each
`get` returns what the history says. -/
theorem lruCache_refines {ttl : ℚ} {maxSize : Option ℕ} {cache : LruCache V} {start : ℚ}
    {calls : List (ℚ × CacheCall V)} (hcreate : LruCache.create ttl maxSize = some cache)
    (hmax : 1 ≤ maxSize.getD 1000)
    (hrun : Machine.run ClockedCache.step ⟨start, cache⟩ calls = some (s, log)) :
    s.cache.entries.length ≤ maxSize.getD 1000 ∧
      ∀ before time key result after, log = before ++ .got time key result :: after →
        (∀ value, result = some value →
          ∃ set, lastSet key before = some (set, value) ∧ time - set < ttl) ∧
        ∀ set value, lastSet key before = some (set, value) → time - set < ttl →
          (usedSince key before).card < maxSize.getD 1000 → result = some value := by
  have h := Machine.run_invariant (I := Refines ttl (maxSize.getD 1000))
    (fun s log action t out h hstep => h.step hmax hstep) (refines_create start hcreate) hrun
  rw [List.nil_append] at h
  refine ⟨h.options.2 ▸ h.tracks.size, ?_⟩
  intro before time key result after hlog
  exact h.explained before _ after hlog

/-- Two entries fit; the second one is evicted, since the first one is hit before the third. -/
def threeKeys : List (ℚ × CacheCall ℕ) :=
  [(0, .set (js "a") 1), (1, .set (js "b") 2), (2, .get (js "a")), (3, .set (js "c") 3),
    (4, .get (js "b")), (5, .get (js "a"))]

def twoEntries : LruCache ℕ := ⟨2, 60000, [], List.nodup_nil⟩

theorem lruCache_refines_threeKeys :
    ∃ s log, Machine.run step ⟨0, twoEntries⟩ threeKeys = some (s, log) ∧
      s.cache.entries.length ≤ 2 ∧
      ∀ before time key result after, log = before ++ .got time key result :: after →
        (∀ value, result = some value →
          ∃ set, lastSet key before = some (set, value) ∧ time - set < 60000) ∧
        ∀ set value, lastSet key before = some (set, value) → time - set < 60000 →
          (usedSince key before).card < 2 → result = some value := by
  have hcreate : LruCache.create 60000 (some 2) = some twoEntries := rfl
  have hsome : (Machine.run step ⟨0, twoEntries⟩ threeKeys).isSome = true := rfl
  obtain ⟨⟨s, log⟩, hrun⟩ := Option.isSome_iff_exists.mp hsome
  exact ⟨s, log, hrun, lruCache_refines hcreate (by decide) hrun⟩

end ClockedCache
end Connectum.Auth
