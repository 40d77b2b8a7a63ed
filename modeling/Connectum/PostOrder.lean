import Mathlib.Data.Finset.Card
import Mathlib.Data.Set.Finite.Basic
import Mathlib.Logic.Relation
import Mathlib.Tactic.Common

/-! Depth-first search in post-order, over vertices that are told apart by a key. -/

/-- Several vertices may have one key. -/
structure KeyedGraph (V κ : Type*) where
  key : V → κ
  next : V → List V

namespace KeyedGraph
variable {V κ : Type*} (g : KeyedGraph V κ)

def Edge (v w : V) : Prop := w ∈ g.next v

def Reached (roots : List V) (v : V) : Prop := ∃ r ∈ roots, Relation.ReflTransGen g.Edge r v

/-- The edges between keys that the roots lead to. -/
def Needs (roots : List V) (k k' : κ) : Prop :=
  ∃ v w, g.Reached roots v ∧ g.key v = k ∧ w ∈ g.next v ∧ g.key w = k'

def Acyclic (roots : List V) : Prop := ∀ k, ¬ Relation.TransGen (g.Needs roots) k k

/-- Vertices of one key have edges to the same keys. -/
def Consistent (roots : List V) : Prop :=
  ∀ v v', g.Reached roots v → g.Reached roots v' → g.key v = g.key v' →
    ∀ w ∈ g.next v, ∃ w' ∈ g.next v', g.key w' = g.key w

structure State (V κ : Type*) where
  visited : Finset κ
  output : List V

/-- The search from a vertex, which is marked before its edges are followed. Without fuel it has
no result. -/
def visit [DecidableEq κ] : ℕ → V → State V κ → Option (State V κ)
  | 0, _, _ => none
  | fuel + 1, v, s =>
    if g.key v ∈ s.visited then some s
    else
      ((g.next v).foldlM (fun s w => visit fuel w s)
        { s with visited := insert (g.key v) s.visited }).map fun s =>
          { s with output := s.output ++ [v] }

def search [DecidableEq κ] (fuel : ℕ) (roots : List V) : Option (List V) :=
  (roots.foldlM (fun s v => g.visit fuel v s) ⟨∅, []⟩).map State.output

/-- Exactly the vertices that the roots lead to, one for each key, and each after all that it
leads to. -/
structure Linearizes (roots output : List V) : Prop where
  nodup : (output.map g.key).Nodup
  sound : ∀ v ∈ output, g.Reached roots v
  complete : ∀ v, g.Reached roots v → g.key v ∈ output.map g.key
  ordered : ∀ before v after, output = before ++ v :: after →
    ∀ w, Relation.TransGen g.Edge v w → g.key w ∈ before.map g.key

variable {g} {roots : List V} {v w : V} {s t : State V κ} {fuel : ℕ}

theorem Reached.tail (h : g.Reached roots v) (hw : w ∈ g.next v) : g.Reached roots w := by
  obtain ⟨r, hr, hpath⟩ := h
  exact ⟨r, hr, hpath.tail hw⟩

theorem Reached.trans (h : g.Reached roots v) (hw : Relation.ReflTransGen g.Edge v w) :
    g.Reached roots w := by
  induction hw with
  | refl => exact h
  | tail _ hedge ih => exact ih.tail hedge

theorem transGen_needs (hv : g.Reached roots v) (h : Relation.TransGen g.Edge v w) :
    Relation.TransGen (g.Needs roots) (g.key v) (g.key w) := by
  induction h with
  | single hedge => exact .single ⟨v, _, hv, rfl, hedge, rfl⟩
  | tail hpath hedge ih => exact ih.tail ⟨_, _, hv.trans hpath.to_reflTransGen, rfl, hedge, rfl⟩

theorem acyclic_of_rank (rank : κ → ℕ)
    (h : ∀ v, ∀ w ∈ g.next v, rank (g.key w) < rank (g.key v)) : g.Acyclic roots := by
  have hless : ∀ k k', Relation.TransGen (g.Needs roots) k k' → rank k' < rank k := by
    intro k k' hneeds
    induction hneeds with
    | single hone =>
      obtain ⟨v, w, -, rfl, hw, rfl⟩ := hone
      exact h v w hw
    | tail _ hone ih =>
      obtain ⟨v, w, -, rfl, hw, rfl⟩ := hone
      exact (h v w hw).trans ih
  exact fun k hk => lt_irrefl _ (hless k k hk)

theorem consistent_of_injective (h : Function.Injective g.key) : g.Consistent roots := by
  intro v v' _ _ hkey w hw
  obtain rfl := h hkey
  exact ⟨w, hw, rfl⟩

/-! ### Orders -/

/-- What a member needs comes before it. -/
def Ordered (needs : κ → κ → Prop) (l : List κ) : Prop :=
  ∀ before k after, l = before ++ k :: after → ∀ k', needs k k' → k' ∈ before

section Ordered
variable {needs : κ → κ → Prop} {l : List κ} {k k' : κ}

theorem ordered_nil : Ordered needs [] := by
  intro before k after h
  simp at h

theorem Ordered.concat (h : Ordered needs l) (hk : ∀ k', needs k k' → k' ∈ l) :
    Ordered needs (l ++ [k]) := by
  intro before m after hsplit m' hm
  rcases List.eq_nil_or_concat after with rfl | ⟨after, last, rfl⟩
  · obtain ⟨rfl, hm'⟩ := List.append_inj' hsplit rfl
    obtain rfl := List.singleton_inj.mp hm'
    exact hk m' hm
  · have hfront : l ++ [k] = (before ++ m :: after) ++ [last] := by
      rw [hsplit, List.concat_eq_append, List.append_assoc, List.cons_append]
    obtain ⟨rfl, -⟩ := List.append_inj' hfront rfl
    exact h before m after rfl m' hm

/-- Also what it needs through others. -/
theorem Ordered.transGen (h : Ordered needs l) {before after : List κ}
    (hsplit : l = before ++ k :: after) (hneeds : Relation.TransGen needs k k') : k' ∈ before := by
  induction hneeds with
  | single hone => exact h before k after hsplit _ hone
  | tail _ hone ih =>
    obtain ⟨first, second, rfl⟩ := List.append_of_mem ih
    apply List.mem_append_left
    apply h first _ (second ++ k :: after) _ _ hone
    rw [hsplit, List.append_assoc, List.cons_append]

end Ordered

/-! ### Order of the output -/

/-- The marked keys are those in the output and those of the pending vertices, whose visits have
not ended. -/
structure Invariant (g : KeyedGraph V κ) (roots : List V) (pending : Set κ) (s : State V κ) :
    Prop where
  marked : ∀ k, k ∈ s.visited ↔ k ∈ s.output.map g.key ∨ k ∈ pending
  apart : ∀ k ∈ pending, k ∉ s.output.map g.key
  nodup : (s.output.map g.key).Nodup
  sound : ∀ v ∈ s.output, g.Reached roots v
  ordered : Ordered (g.Needs roots) (s.output.map g.key)

variable {pending : Set κ}

theorem invariant_empty : g.Invariant roots ∅ ⟨∅, []⟩ where
  marked := by simp
  apart := by simp
  nodup := List.nodup_nil
  sound := by simp
  ordered := ordered_nil

/-- The visit of a pending vertex ends after those of all that it leads to. -/
theorem Invariant.finish (hconsistent : g.Consistent roots) (hv : g.Reached roots v)
    (hpending : g.key v ∉ pending) (h : g.Invariant roots (insert (g.key v) pending) s)
    (hnext : ∀ w ∈ g.next v, g.key w ∈ s.output.map g.key) :
    g.Invariant roots pending { s with output := s.output ++ [v] } where
  marked k := by
    rw [h.marked k, Set.mem_insert_iff, List.map_append, List.mem_append, List.map_singleton,
      List.mem_singleton, or_assoc]
  apart k hk := by
    rw [List.map_append, List.mem_append, List.map_singleton, List.mem_singleton, not_or]
    exact ⟨h.apart k (Set.mem_insert_of_mem _ hk), fun heq => hpending (heq ▸ hk)⟩
  nodup := by
    rw [List.map_append, List.map_singleton, ← List.concat_eq_append]
    exact h.nodup.concat (h.apart _ (Set.mem_insert _ _))
  sound := by
    intro w hw
    rcases List.mem_append.mp hw with hw | hw
    · exact h.sound w hw
    · rwa [List.mem_singleton.mp hw]
  ordered := by
    rw [List.map_append, List.map_singleton]
    apply h.ordered.concat
    rintro k' ⟨v', w', hv', hkey, hw', rfl⟩
    obtain ⟨w, hw, hkey'⟩ := hconsistent v' v hv' hv hkey w' hw'
    exact hkey' ▸ hnext w hw

/-- What a visit keeps, as its caller needs it. -/
structure Visits (g : KeyedGraph V κ) (roots : List V) (pending : Set κ) (s t : State V κ)
    (vs : List V) : Prop where
  invariant : g.Invariant roots pending t
  grows : s.output <+: t.output
  visited : ∀ v ∈ vs, g.key v ∈ t.output.map g.key

theorem Visits.cons {vs : List V} {u : State V κ} (h : g.Visits roots pending s u [v])
    (h' : g.Visits roots pending u t vs) : g.Visits roots pending s t (v :: vs) where
  invariant := h'.invariant
  grows := h.grows.trans h'.grows
  visited := by
    rw [List.forall_mem_cons]
    refine ⟨?_, h'.visited⟩
    exact (h'.grows.map g.key).subset (h.visited v (List.mem_singleton_self v))

/-! ### Runs -/

variable [DecidableEq κ]

theorem foldlM_visit_mono {vs : List V} {fuel fuel' : ℕ}
    (hmono : ∀ v s t, g.visit fuel v s = some t → g.visit fuel' v s = some t)
    (h : vs.foldlM (fun s v => g.visit fuel v s) s = some t) :
    vs.foldlM (fun s v => g.visit fuel' v s) s = some t := by
  induction vs generalizing s with
  | nil => exact h
  | cons v vs ih =>
    rw [List.foldlM_cons] at h ⊢
    obtain ⟨u, hone, hrest⟩ := Option.bind_eq_some_iff.mp h
    exact Option.bind_eq_some_iff.mpr ⟨u, hmono v s u hone, ih hrest⟩

/-- More fuel does not change the result. -/
theorem visit_mono {fuel' : ℕ} (hfuel : fuel ≤ fuel') (h : g.visit fuel v s = some t) :
    g.visit fuel' v s = some t := by
  induction fuel generalizing fuel' v s t with
  | zero => cases h
  | succ fuel ih =>
    obtain ⟨fuel', rfl⟩ := Nat.exists_eq_add_of_le' (Nat.one_le_of_lt hfuel)
    have hfuel := Nat.le_of_succ_le_succ hfuel
    unfold visit at h ⊢
    split at h
    next hmarked => rw [if_pos hmarked, h]
    next hfresh =>
      rw [if_neg hfresh]
      obtain ⟨u, hloop, rfl⟩ := Option.map_eq_some_iff.mp h
      rw [foldlM_visit_mono (fun v s t => ih hfuel) hloop]
      rfl

/-- With fuel for every vertex, the loop over some of them ends, and keeps the marks. -/
theorem exists_foldlM_visit {vs : List V} {P : V → Prop} {names : Finset κ} (hvs : ∀ v ∈ vs, P v)
    (hvisit : ∀ v s, P v → (names \ s.visited).card < fuel →
      ∃ t, g.visit fuel v s = some t ∧ s.visited ⊆ t.visited)
    (hfuel : (names \ s.visited).card < fuel) :
    ∃ t, vs.foldlM (fun s v => g.visit fuel v s) s = some t ∧ s.visited ⊆ t.visited := by
  induction vs generalizing s with
  | nil => exact ⟨s, rfl, Finset.Subset.refl _⟩
  | cons v vs ih =>
    rw [List.forall_mem_cons] at hvs
    obtain ⟨u, hone, hmarks⟩ := hvisit v s hvs.1 hfuel
    have hless := Finset.card_le_card (Finset.sdiff_subset_sdiff (Finset.Subset.refl names) hmarks)
    obtain ⟨t, hrest, hmarks'⟩ := ih hvs.2 (lt_of_le_of_lt hless hfuel)
    refine ⟨t, ?_, hmarks.trans hmarks'⟩
    rw [List.foldlM_cons, hone]
    exact hrest

/-- A visit ends when there is more fuel than there are keys without a mark. -/
theorem exists_visit {P : V → Prop} {names : Finset κ} (hnext : ∀ v, P v → ∀ w ∈ g.next v, P w)
    (hnames : ∀ v, P v → g.key v ∈ names) (hv : P v)
    (hfuel : (names \ s.visited).card < fuel) :
    ∃ t, g.visit fuel v s = some t ∧ s.visited ⊆ t.visited := by
  induction fuel generalizing v s with
  | zero => exact absurd hfuel (Nat.not_lt_zero _)
  | succ fuel ih =>
    unfold visit
    split
    next => exact ⟨s, rfl, Finset.Subset.refl _⟩
    next hfresh =>
      have hmark : (names \ insert (g.key v) s.visited).card < (names \ s.visited).card := by
        rw [Finset.sdiff_insert]
        exact Finset.card_erase_lt_of_mem (Finset.mem_sdiff.mpr ⟨hnames v hv, hfresh⟩)
      obtain ⟨t, hloop, hmarks⟩ := exists_foldlM_visit
        (s := { s with visited := insert (g.key v) s.visited }) (hnext v hv)
        (fun w u hw hu => ih hw hu) (lt_of_lt_of_le hmark (Nat.le_of_lt_succ hfuel))
      rw [hloop]
      exact ⟨_, rfl, (Finset.subset_insert _ _).trans hmarks⟩

/-- The search ends on every finite graph, cyclic or not. -/
theorem exists_search (hfinite : { v | g.Reached roots v }.Finite) :
    ∃ bound output, ∀ fuel, bound ≤ fuel → g.search fuel roots = some output := by
  classical
  have hnames : ∀ v, g.Reached roots v → g.key v ∈ hfinite.toFinset.image g.key := fun v hv =>
    Finset.mem_image_of_mem _ (hfinite.mem_toFinset.mpr hv)
  have hroots : ∀ v ∈ roots, g.Reached roots v := fun v hv => ⟨v, hv, .refl⟩
  obtain ⟨t, hloop, -⟩ := exists_foldlM_visit (s := ⟨∅, []⟩) hroots
    (fun v s hv hfuel => exists_visit (fun v hv w hw => hv.tail hw) hnames hv hfuel)
    (Nat.lt_succ_self _)
  refine ⟨_, t.output, fun fuel (hfuel : (hfinite.toFinset.image g.key \ ∅).card + 1 ≤ fuel) => ?_⟩
  rw [search, foldlM_visit_mono (fun v s t => visit_mono hfuel) hloop]
  rfl

/-- The vertex is marked, and pending from now on. -/
theorem Invariant.mark (h : g.Invariant roots pending s) (hfresh : g.key v ∉ s.visited) :
    g.Invariant roots (insert (g.key v) pending)
      { s with visited := insert (g.key v) s.visited } where
  marked k := by
    rw [Finset.mem_insert, h.marked k, Set.mem_insert_iff]
    exact or_left_comm
  apart := by
    rintro k (rfl | hk)
    · exact fun hmem => hfresh ((h.marked _).mpr (.inl hmem))
    · exact h.apart k hk
  nodup := h.nodup
  sound := h.sound
  ordered := h.ordered

theorem visits_foldlM {vs : List V} (hinv : g.Invariant roots pending s)
    (hvisit : ∀ v ∈ vs, ∀ s t, g.Invariant roots pending s → g.visit fuel v s = some t →
      g.Visits roots pending s t [v])
    (h : vs.foldlM (fun s v => g.visit fuel v s) s = some t) :
    g.Visits roots pending s t vs := by
  induction vs generalizing s with
  | nil =>
    obtain rfl := Option.some.inj h
    exact ⟨hinv, List.prefix_refl _, by simp⟩
  | cons v vs ih =>
    rw [List.foldlM_cons] at h
    obtain ⟨u, hone, hrest⟩ := Option.bind_eq_some_iff.mp h
    rw [List.forall_mem_cons] at hvisit
    have hfirst := hvisit.1 s u hinv hone
    exact hfirst.cons (ih hfirst.invariant hvisit.2 hrest)

/-- Every pending vertex leads to the one that is visited, so that without cycles a marked vertex
is in the output. -/
theorem visits_visit (hacyclic : g.Acyclic roots) (hconsistent : g.Consistent roots)
    (hv : g.Reached roots v) (hinv : g.Invariant roots pending s)
    (hpending : ∀ k ∈ pending, Relation.TransGen (g.Needs roots) k (g.key v))
    (h : g.visit fuel v s = some t) : g.Visits roots pending s t [v] := by
  have hnot : g.key v ∉ pending := fun hmem => hacyclic _ (hpending _ hmem)
  induction fuel generalizing v s t pending with
  | zero => cases h
  | succ fuel ih =>
    unfold visit at h
    split at h
    next hmarked =>
      obtain rfl := Option.some.inj h
      refine ⟨hinv, List.prefix_refl _, ?_⟩
      rw [List.forall_mem_singleton]
      exact ((hinv.marked _).mp hmarked).resolve_right hnot
    next hfresh =>
      obtain ⟨u, hloop, rfl⟩ := Option.map_eq_some_iff.mp h
      have hnext := visits_foldlM (hinv.mark hfresh) (fun w hw s t hinv h => by
        have hedge : g.Needs roots (g.key v) (g.key w) := ⟨v, w, hv, rfl, hw, rfl⟩
        have hpending' : ∀ k ∈ insert (g.key v) pending,
            Relation.TransGen (g.Needs roots) k (g.key w) := by
          rintro k (rfl | hk)
          · exact .single hedge
          · exact (hpending k hk).tail hedge
        exact ih (hv.tail hw) hinv hpending' h fun hmem => hacyclic _ (hpending' _ hmem)) hloop
      refine ⟨hnext.invariant.finish hconsistent hv hnot hnext.visited, ?_, ?_⟩
      · exact hnext.grows.trans (List.prefix_append _ _)
      · rw [List.forall_mem_singleton, List.map_append, List.map_singleton]
        exact List.mem_append_right _ (List.mem_singleton_self _)

theorem linearizes_of_search (hacyclic : g.Acyclic roots) (hconsistent : g.Consistent roots)
    {output : List V} (h : g.search fuel roots = some output) : g.Linearizes roots output := by
  obtain ⟨t, hloop, rfl⟩ := Option.map_eq_some_iff.mp h
  have hroots : g.Visits roots ∅ ⟨∅, []⟩ t roots :=
    visits_foldlM invariant_empty (fun v hv s t hinv h =>
      visits_visit hacyclic hconsistent ⟨v, hv, .refl⟩ hinv (fun _ hk => absurd hk id) h) hloop
  have hinv := hroots.invariant
  refine ⟨hinv.nodup, hinv.sound, ?_, ?_⟩
  · rintro v ⟨r, hr, hpath⟩
    -- along the path, what a member of the output needs is in the output too
    have hstart := hroots.visited r hr
    induction hpath with
    | refl => exact hstart
    | tail hpath hedge ih =>
      obtain ⟨before, after, hsplit⟩ := List.append_of_mem ih
      have hneeds : g.Needs roots _ _ := ⟨_, _, ⟨r, hr, hpath⟩, rfl, hedge, rfl⟩
      rw [hsplit]
      exact List.mem_append_left _ (hinv.ordered before _ after hsplit _ hneeds)
  · intro before v after hsplit w hpath
    have hv := hinv.sound v (by rw [hsplit]; simp)
    have hkeys : t.output.map g.key = before.map g.key ++ g.key v :: after.map g.key := by
      rw [hsplit, List.map_append, List.map_cons]
    exact hinv.ordered.transGen hkeys (transGen_needs hv hpath)

end KeyedGraph
