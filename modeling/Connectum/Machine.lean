import Mathlib.Data.List.Basic
import Mathlib.Tactic.Common

/-! Deterministic machines with outputs. A step that is not enabled is `none`, and the
scheduler is the list of actions, so a statement about every action list is a statement
about every interleaving. -/
namespace Machine

abbrev Step (σ α β : Type*) := σ → α → Option (σ × List β)

variable {σ α β : Type*}

/-- The final state and the concatenated outputs of an action list. -/
def run (step : Step σ α β) (s : σ) : List α → Option (σ × List β)
  | [] => some (s, [])
  | a :: as =>
    match step s a with
    | none => none
    | some (t, out) =>
      match run step t as with
      | none => none
      | some (u, rest) => some (u, out ++ rest)

/-- Every step that the action list takes from `s` satisfies `cond` in the state before it. -/
def Meets (step : Step σ α β) (cond : σ → α → Prop) (s : σ) : List α → Prop
  | [] => True
  | a :: as => cond s a ∧
    match step s a with
    | none => True
    | some (t, _) => Meets step cond t as

instance Meets.decidable (step : Step σ α β) (cond : σ → α → Prop)
    [∀ s a, Decidable (cond s a)] : ∀ s as, Decidable (Meets step cond s as)
  | _, [] => inferInstanceAs (Decidable True)
  | s, a :: as =>
    match h : step s a with
    | none => decidable_of_iff (cond s a) (by simp [Meets, h])
    | some (t, _) =>
      have := Meets.decidable step cond t as
      decidable_of_iff (cond s a ∧ Meets step cond t as) (by simp [Meets, h])

variable {step : Step σ α β} {cond : σ → α → Prop}

@[simp] theorem run_nil {s u : σ} {log : List β} :
    run step s [] = some (u, log) ↔ u = s ∧ log = [] := by
  simp [run, eq_comm]

theorem run_cons {s u : σ} {a : α} {as : List α} {log : List β} :
    run step s (a :: as) = some (u, log) ↔
      ∃ t out rest, step s a = some (t, out) ∧ run step t as = some (u, rest) ∧
        log = out ++ rest := by
  constructor
  · intro h
    cases hs : step s a with
    | none => simp [run, hs] at h
    | some p =>
      obtain ⟨t, out⟩ := p
      cases hr : run step t as with
      | none => simp [run, hs, hr] at h
      | some q =>
        obtain ⟨v, rest⟩ := q
        simp only [run, hs, hr, Option.some.injEq, Prod.mk.injEq] at h
        obtain ⟨rfl, rfl⟩ := h
        exact ⟨t, out, rest, rfl, hr, rfl⟩
  · rintro ⟨t, out, rest, hs, hr, rfl⟩
    simp [run, hs, hr]

theorem run_append {s u : σ} {as bs : List α} {log : List β} :
    run step s (as ++ bs) = some (u, log) ↔
      ∃ t l r, run step s as = some (t, l) ∧ run step t bs = some (u, r) ∧ log = l ++ r := by
  induction as generalizing s log with
  | nil => simp
  | cons a as ih =>
    simp only [List.cons_append, run_cons, ih]
    constructor
    · rintro ⟨t, out, rest, hs, ⟨v, l, r, hl, hr, rfl⟩, rfl⟩
      exact ⟨v, out ++ l, r, ⟨t, out, l, hs, hl, rfl⟩, hr, by simp⟩
    · rintro ⟨v, l, r, ⟨t, out, l', hs, hl, rfl⟩, hr, rfl⟩
      exact ⟨t, out, l' ++ r, hs, ⟨v, l', r, hl, hr, rfl⟩, by simp⟩

theorem run_singleton {s u : σ} {a : α} {log : List β} :
    run step s [a] = some (u, log) ↔ step s a = some (u, log) := by
  simp [run_cons]

@[simp] theorem meets_nil (s : σ) : Meets step cond s [] := trivial

theorem meets_cons {s : σ} {a : α} {as : List α} :
    Meets step cond s (a :: as) ↔
      cond s a ∧ ∀ t out, step s a = some (t, out) → Meets step cond t as := by
  cases h : step s a with
  | none => simp [Meets, h]
  | some p =>
    obtain ⟨t, out⟩ := p
    simp only [Meets, h, Option.some.injEq, Prod.mk.injEq]
    exact ⟨fun ⟨hc, hm⟩ => ⟨hc, by rintro _ _ ⟨rfl, rfl⟩; exact hm⟩,
      fun ⟨hc, hm⟩ => ⟨hc, hm t out ⟨rfl, rfl⟩⟩⟩

theorem meets_cons_of_step {s t : σ} {a : α} {out : List β} (h : step s a = some (t, out))
    (as : List α) : Meets step cond s (a :: as) ↔ cond s a ∧ Meets step cond t as := by
  simp [Meets, h]

theorem meets_append {s t : σ} {as bs : List α} {log : List β}
    (h : run step s as = some (t, log)) :
    Meets step cond s (as ++ bs) ↔ Meets step cond s as ∧ Meets step cond t bs := by
  induction as generalizing s log with
  | nil =>
    obtain ⟨rfl, -⟩ := run_nil.mp h
    simp
  | cons a as ih =>
    obtain ⟨v, out, rest, hs, hr, -⟩ := run_cons.mp h
    rw [List.cons_append, meets_cons_of_step hs, meets_cons_of_step hs, ih hr, and_assoc]

/-- The induction over executions: an invariant of the state and the outputs so far that
every step meeting `cond` keeps. -/
theorem run_invariant_of_meets {I : σ → List β → Prop}
    (hstep : ∀ s l a t out, I s l → cond s a → step s a = some (t, out) →
      I t (l ++ out))
    {s u : σ} {l out : List β} {as : List α} (hinv : I s l)
    (hmeets : Meets step cond s as) (hrun : run step s as = some (u, out)) :
    I u (l ++ out) := by
  induction as generalizing s l out with
  | nil =>
    obtain ⟨rfl, rfl⟩ := run_nil.mp hrun
    simpa using hinv
  | cons a as ih =>
    obtain ⟨t, o, rest, hs, hr, rfl⟩ := run_cons.mp hrun
    obtain ⟨hc, hm⟩ := meets_cons.mp hmeets
    have hnext := ih (hstep s l a t o hinv hc hs) (hm t o hs) hr
    simpa using hnext

theorem meets_true (s : σ) (as : List α) : Meets step (fun _ _ => True) s as := by
  induction as generalizing s with
  | nil => trivial
  | cons a as ih => exact meets_cons.mpr ⟨trivial, fun t _ _ => ih t⟩

theorem run_invariant {I : σ → List β → Prop}
    (hstep : ∀ s l a t out, I s l → step s a = some (t, out) → I t (l ++ out))
    {s u : σ} {l out : List β} {as : List α} (hinv : I s l)
    (hrun : run step s as = some (u, out)) : I u (l ++ out) :=
  run_invariant_of_meets (fun s l a t out hi (_ : True) => hstep s l a t out hi) hinv
    (meets_true s as) hrun

theorem Meets.and {cond' : σ → α → Prop} {s : σ} {as : List α} (h : Meets step cond s as)
    (h' : Meets step cond' s as) : Meets step (fun s a => cond s a ∧ cond' s a) s as := by
  induction as generalizing s with
  | nil => trivial
  | cons a as ih =>
    obtain ⟨hc, hm⟩ := meets_cons.mp h
    obtain ⟨hc', hm'⟩ := meets_cons.mp h'
    exact meets_cons.mpr ⟨⟨hc, hc'⟩, fun t out ht => ih (hm t out ht) (hm' t out ht)⟩

/-- A condition that follows from another one and from an invariant. -/
theorem Meets.of_invariant {P : σ → Prop} {cond' : σ → α → Prop}
    (hstep : ∀ s a t out, P s → step s a = some (t, out) → P t)
    (himp : ∀ s a, P s → cond s a → cond' s a) {s : σ} {as : List α} (hs : P s)
    (hmeets : Meets step cond s as) : Meets step cond' s as := by
  induction as generalizing s with
  | nil => trivial
  | cons a as ih =>
    obtain ⟨hc, hm⟩ := meets_cons.mp hmeets
    exact meets_cons.mpr ⟨himp s a hs hc, fun t out ht => ih (hstep s a t out hs ht) (hm t out ht)⟩

/-- Invariants of the state alone. -/
theorem run_preserves {P : σ → Prop}
    (hstep : ∀ s a t out, P s → step s a = some (t, out) → P t)
    {s u : σ} {out : List β} {as : List α} (hs : P s)
    (hrun : run step s as = some (u, out)) : P u :=
  run_invariant (I := fun s _ => P s) (l := ([] : List β))
    (fun s _ a t out hp h => hstep s a t out hp h) hs hrun

theorem run_preserves_of_meets {P : σ → Prop}
    (hstep : ∀ s a t out, P s → cond s a → step s a = some (t, out) → P t)
    {s u : σ} {out : List β} {as : List α} (hs : P s) (hmeets : Meets step cond s as)
    (hrun : run step s as = some (u, out)) : P u :=
  run_invariant_of_meets (I := fun s _ => P s) (l := ([] : List β))
    (fun s _ a t out hp hc h => hstep s a t out hp hc h) hs hmeets hrun

/-- Some execution of steps that all meet `cond` leads from `s` to `t`. -/
def Via (step : Step σ α β) (cond : σ → α → Prop) (s t : σ) : Prop :=
  ∃ as log, Meets step cond s as ∧ run step s as = some (t, log)

theorem Via.refl (s : σ) : Via step cond s s := ⟨[], [], meets_nil s, by simp⟩

theorem Via.head {s t u : σ} {a : α} {out : List β} (hs : step s a = some (t, out))
    (hc : cond s a) (h : Via step cond t u) : Via step cond s u := by
  obtain ⟨as, log, hm, hr⟩ := h
  exact ⟨a :: as, out ++ log, (meets_cons_of_step hs as).mpr ⟨hc, hm⟩,
    run_cons.mpr ⟨t, out, log, hs, hr, rfl⟩⟩

theorem Via.trans {s t u : σ} (h : Via step cond s t) (h' : Via step cond t u) :
    Via step cond s u := by
  obtain ⟨as, l, hm, hr⟩ := h
  obtain ⟨bs, r, hm', hr'⟩ := h'
  exact ⟨as ++ bs, l ++ r, (meets_append hr).mpr ⟨hm, hm'⟩, run_append.mpr ⟨t, l, r, hr, hr', rfl⟩⟩

/-- Progress: if every state outside `Q` can step to one of smaller rank, `Q` is reached. -/
theorem exists_via_of_rank {P Q : σ → Prop} (rank : σ → ℕ)
    (hstep : ∀ s, P s → ¬ Q s → ∃ t, Via step cond s t ∧ P t ∧ rank t < rank s)
    (s : σ) (hs : P s) : ∃ t, Via step cond s t ∧ P t ∧ Q t := by
  induction hn : rank s using Nat.strongRecOn generalizing s with
  | _ n ih =>
    by_cases hq : Q s
    · exact ⟨s, .refl s, hs, hq⟩
    · obtain ⟨t, hst, ht, hlt⟩ := hstep s hs hq
      obtain ⟨u, htu, hu, hqu⟩ := ih (rank t) (hn ▸ hlt) t ht rfl
      exact ⟨u, hst.trans htu, hu, hqu⟩

/-- The first step of an execution that violates `cond`. -/
theorem exists_violation {s u : σ} {as : List α} {log : List β}
    (hrun : run step s as = some (u, log)) (h : ¬ Meets step cond s as) :
    ∃ before a after t l, as = before ++ a :: after ∧ run step s before = some (t, l) ∧
      Meets step cond s before ∧ ¬ cond t a := by
  induction as generalizing s log with
  | nil => exact absurd (meets_nil s) h
  | cons a as ih =>
    by_cases hc : cond s a
    · obtain ⟨t, out, rest, hs, hr, rfl⟩ := run_cons.mp hrun
      have hm : ¬ Meets step cond t as := by
        intro hm
        exact h ((meets_cons_of_step hs as).mpr ⟨hc, hm⟩)
      obtain ⟨before, b, after, v, l, rfl, hb, hmb, hv⟩ := ih hr hm
      refine ⟨a :: before, b, after, v, out ++ l, rfl, ?_, ?_, hv⟩
      · exact run_cons.mpr ⟨t, out, l, hs, hb, rfl⟩
      · exact (meets_cons_of_step hs before).mpr ⟨hc, hmb⟩
    · exact ⟨[], a, as, s, [], rfl, by simp, meets_nil s, hc⟩

/-- Forward simulation up to a view of the outputs: if every guarded step is matched by an
execution of the specification, so is every guarded execution. -/
theorem run_simulation {τ γ δ : Type*} {S : Step τ γ δ} {R : σ → τ → Prop}
    (view : β → Option δ)
    (hstep : ∀ s t a s' out, R s t → cond s a → step s a = some (s', out) →
      ∃ cs t', run S t cs = some (t', out.filterMap view) ∧ R s' t')
    {s s' : σ} {t : τ} {as : List α} {out : List β} (hR : R s t)
    (hmeets : Meets step cond s as) (hrun : run step s as = some (s', out)) :
    ∃ cs t', run S t cs = some (t', out.filterMap view) ∧ R s' t' := by
  induction as generalizing s t out with
  | nil =>
    obtain ⟨rfl, rfl⟩ := run_nil.mp hrun
    exact ⟨[], t, by simp, hR⟩
  | cons a as ih =>
    obtain ⟨v, o, rest, hs, hr, rfl⟩ := run_cons.mp hrun
    obtain ⟨hc, hm⟩ := meets_cons.mp hmeets
    obtain ⟨cs, w, hcs, hw⟩ := hstep s t a v o hR hc hs
    obtain ⟨ds, t', hds, ht'⟩ := ih hw (hm v o hs) hr
    refine ⟨cs ++ ds, t', run_append.mpr ⟨w, _, _, hcs, hds, ?_⟩, ht'⟩
    simp

/-- Every output is justified by the outputs before it. -/
def Justified (P : List β → β → Prop) (log : List β) : Prop :=
  ∀ before out after, log = before ++ out :: after → P before out

variable {P : List β → β → Prop} {log : List β}

@[simp] theorem justified_nil : Justified P [] := by
  intro before out after h
  simp at h

theorem justified_concat {out : β} :
    Justified P (log ++ [out]) ↔ Justified P log ∧ P log out := by
  constructor
  · intro h
    refine ⟨fun before out' after hlog => h before out' (after ++ [out]) ?_, h log out [] rfl⟩
    simp [hlog]
  · rintro ⟨hlog, hout⟩ before out' after heq
    rcases List.eq_nil_or_concat after with rfl | ⟨after, last, rfl⟩
    · obtain ⟨rfl, hlast⟩ := List.append_inj' heq rfl
      rw [← List.singleton_inj.mp hlast]
      exact hout
    · rw [List.concat_eq_append, ← List.cons_append, ← List.append_assoc] at heq
      exact hlog before out' after (List.append_inj_left' heq rfl)

theorem Justified.append (h : Justified P log) {events : List β} (hevents : ∀ e ∈ events, P log e)
    (hmono : ∀ before more e, P before e → P (before ++ more) e) :
    Justified P (log ++ events) := by
  induction events generalizing log with
  | nil => simpa using h
  | cons e events ih =>
    obtain ⟨he, hevents⟩ := List.forall_mem_cons.mp hevents
    have hnext := ih (justified_concat.mpr ⟨h, he⟩) fun e' he' => hmono _ _ _ (hevents e' he')
    rwa [List.append_assoc, List.singleton_append] at hnext

end Machine
