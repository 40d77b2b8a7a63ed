import Connectum.Machine

/-! A resource that is acquired and released: the specification automaton of a single
connection and what its histories satisfy. -/
namespace Session

inductive Event where
  | acquire
  | acquired
  | refused
  | release
  deriving DecidableEq, Repr

inductive State where
  | down
  | acquiring
  | failed
  | up
  deriving DecidableEq, Repr

/-- A failed acquisition is cleaned up by a release of its own. -/
def step : Machine.Step State Event Event
  | .down, .acquire => some (.acquiring, [.acquire])
  | .acquiring, .acquired => some (.up, [.acquired])
  | .acquiring, .refused => some (.failed, [.refused])
  | .failed, .release => some (.down, [.release])
  | .up, .release => some (.down, [.release])
  | _, _ => none

/-- Releases of a history before its next acquisition. -/
def releases (history : List Event) : ℕ :=
  (history.takeWhile (· ≠ .acquire)).count .release

/-- Every acquired resource is released at most once, and exactly once before the next
acquisition. -/
def ReleasedOnce (history : List Event) : Prop :=
  ∀ before after, history = before ++ .acquired :: after →
    releases after ≤ 1 ∧ (.acquire ∈ after → releases after = 1)

theorem step_output {s t : State} {e : Event} {out : List Event}
    (h : step s e = some (t, out)) : out = [e] := by
  unfold step at h
  split at h <;> simp at h <;> exact h.2.symm

theorem run_output {s t : State} {es log : List Event}
    (h : Machine.run step s es = some (t, log)) : log = es := by
  induction es generalizing s log with
  | nil => exact (Machine.run_nil.mp h).2
  | cons e es ih =>
    obtain ⟨v, out, rest, hs, hr, rfl⟩ := Machine.run_cons.mp h
    rw [step_output hs, ih hr]
    rfl

/-- A released resource is released again only after the next acquisition. -/
theorem releases_down {t : State} {es log : List Event}
    (h : Machine.run step .down es = some (t, log)) : releases es = 0 := by
  cases es with
  | nil => rfl
  | cons e es =>
    obtain ⟨v, out, rest, hs, -, -⟩ := Machine.run_cons.mp h
    cases e with
    | acquire => rfl
    | _ => simp [step] at hs

theorem releases_up {t : State} {es log : List Event}
    (h : Machine.run step .up es = some (t, log)) :
    releases es ≤ 1 ∧ (.acquire ∈ es → releases es = 1) := by
  cases es with
  | nil => simp [releases]
  | cons e es =>
    obtain ⟨v, out, rest, hs, hr, -⟩ := Machine.run_cons.mp h
    cases e with
    | release =>
      obtain ⟨rfl, -⟩ := Prod.mk.inj (Option.some.inj hs)
      have hzero := releases_down hr
      have hone : releases (.release :: es) = releases es + 1 := by simp [releases]
      omega
    | _ => simp [step] at hs

theorem step_acquired {s t : State} {out : List Event}
    (h : step s .acquired = some (t, out)) : t = .up := by
  cases s <;> simp [step] at h
  exact h.1.symm

theorem releasedOnce_of_run {s t : State} {es log : List Event}
    (h : Machine.run step s es = some (t, log)) : ReleasedOnce log := by
  rintro before after hlog
  rw [run_output h] at hlog
  subst hlog
  obtain ⟨v, l, r, -, hr, -⟩ := Machine.run_append.mp h
  obtain ⟨u, out, rest, hs, hafter, -⟩ := Machine.run_cons.mp hr
  rw [step_acquired hs] at hafter
  exact releases_up hafter

end Session
