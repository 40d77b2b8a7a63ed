import Connectum.Async

/-! What holds of every run of an asynchronous function: of its questions with their answers, and
of its result. -/
namespace Async

variable {Q : Type} {A : Q → Type} {S R R' : Type} {env : (q : Q) → A q → S → S → Prop}

/-- In every run the trace and the result satisfy `P`. -/
def Yields (env : (q : Q) → A q → S → S → Prop) (P : List (Answered Q A S) → R → Prop)
    (p : Async Q A S R) : Prop :=
  ∀ s trace t r, ExecIn env p s trace t r → P trace r

variable {P P' : List (Answered Q A S) → R → Prop} {p : Async Q A S R}

theorem Yields.mono (h : Yields env P p) (himp : ∀ trace r, P trace r → P' trace r) :
    Yields env P' p :=
  fun s trace t r hrun => himp trace r (h s trace t r hrun)

theorem yields_done {r : R} (h : P [] r) : Yields env P (.done r) := by
  intro s trace t r' hrun
  obtain ⟨rfl, rfl, -⟩ := execIn_done_iff.mp hrun
  exact h

theorem yields_await {q : Q} {resume : A q → Async Q A S R}
    (h : ∀ a u, Yields env (fun trace r => P (⟨q, a, u⟩ :: trace) r) (resume a)) :
    Yields env P (.await q resume) := by
  intro s trace t r hrun
  obtain ⟨a, u, rest, rfl, -, hrun⟩ := execIn_await_iff.mp hrun
  exact h a u u rest t r hrun

theorem yields_sync {update : S → S} {resume : S → Async Q A S R}
    (h : ∀ s, Yields env P (resume s)) : Yields env P (.sync update resume) :=
  fun s trace t r hrun => h s (update s) trace t r (execIn_sync_iff.mp hrun)

/-- What the first part yields is what the second one starts with. -/
theorem Yields.bind {P₂ : List (Answered Q A S) → R' → Prop} {f : R → Async Q A S R'}
    (h : Yields env P p)
    (hf : ∀ first x, P first x → Yields env (fun rest r => P₂ (first ++ rest) r) (f x)) :
    Yields env P₂ (p >>= f) := by
  intro s trace t r hrun
  obtain ⟨first, u, x, rest, hfirst, hrest, rfl⟩ := execIn_bind_iff.mp hrun
  exact hf first x (h s first u x hfirst) u rest t r hrest

end Async
