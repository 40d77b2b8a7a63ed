import Connectum.Async

/-! Functions over variables that nobody else writes, and marks that show what a function does
between two awaits. -/
namespace Async
variable {Q M : Type} {A : Q → Type} {S R R' : Type}

/-- A function without variables, among variables that it does not use. -/
def lift : Async Q A Unit R → Async Q A S R
  | .done r => .done r
  | .await q resume => .await q fun a => lift (resume a)
  | .sync update resume => lift (resume (update ()))

protected theorem bind_done (p : Async Q A S R) : p >>= .done = p := by
  induction p with
  | done r => rfl
  | await q resume ih => exact congrArg (Async.await q) (funext ih)
  | sync update resume ih => exact congrArg (Async.sync update) (funext ih)

/-- The run from a state of the variables, which are the function's own. -/
def run : Async Q A S R → S → Async Q A Unit R
  | .done r, _ => .done r
  | .await q resume, s => .await q fun a => run (resume a) s
  | .sync update resume, s => run (resume s) (update s)

/-- What is awaited, and marks, which are answered at once. -/
inductive Marked (Q M : Type) where
  | query (q : Q)
  | mark (m : M)

def Marked.Answer (A : Q → Type) : Marked Q M → Type
  | .query q => A q
  | .mark _ => Unit

def mark (m : M) (p : Async (Marked Q M) (Marked.Answer A) S R) :
    Async (Marked Q M) (Marked.Answer A) S R :=
  .await (.mark m) fun _ => p

def unmarked : Async Q A S R → Async (Marked Q M) (Marked.Answer A) S R
  | .done r => .done r
  | .await q resume => .await (.query q) fun a => unmarked (resume a)
  | .sync update resume => .sync update fun s => unmarked (resume s)

def erase : Async (Marked Q M) (Marked.Answer A) S R → Async Q A S R
  | .done r => .done r
  | .await (.query q) resume => .await q fun a => erase (resume a)
  | .await (.mark _) resume => erase (resume ())
  | .sync update resume => .sync update fun s => erase (resume s)

theorem erase_unmarked (p : Async Q A S R) : (unmarked (M := M) p).erase = p := by
  induction p with
  | done r => rfl
  | await q resume ih => exact congrArg (Async.await q) (funext ih)
  | sync update resume ih => exact congrArg (Async.sync update) (funext ih)

theorem erase_bind (p : Async (Marked Q M) (Marked.Answer A) S R)
    (f : R → Async (Marked Q M) (Marked.Answer A) S R') :
    (p >>= f).erase = p.erase >>= fun r => (f r).erase := by
  induction p with
  | done r => rfl
  | await q resume ih =>
    cases q with
    | query q => exact congrArg (Async.await q) (funext ih)
    | mark m => exact ih ()
  | sync update resume ih => exact congrArg (Async.sync update) (funext ih)

theorem erase_run (p : Async (Marked Q M) (Marked.Answer A) S R) (s : S) :
    (p.run s).erase = p.erase.run s := by
  induction p generalizing s with
  | done r => rfl
  | await q resume ih =>
    cases q with
    | query q => exact congrArg (Async.await q) (funext fun a => ih a s)
    | mark m => exact ih () s
  | sync update resume ih => exact ih s (update s)

/-- Two functions over different variables that go on alike after a part that uses neither. -/
theorem run_lift_bind {S' : Type} {p : Async Q A Unit R} {f : R → Async Q A S R'}
    {g : R → Async Q A S' R'} {s : S} {t : S'} (h : ∀ r, (f r).run s = (g r).run t) :
    (lift p >>= f).run s = (lift p >>= g).run t := by
  induction p with
  | done r => exact h r
  | await q resume ih => exact congrArg (Async.await q) (funext ih)
  | sync update resume ih => exact ih (update ())

/-- The beginnings of the runs of a function without variables, and the complete runs with what
they end with. -/
inductive Runs : Async Q A Unit R → List (Answered Q A Unit) → Option R → Prop where
  | begins {p : Async Q A Unit R} : Runs p [] none
  | done {r : R} : Runs (.done r) [] (some r)
  | await {q : Q} {resume : A q → Async Q A Unit R} {trace : List (Answered Q A Unit)}
      {o : Option R} (a : A q) (h : Runs (resume a) trace o) :
      Runs (.await q resume) (⟨q, a, ()⟩ :: trace) o
  | sync {update : Unit → Unit} {resume : Unit → Async Q A Unit R}
      {trace : List (Answered Q A Unit)} {o : Option R} (h : Runs (resume (update ())) trace o) :
      Runs (.sync update resume) trace o

section Runs
variable {q : Q} {resume : A q → Async Q A Unit R} {x : Answered Q A Unit}
  {trace : List (Answered Q A Unit)} {o : Option R}

theorem runs_await_cons :
    Runs (.await q resume) (x :: trace) o ↔ ∃ a, x = ⟨q, a, ()⟩ ∧ Runs (resume a) trace o := by
  constructor
  · intro h
    cases h with
    | await a h => exact ⟨a, rfl, h⟩
  · rintro ⟨a, rfl, h⟩
    exact .await a h

theorem runs_await_nil : Runs (.await q resume) [] o ↔ o = none := by
  constructor
  · intro h
    cases h
    rfl
  · rintro rfl
    exact .begins

theorem runs_done_some {r r' : R} :
    Runs (.done r) trace (some r') → trace = [] ∧ r' = r := by
  intro h
  cases h
  exact ⟨rfl, rfl⟩

theorem runs_await_some {r : R} : Runs (.await q resume) trace (some r) →
    ∃ a rest, trace = ⟨q, a, ()⟩ :: rest ∧ Runs (resume a) rest (some r) := by
  intro h
  cases h with
  | await a h => exact ⟨a, _, rfl, h⟩

/-- A function whose awaits all have an answer goes on to its end from everywhere. -/
theorem Asks.completes {p : Async Q A Unit R}
    (h : Asks (fun _ => True) (fun q => Nonempty (A q)) p) : ∃ trace r, Runs p trace (some r) := by
  induction p with
  | done r => exact ⟨[], r, .done⟩
  | await q resume ih =>
    obtain ⟨a⟩ := h.1
    obtain ⟨trace, r, hrun⟩ := ih a (h.2 a)
    exact ⟨_, r, .await a hrun⟩
  | sync update resume ih =>
    obtain ⟨trace, r, hrun⟩ := ih (update ()) (h (update ()) trivial).2
    exact ⟨trace, r, .sync hrun⟩

theorem Asks.extends {p : Async Q A Unit R} (h : Asks (fun _ => True) (fun q => Nonempty (A q)) p)
    (hrun : Runs p trace none) : ∃ rest r, Runs p (trace ++ rest) (some r) := by
  induction p generalizing trace with
  | done r =>
    cases hrun
    exact ⟨[], r, .done⟩
  | await q resume ih =>
    cases hrun with
    | begins => exact h.completes
    | await a hrun =>
      obtain ⟨rest, r, hrest⟩ := ih a (h.2 a) hrun
      exact ⟨rest, r, .await a hrest⟩
  | sync update resume ih =>
    cases hrun with
    | begins => exact h.completes
    | sync hrun =>
      obtain ⟨rest, r, hrest⟩ := ih _ (h _ trivial).2 hrun
      exact ⟨rest, r, .sync hrest⟩

theorem Asks.run {I : S → Prop} {P : Q → Prop} {p : Async Q A S R} {s : S} (h : Asks I P p)
    (hs : I s) : Asks (fun _ => True) P (p.run s) := by
  induction p generalizing s with
  | done r => trivial
  | await q resume ih => exact ⟨h.1, fun a => ih a (h.2 a) hs⟩
  | sync update resume ih =>
    obtain ⟨hupdate, hresume⟩ := h s hs
    exact ih s hresume hupdate

theorem Asks.runs {P : Q → Prop} {p : Async Q A Unit R} (h : Asks (fun _ => True) P p)
    (hrun : Runs p trace o) : ∀ x ∈ trace, P x.query := by
  induction hrun with
  | begins => exact fun _ hx => absurd hx List.not_mem_nil
  | done => exact fun _ hx => absurd hx List.not_mem_nil
  | await a _ ih => exact List.forall_mem_cons.mpr ⟨h.1, ih (h.2 a)⟩
  | sync _ ih => exact ih (h _ trivial).2

end Runs

/-- The marks of a run. -/
def marks (trace : List (Answered (Marked Q M) (Marked.Answer A) S)) : List M :=
  trace.filterMap fun x => match x.query with
    | .query _ => none
    | .mark m => some m

end Async
