import Connectum.Machine

/-! Asynchronous functions as trees. At an `await` the function waits for an answer of its
environment, and others may change the state it shares with them; between two awaits it reads
and writes that state without interruption. -/

inductive Async (Q : Type) (A : Q → Type) (S R : Type) where
  | done (r : R)
  | await (q : Q) (resume : A q → Async Q A S R)
  | sync (update : S → S) (resume : S → Async Q A S R)

namespace Async
variable {Q : Type} {A : Q → Type} {S R R' : Type}

protected def bind (p : Async Q A S R) (f : R → Async Q A S R') : Async Q A S R' :=
  match p with
  | .done r => f r
  | .await q resume => .await q fun a => (resume a).bind f
  | .sync update resume => .sync update fun s => (resume s).bind f

instance : Monad (Async Q A S) where
  pure := .done
  bind := Async.bind

protected theorem bind_assoc {R'' : Type} (p : Async Q A S R) (f : R → Async Q A S R')
    (g : R' → Async Q A S R'') : p >>= f >>= g = p >>= fun r => f r >>= g := by
  induction p with
  | done r => rfl
  | await q resume ih => exact congrArg (Async.await q) (funext ih)
  | sync update resume ih => exact congrArg (Async.sync update) (funext ih)

/-- An answer, and the shared state that the function is resumed in. -/
structure Answered (Q : Type) (A : Q → Type) (S : Type) where
  query : Q
  answer : A query
  state : S

/-- The runs to completion, with arbitrary interference at each await. -/
inductive Exec : Async Q A S R → S → List (Answered Q A S) → S → R → Prop where
  | done {r : R} {s : S} : Exec (.done r) s [] s r
  | await {q : Q} {resume : A q → Async Q A S R} {s t : S} {r : R} {trace : List (Answered Q A S)}
      (a : A q) (u : S) (h : Exec (resume a) u trace t r) :
      Exec (.await q resume) s (⟨q, a, u⟩ :: trace) t r
  | sync {update : S → S} {resume : S → Async Q A S R} {s t : S} {r : R}
      {trace : List (Answered Q A S)} (h : Exec (resume s) (update s) trace t r) :
      Exec (.sync update resume) s trace t r

theorem exec_done_iff {r r' : R} {s t : S} {trace : List (Answered Q A S)} :
    Exec (.done r) s trace t r' ↔ r' = r ∧ trace = [] ∧ t = s := by
  constructor
  · intro h
    cases h
    exact ⟨rfl, rfl, rfl⟩
  · rintro ⟨rfl, rfl, rfl⟩
    exact .done

theorem exec_await_iff {q : Q} {resume : A q → Async Q A S R} {s t : S} {r : R}
    {trace : List (Answered Q A S)} :
    Exec (.await q resume) s trace t r ↔
      ∃ a u rest, trace = ⟨q, a, u⟩ :: rest ∧ Exec (resume a) u rest t r := by
  constructor
  · intro h
    cases h with
    | await a u h => exact ⟨a, u, _, rfl, h⟩
  · rintro ⟨a, u, rest, rfl, h⟩
    exact .await a u h

theorem exec_sync_iff {update : S → S} {resume : S → Async Q A S R} {s t : S} {r : R}
    {trace : List (Answered Q A S)} :
    Exec (.sync update resume) s trace t r ↔ Exec (resume s) (update s) trace t r := by
  constructor
  · intro h
    cases h with
    | sync h => exact h
  · exact .sync

theorem exec_bind {p : Async Q A S R} {f : R → Async Q A S R'} {s t : S}
    {trace : List (Answered Q A S)} {r : R'} (h : Exec (p >>= f) s trace t r) :
    ∃ first u x rest, Exec p s first u x ∧ Exec (f x) u rest t r ∧ trace = first ++ rest := by
  induction p generalizing s trace with
  | done x => exact ⟨[], s, x, trace, .done, h, rfl⟩
  | await q resume ih =>
    cases h with
    | await a u h =>
      obtain ⟨first, v, x, rest, hfirst, hrest, rfl⟩ := ih a h
      exact ⟨_, v, x, rest, .await a u hfirst, hrest, rfl⟩
  | sync update resume ih =>
    cases h with
    | sync h =>
      obtain ⟨first, v, x, rest, hfirst, hrest, rfl⟩ := ih s h
      exact ⟨first, v, x, rest, .sync hfirst, hrest, rfl⟩

theorem Exec.bind {p : Async Q A S R} {f : R → Async Q A S R'} {s u t : S} {x : R} {r : R'}
    {first rest : List (Answered Q A S)} (hp : Exec p s first u x) (hf : Exec (f x) u rest t r) :
    Exec (p >>= f) s (first ++ rest) t r := by
  induction hp with
  | done => exact hf
  | await a u _ ih => exact .await a u (ih hf)
  | sync _ ih => exact .sync (ih hf)

/-- The run in an environment that answers by a function and changes the state by `elapse`. -/
def eval (answer : (q : Q) → A q) (elapse : Q → S → S) : Async Q A S R → S → S × R
  | .done r, s => (s, r)
  | .await q resume, s => eval answer elapse (resume (answer q)) (elapse q s)
  | .sync update resume, s => eval answer elapse (resume s) (update s)

variable {env : (q : Q) → A q → S → S → Prop}

/-- The runs to completion in an environment that answers and changes the state as `env` allows. -/
inductive ExecIn (env : (q : Q) → A q → S → S → Prop) :
    Async Q A S R → S → List (Answered Q A S) → S → R → Prop where
  | done {r : R} {s : S} : ExecIn env (.done r) s [] s r
  | await {q : Q} {resume : A q → Async Q A S R} {s t : S} {r : R} {trace : List (Answered Q A S)}
      (a : A q) (u : S) (henv : env q a s u) (h : ExecIn env (resume a) u trace t r) :
      ExecIn env (.await q resume) s (⟨q, a, u⟩ :: trace) t r
  | sync {update : S → S} {resume : S → Async Q A S R} {s t : S} {r : R}
      {trace : List (Answered Q A S)} (h : ExecIn env (resume s) (update s) trace t r) :
      ExecIn env (.sync update resume) s trace t r

theorem execIn_done_iff {r r' : R} {s t : S} {trace : List (Answered Q A S)} :
    ExecIn env (.done r) s trace t r' ↔ r' = r ∧ trace = [] ∧ t = s := by
  constructor
  · intro h
    cases h
    exact ⟨rfl, rfl, rfl⟩
  · rintro ⟨rfl, rfl, rfl⟩
    exact .done

theorem execIn_await_iff {q : Q} {resume : A q → Async Q A S R} {s t : S} {r : R}
    {trace : List (Answered Q A S)} :
    ExecIn env (.await q resume) s trace t r ↔
      ∃ a u rest, trace = ⟨q, a, u⟩ :: rest ∧ env q a s u ∧ ExecIn env (resume a) u rest t r := by
  constructor
  · intro h
    cases h with
    | await a u henv h => exact ⟨a, u, _, rfl, henv, h⟩
  · rintro ⟨a, u, rest, rfl, henv, h⟩
    exact .await a u henv h

theorem execIn_sync_iff {update : S → S} {resume : S → Async Q A S R} {s t : S} {r : R}
    {trace : List (Answered Q A S)} :
    ExecIn env (.sync update resume) s trace t r ↔
      ExecIn env (resume s) (update s) trace t r := by
  constructor
  · intro h
    cases h with
    | sync h => exact h
  · exact .sync

theorem execIn_sync_done_iff {update : S → S} {result : S → R} {s t : S} {r : R}
    {trace : List (Answered Q A S)} :
    ExecIn env (.sync update fun s => .done (result s)) s trace t r ↔
      r = result s ∧ trace = [] ∧ t = update s := by
  rw [execIn_sync_iff, execIn_done_iff]

theorem execIn_bind_iff {p : Async Q A S R} {f : R → Async Q A S R'} {s t : S}
    {trace : List (Answered Q A S)} {r : R'} :
    ExecIn env (p >>= f) s trace t r ↔ ∃ first u x rest, ExecIn env p s first u x ∧
      ExecIn env (f x) u rest t r ∧ trace = first ++ rest := by
  induction p generalizing s trace with
  | done x =>
    constructor
    · exact fun h => ⟨[], s, x, trace, .done, h, rfl⟩
    · rintro ⟨first, u, y, rest, hfirst, hrest, rfl⟩
      obtain ⟨rfl, rfl, rfl⟩ := execIn_done_iff.mp hfirst
      exact hrest
  | await q resume ih =>
    constructor
    · intro h
      obtain ⟨a, u, rest, rfl, henv, h⟩ := execIn_await_iff.mp h
      obtain ⟨first, v, x, rest, hfirst, hrest, rfl⟩ := (ih a).mp h
      exact ⟨_, v, x, rest, .await a u henv hfirst, hrest, rfl⟩
    · rintro ⟨first, v, x, rest, hfirst, hrest, rfl⟩
      obtain ⟨a, u, first, rfl, henv, hfirst⟩ := execIn_await_iff.mp hfirst
      exact .await a u henv ((ih a).mpr ⟨first, v, x, rest, hfirst, hrest, rfl⟩)
  | sync update resume ih =>
    constructor
    · intro h
      obtain ⟨first, v, x, rest, hfirst, hrest, rfl⟩ := (ih s).mp (execIn_sync_iff.mp h)
      exact ⟨first, v, x, rest, .sync hfirst, hrest, rfl⟩
    · rintro ⟨first, v, x, rest, hfirst, hrest, rfl⟩
      exact .sync ((ih s).mpr ⟨first, v, x, rest, execIn_sync_iff.mp hfirst, hrest, rfl⟩)

/-- The run in an environment that answers by a function of the state. -/
def runIn (respond : (q : Q) → S → A q × S) :
    Async Q A S R → S → List (Answered Q A S) × S × R
  | .done r, s => ([], s, r)
  | .await q resume, s =>
    let (a, u) := respond q s
    let (trace, t, r) := runIn respond (resume a) u
    (⟨q, a, u⟩ :: trace, t, r)
  | .sync update resume, s => runIn respond (resume s) (update s)

theorem execIn_runIn {respond : (q : Q) → S → A q × S}
    (h : ∀ q s, env q (respond q s).1 s (respond q s).2) (p : Async Q A S R) (s : S) :
    ExecIn env p s (runIn respond p s).1 (runIn respond p s).2.1 (runIn respond p s).2.2 := by
  induction p generalizing s with
  | done r => exact .done
  | await q resume ih => exact .await _ _ (h q s) (ih _ _)
  | sync update resume ih => exact .sync (ih _ _)

theorem exec_runIn (respond : (q : Q) → S → A q × S) (p : Async Q A S R) (s : S) :
    Exec p s (runIn respond p s).1 (runIn respond p s).2.1 (runIn respond p s).2.2 := by
  induction p generalizing s with
  | done r => exact .done
  | await q resume ih => exact .await _ _ (ih _ _)
  | sync update resume ih => exact .sync (ih _ _)

theorem answer_of_mem_runIn {respond : (q : Q) → S → A q × S} {p : Async Q A S R} {s : S}
    {x : Answered Q A S} (hx : x ∈ (runIn respond p s).1) :
    ∃ u, x.answer = (respond x.query u).1 := by
  induction p generalizing s with
  | done r => exact absurd hx List.not_mem_nil
  | await q resume ih =>
    rcases List.mem_cons.mp hx with rfl | hx
    · exact ⟨s, rfl⟩
    · exact ih _ hx
  | sync update resume ih => exact ih s hx

/-- The beginnings of the runs in an environment, as far as they are answered. -/
def Traces (env : (q : Q) → A q → S → S → Prop) :
    Async Q A S R → S → List (Answered Q A S) → Prop
  | _, _, [] => True
  | .done _, _, _ :: _ => False
  | .await q resume, s, x :: trace =>
    ∃ a, x = ⟨q, a, x.state⟩ ∧ env q a s x.state ∧ Traces env (resume a) x.state trace
  | .sync update resume, s, x :: trace => Traces env (resume s) (update s) (x :: trace)

@[simp] theorem traces_nil (p : Async Q A S R) (s : S) : Traces env p s [] := by
  cases p <;> trivial

theorem not_traces_done_cons {r : R} {s : S} {x : Answered Q A S}
    {trace : List (Answered Q A S)} : ¬ Traces env (.done r : Async Q A S R) s (x :: trace) := id

theorem traces_await_cons {q : Q} {resume : A q → Async Q A S R} {s : S} {x : Answered Q A S}
    {trace : List (Answered Q A S)} :
    Traces env (.await q resume) s (x :: trace) ↔
      ∃ a u, x = ⟨q, a, u⟩ ∧ env q a s u ∧ Traces env (resume a) u trace := by
  constructor
  · rintro ⟨a, hx, henv, h⟩
    exact ⟨a, x.state, hx, henv, h⟩
  · rintro ⟨a, u, rfl, henv, h⟩
    exact ⟨a, rfl, henv, h⟩

theorem traces_sync {update : S → S} {resume : S → Async Q A S R} {s : S}
    {trace : List (Answered Q A S)} :
    Traces env (.sync update resume) s trace ↔ Traces env (resume s) (update s) trace := by
  cases trace with
  | nil => simp
  | cons x trace => exact Iff.rfl

theorem ExecIn.traces {p : Async Q A S R} {s t : S} {r : R} {trace : List (Answered Q A S)}
    (h : ExecIn env p s trace t r) : Traces env p s trace := by
  induction h with
  | done => trivial
  | await a u henv _ ih => exact traces_await_cons.mpr ⟨a, u, rfl, henv, ih⟩
  | sync _ ih => exact traces_sync.mpr ih

/-- From states in `I`, which the function keeps, it asks only what satisfies `P`. -/
def Asks (I : S → Prop) (P : Q → Prop) : Async Q A S R → Prop
  | .done _ => True
  | .await q resume => P q ∧ ∀ a, Asks I P (resume a)
  | .sync update resume => ∀ s, I s → I (update s) ∧ Asks I P (resume s)

section Asks
variable {I : S → Prop} {P : Q → Prop}

theorem Asks.bind {p : Async Q A S R} {f : R → Async Q A S R'} (hp : Asks I P p)
    (hf : ∀ r, Asks I P (f r)) : Asks I P (p >>= f) := by
  induction p with
  | done r => exact hf r
  | await q resume ih => exact ⟨hp.1, fun a => ih a (hp.2 a)⟩
  | sync update resume ih =>
    intro s hs
    obtain ⟨hupdate, hresume⟩ := hp s hs
    exact ⟨hupdate, ih s hresume⟩

theorem Asks.mono {P' : Q → Prop} (himp : ∀ q, P q → P' q) {p : Async Q A S R}
    (h : Asks I P p) : Asks I P' p := by
  induction p with
  | done r => trivial
  | await q resume ih => exact ⟨himp q h.1, fun a => ih a (h.2 a)⟩
  | sync update resume ih => exact fun s hs => ⟨(h s hs).1, ih s (h s hs).2⟩

theorem Asks.traces (henv : ∀ q a s u, env q a s u → I s → I u) {p : Async Q A S R} {s : S}
    {trace : List (Answered Q A S)} (h : Asks I P p) (hs : I s) (ht : Traces env p s trace) :
    ∀ x ∈ trace, P x.query := by
  induction p generalizing s trace with
  | done r =>
    cases trace with
    | nil => exact fun _ hx => absurd hx List.not_mem_nil
    | cons x trace => exact absurd ht not_traces_done_cons
  | await q resume ih =>
    cases trace with
    | nil => exact fun _ hx => absurd hx List.not_mem_nil
    | cons x trace =>
      obtain ⟨a, u, rfl, hu, ht⟩ := traces_await_cons.mp ht
      exact List.forall_mem_cons.mpr ⟨h.1, ih a (h.2 a) (henv _ _ _ _ hu hs) ht⟩
  | sync update resume ih =>
    obtain ⟨hupdate, hresume⟩ := h s hs
    exact ih s hresume hupdate (traces_sync.mp ht)

end Asks

/-- A function inside one that shares more: its state is a part of the state around it, and its
questions are among those asked there. -/
def embed {Q' S' : Type} {A' : Q' → Type} (ask : Q → Q') (answer : (q : Q) → A' (ask q) → A q)
    (get : S' → S) (set : S → S' → S') : Async Q A S R → Async Q' A' S' R
  | .done r => .done r
  | .await q resume => .await (ask q) fun a => embed ask answer get set (resume (answer q a))
  | .sync update resume =>
    .sync (fun s => set (update (get s)) s) fun s => embed ask answer get set (resume (get s))

/-- What its questions and its writes keep, it keeps, and it asks no others. -/
theorem execIn_embed {Q' S' : Type} {A' : Q' → Type} {env' : (q : Q') → A' q → S' → S' → Prop}
    {ask : Q → Q'} {answer : (q : Q) → A' (ask q) → A q} {get : S' → S} {set : S → S' → S'}
    (I : S' → Prop) (henv : ∀ q a s u, env' (ask q) a s u → I s → I u)
    (hset : ∀ part s, I s → I (set part s)) {p : Async Q A S R} {s t : S'} {r : R}
    {trace : List (Answered Q' A' S')} (h : ExecIn env' (p.embed ask answer get set) s trace t r)
    (hs : I s) : I t ∧ ∀ x ∈ trace, ∃ q, x.query = ask q := by
  induction p generalizing s trace with
  | done r' =>
    obtain ⟨-, rfl, rfl⟩ := execIn_done_iff.mp h
    exact ⟨hs, fun _ hx => absurd hx List.not_mem_nil⟩
  | await q resume ih =>
    obtain ⟨a, u, rest, rfl, hu, h⟩ := execIn_await_iff.mp h
    obtain ⟨ht, hrest⟩ := ih _ h (henv q a s u hu hs)
    exact ⟨ht, List.forall_mem_cons.mpr ⟨⟨q, rfl⟩, hrest⟩⟩
  | sync update resume ih => exact ih _ (execIn_sync_iff.mp h) (hset _ s hs)

/-- Up to the next await. -/
def settle : Async Q A S R → S → Async Q A S R × S
  | .done r, s => (.done r, s)
  | .await q resume, s => (.await q resume, s)
  | .sync update resume, s => settle (resume s) (update s)

end Async

/-- Functions that share a state and take turns. -/
structure Pool (Q : Type) (A : Q → Type) (S R : Type) where
  shared : S
  tasks : List (Async Q A S R)

namespace Pool
variable {C E Q : Type} {A : Q → Type} {S R : Type}

/-- A call, an answer to one of the calls, or a change that the environment makes. -/
inductive Action (C E Q : Type) (A : Q → Type) where
  | call (c : C)
  | resume (i : ℕ) (answer : (q : Q) → A q)
  | change (e : E)

inductive Event (C Q : Type) (A : Q → Type) (S R : Type) where
  | called (i : ℕ) (c : C)
  | answered (i : ℕ) (event : Async.Answered Q A S)
  | finished (i : ℕ) (r : R) (s : S)

def finished (i : ℕ) (task : Async Q A S R) (s : S) : List (Event C Q A S R) :=
  match task with
  | .done r => [.finished i r s]
  | _ => []

def step (program : C → Async Q A S R) (environment : E → S → Option S) :
    Machine.Step (Pool Q A S R) (Action C E Q A) (Event C Q A S R)
  | pool, .call c =>
    let (task, shared) := (program c).settle pool.shared
    some (⟨shared, pool.tasks ++ [task]⟩,
      .called pool.tasks.length c :: finished pool.tasks.length task shared)
  | pool, .resume i answer =>
    match pool.tasks[i]? with
    | some (.await q resume) =>
      let (task, shared) := (resume (answer q)).settle pool.shared
      some (⟨shared, pool.tasks.set i task⟩,
        .answered i ⟨q, answer q, pool.shared⟩ :: finished i task shared)
    | _ => none
  | pool, .change e => (environment e pool.shared).map fun s => ({ pool with shared := s }, [])

/-- What every turn keeps: `I` of the shared state and the log, and `T` of the log and each task. -/
structure Kept (program : C → Async Q A S R) (environment : E → S → Option S)
    (I : S → List (Event C Q A S R) → Prop)
    (T : ℕ → List (Event C Q A S R) → Async Q A S R → Prop) : Prop where
  mono : ∀ i log more task, T i log task → T i (log ++ more) task
  call : ∀ i c s log task t, I s log → (program c).settle s = (task, t) →
    I t (log ++ .called i c :: finished i task t) ∧
      T i (log ++ .called i c :: finished i task t) task
  resume : ∀ i q resume answer s log task t, I s log → T i log (.await q resume) →
    (resume answer).settle s = (task, t) →
    I t (log ++ .answered i ⟨q, answer, s⟩ :: finished i task t) ∧
      T i (log ++ .answered i ⟨q, answer, s⟩ :: finished i task t) task
  change : ∀ e s log t, I s log → environment e s = some t → I t log

variable {program : C → Async Q A S R} {environment : E → S → Option S}
  {I : S → List (Event C Q A S R) → Prop} {T : ℕ → List (Event C Q A S R) → Async Q A S R → Prop}
  {pool pool' : Pool Q A S R} {log out : List (Event C Q A S R)} {action : Action C E Q A}

theorem Kept.step (h : Kept program environment I T)
    (hinv : I pool.shared log ∧ ∀ i task, pool.tasks[i]? = some task → T i log task)
    (hstep : Pool.step program environment pool action = some (pool', out)) :
    I pool'.shared (log ++ out) ∧
      ∀ i task, pool'.tasks[i]? = some task → T i (log ++ out) task := by
  obtain ⟨hshared, htasks⟩ := hinv
  cases action with
  | call c =>
    obtain ⟨rfl, rfl⟩ := Prod.mk.inj (Option.some.inj hstep)
    obtain ⟨hI, hT⟩ := h.call pool.tasks.length c _ log _ _ hshared rfl
    refine ⟨hI, fun i task htask => ?_⟩
    rcases Nat.lt_trichotomy i pool.tasks.length with hi | rfl | hi
    · rw [List.getElem?_append_left hi] at htask
      exact h.mono _ _ _ _ (htasks i task htask)
    · rw [List.getElem?_concat_length] at htask
      exact Option.some.inj htask ▸ hT
    · rw [List.getElem?_eq_none (by rw [List.length_append]; exact hi)] at htask
      exact absurd htask (by simp)
  | resume i answer =>
    simp only [Pool.step] at hstep
    split at hstep
    next q resume htask =>
      obtain ⟨rfl, rfl⟩ := Prod.mk.inj (Option.some.inj hstep)
      obtain ⟨hI, hT⟩ := h.resume i q resume _ _ log _ _ hshared (htasks i _ htask) rfl
      refine ⟨hI, fun j task hj => ?_⟩
      rcases eq_or_ne i j with rfl | hij
      · rw [List.getElem?_set_self (List.getElem?_eq_some_iff.mp htask).1] at hj
        exact Option.some.inj hj ▸ hT
      · rw [List.getElem?_set_ne hij] at hj
        exact h.mono _ _ _ _ (htasks j task hj)
    next => simp at hstep
  | change e =>
    obtain ⟨s, hs, hstep⟩ := Option.map_eq_some_iff.mp hstep
    obtain ⟨rfl, rfl⟩ := Prod.mk.inj hstep
    rw [List.append_nil]
    exact ⟨h.change e _ log s hshared hs, htasks⟩

theorem Kept.run (h : Kept program environment I T) {s : S} (hs : I s [])
    {actions : List (Action C E Q A)}
    (hrun : Machine.run (Pool.step program environment) ⟨s, []⟩ actions = some (pool, log)) :
    I pool.shared log ∧ ∀ i task, pool.tasks[i]? = some task → T i log task := by
  have hinv := Machine.run_invariant
    (I := fun pool log => I pool.shared log ∧ ∀ i task, pool.tasks[i]? = some task → T i log task)
    (l := []) (fun _ _ _ _ _ hinv hstep => h.step hinv hstep) ⟨hs, by simp⟩ hrun
  simpa using hinv

end Pool
