import Connectum.Core.ShutdownManager
import Connectum.Machine
import Mathlib.Data.List.Count
import Mathlib.Data.List.Nodup

/-! One `executeAll()`: the modules with their promises, and the order in which the hooks are
called. -/
namespace Connectum.Core.ShutdownManager
open PathSearch Relation Machine

/-- How a hook ends: with an exception of the call itself, or with its promise. -/
inductive HookOutcome where
  | throws
  | rejects
  | resolves
  deriving DecidableEq, Repr

/-- `waiting` is the await of the dependencies, `running` that of the hooks. -/
inductive Phase where
  | waiting
  | running
  | completed
  | failed
  deriving DecidableEq, Repr

/-- A promise of `_pendingPromises`, and the hooks of the module whose promises have not settled. -/
structure Module where
  phase : Phase
  pending : List ℕ
  deriving DecidableEq, Repr

/-- Hooks are numbered in their module. -/
inductive Event where
  | invoked (name : String) (i : ℕ)
  | completed (name : String) (i : ℕ)
  | failed (name : String) (i : ℕ)
  | resolved
  | rejected
  deriving DecidableEq, Repr

structure Execution where
  pendingPromises : List (String × Module) := []
  settled : Bool := false
  log : List Event := []
  deriving DecidableEq, Repr

inductive Action where
  | settle (name : String) (i : ℕ)
  | resume (name : String)
  | settleAll
  deriving DecidableEq, Repr

/-- The calls of `moduleHandlers.map((f) => f())`: an exception ends them. -/
def invoke (outcome : ℕ → HookOutcome) : List ℕ → List ℕ
  | [] => []
  | i :: rest => if outcome i = .throws then [i] else i :: invoke outcome rest

section
variable {Hook : Type*} (manager : ShutdownManager Hook) (outcome : String → ℕ → HookOutcome)

def hookCount (name : String) : ℕ := (manager.moduleHandlers name).length

def moduleOf (s : Execution) (name : String) : Option Module := s.pendingPromises.lookup name

def phaseOf (s : Execution) (name : String) : Option Phase := (moduleOf s name).map Module.phase

def setModule (s : Execution) (name : String) (m : Module) (events : List Event) : Execution :=
  { s with pendingPromises := JsMap.set s.pendingPromises name m, log := s.log ++ events }

/-- A module whose dependencies are done calls its hooks. -/
def callHooks (s : Execution) (name : String) : Execution :=
  let invoked := invoke (outcome name) (List.range (manager.hookCount name))
  let threw := invoked.filter fun i => outcome name i = .throws
  let phase := if threw ≠ [] then .failed else if invoked = [] then .completed else .running
  setModule s name ⟨phase, invoked.filter fun i => outcome name i ≠ .throws⟩
    (invoked.map (.invoked name) ++ threw.map (.failed name))

/-- The rest of `_executeModule` after its calls for the dependencies. -/
def enter (s : Execution) (name : String) : Execution :=
  if dependencies manager.dependencyTree name = [] then manager.callHooks outcome s name
  else setModule s name ⟨.waiting, []⟩ []

/-- The synchronous part of `_executeModule`; `none` if the recursion goes deeper than `depth`. -/
def executeModule : ℕ → Execution → String → Option Execution
  | 0, _, _ => none
  | depth + 1, s, name =>
    if (moduleOf s name).isSome then some s
    else do
      let s ← (dependencies manager.dependencyTree name).foldlM (executeModule depth) s
      return manager.enter outcome s name

/-- The synchronous part of `executeAll`. -/
def executeAll (depth : ℕ) : Option Execution :=
  if manager.hooks = [] then some { settled := true, log := [.resolved] }
  else (manager.hooks.map Prod.fst).foldlM (manager.executeModule outcome depth) {}

/-- A promise settles, or a function goes on after its await. -/
def step (s : Execution) : Action → Option Execution
  | .settle name i =>
    match moduleOf s name with
    | none => none
    | some m =>
      if i ∉ m.pending then none
      else if outcome name i = .resolves then
        some (setModule s name { m with pending := m.pending.erase i } [.completed name i])
      else some (setModule s name ⟨.failed, m.pending.erase i⟩ [.failed name i])
  | .resume name =>
    match moduleOf s name with
    | some ⟨.waiting, _⟩ =>
      let phases := (dependencies manager.dependencyTree name).map (phaseOf s)
      if phases.all (· = some .completed) then some (manager.callHooks outcome s name)
      else if some .failed ∈ phases then some (setModule s name ⟨.failed, []⟩ [])
      else none
    | some ⟨.running, []⟩ => some (setModule s name ⟨.completed, []⟩ [])
    | _ => none
  | .settleAll =>
    let phases := (manager.hooks.map Prod.fst).map (phaseOf s)
    if s.settled then none
    else if phases.all (· = some .completed) then
      some { s with settled := true, log := s.log ++ [.resolved] }
    else if some .failed ∈ phases then
      some { s with settled := true, log := s.log ++ [.rejected] }
    else none

/-- The modules go on in any order. -/
def run (s : Execution) (actions : List Action) : Option Execution :=
  actions.foldlM (manager.step outcome) s

end

section
variable {behaviour : ℕ → HookOutcome} {l : List ℕ} {i : ℕ}

theorem invoke_prefix_self (behaviour : ℕ → HookOutcome) (l : List ℕ) :
    invoke behaviour l <+: l := by
  induction l with
  | nil => exact List.prefix_rfl
  | cons i l ih =>
    rw [invoke]
    split
    · exact ⟨l, rfl⟩
    · exact (List.prefix_cons_inj i).mpr ih

theorem mem_invoke_range' {k n : ℕ} :
    i ∈ invoke behaviour (List.range' k n) ↔
      k ≤ i ∧ i < k + n ∧ ∀ j, k ≤ j → j < i → behaviour j ≠ .throws := by
  induction n generalizing k with
  | zero =>
    simp [invoke]
    omega
  | succ n ih =>
    rw [List.range'_succ, invoke]
    split
    next hthrows =>
      rw [List.mem_singleton]
      constructor
      · rintro rfl
        exact ⟨Nat.le_refl i, by omega, fun j hj hji => by omega⟩
      · rintro ⟨hk, -, hall⟩
        by_contra hne
        exact hall k (Nat.le_refl k) (by omega) hthrows
    next hreturns =>
      rw [List.mem_cons, ih]
      constructor
      · rintro (rfl | ⟨hk, hi, hall⟩)
        · exact ⟨Nat.le_refl i, by omega, fun j hj hji => by omega⟩
        · refine ⟨by omega, by omega, fun j hj hji => ?_⟩
          rcases Nat.eq_or_lt_of_le hj with rfl | hj
          · exact hreturns
          · exact hall j hj hji
      · rintro ⟨hk, hi, hall⟩
        rcases Nat.eq_or_lt_of_le hk with rfl | hk
        · exact .inl rfl
        · exact .inr ⟨hk, by omega, fun j hj hji => hall j (by omega) hji⟩

/-- The hooks that are called are those with no exception before them. -/
theorem mem_invoke_range {n : ℕ} :
    i ∈ invoke behaviour (List.range n) ↔ i < n ∧ ∀ j < i, behaviour j ≠ .throws := by
  rw [List.range_eq_range', mem_invoke_range']
  simp

end

section
variable {Hook : Type*} {manager : ShutdownManager Hook} {outcome : String → ℕ → HookOutcome}
  {s t : Execution} {name other : String} {m : Module} {events : List Event}

theorem moduleOf_setModule_self : moduleOf (setModule s name m events) name = some m :=
  JsMap.lookup_set_self

theorem moduleOf_setModule_of_ne (hne : other ≠ name) :
    moduleOf (setModule s name m events) other = moduleOf s other :=
  JsMap.lookup_set_of_ne hne

theorem phaseOf_setModule_self : phaseOf (setModule s name m events) name = some m.phase := by
  rw [phaseOf, moduleOf_setModule_self, Option.map_some]

theorem phaseOf_setModule_of_ne (hne : other ≠ name) :
    phaseOf (setModule s name m events) other = phaseOf s other := by
  rw [phaseOf, moduleOf_setModule_of_ne hne, phaseOf]

theorem isSome_moduleOf_setModule (h : (moduleOf s other).isSome ∨ other = name) :
    (moduleOf (setModule s name m events) other).isSome := by
  by_cases hne : other = name
  · subst hne
    rw [moduleOf_setModule_self]
    rfl
  · rw [moduleOf_setModule_of_ne hne]
    exact h.resolve_right hne

theorem isSome_of_moduleOf_setModule (h : (moduleOf (setModule s name m events) other).isSome) :
    (moduleOf s other).isSome ∨ other = name := by
  by_cases hne : other = name
  · exact .inr hne
  · rw [moduleOf_setModule_of_ne hne] at h
    exact .inl h

/-- What must be in the log before an event: the hooks of all that a module depends on, and all
hooks before the end. -/
def Guard (manager : ShutdownManager Hook) (before : List Event) : Event → Prop
  | .invoked name _ => ∀ d, TransGen manager.DependsOn name d →
      ∀ j < manager.hookCount d, .completed d j ∈ before
  | .resolved => ∀ name, ∀ i < manager.hookCount name, .completed name i ∈ before
  | .completed _ _ | .failed _ _ | .rejected => True

theorem Guard.mono {before : List Event} {e : Event} (h : Guard manager before e)
    (more : List Event) : Guard manager (before ++ more) e := by
  cases e with
  | invoked name i => exact fun d hd j hj => List.mem_append_left more (h d hd j hj)
  | resolved => exact fun name i hi => List.mem_append_left more (h name i hi)
  | completed | failed | rejected => trivial

/-- No hook of the module has been called. -/
def Idle (s : Execution) (name : String) : Prop := ∀ i, s.log.count (.invoked name i) = 0

/-- The module has called its hooks, once, when all its dependencies were done. -/
structure Launched (manager : ShutdownManager Hook) (outcome : String → ℕ → HookOutcome)
    (s : Execution) (name : String) : Prop where
  deps : ∀ d, manager.DependsOn name d → phaseOf s d = some .completed
  calls : ∀ i, s.log.count (.invoked name i) =
    if i ∈ invoke (outcome name) (List.range (manager.hookCount name)) then 1 else 0

/-- What the phase of a module says about the log. -/
inductive Sound (manager : ShutdownManager Hook) (outcome : String → ℕ → HookOutcome)
    (s : Execution) (name : String) : Module → Prop where
  | waiting (hdeps : dependencies manager.dependencyTree name ≠ []) (hidle : Idle s name) :
      Sound manager outcome s name ⟨.waiting, []⟩
  | running {pending} (hlaunched : Launched manager outcome s name)
      (hreturns : ∀ i < manager.hookCount name, outcome name i ≠ .throws)
      (hpending : ∀ i ∈ pending, i < manager.hookCount name)
      (hdone : ∀ i < manager.hookCount name, i ∈ pending ∨ .completed name i ∈ s.log) :
      Sound manager outcome s name ⟨.running, pending⟩
  | completed (hlaunched : Launched manager outcome s name)
      (hreturns : ∀ i < manager.hookCount name, outcome name i ≠ .throws)
      (hdone : ∀ i < manager.hookCount name, .completed name i ∈ s.log) :
      Sound manager outcome s name ⟨.completed, []⟩
  | skipped {d} (hidle : Idle s name) (hd : manager.DependsOn name d)
      (hfailed : phaseOf s d = some .failed) : Sound manager outcome s name ⟨.failed, []⟩
  | failed {pending i} (hlaunched : Launched manager outcome s name)
      (hpending : ∀ i ∈ pending, i < manager.hookCount name)
      (hi : i < manager.hookCount name) (hfails : outcome name i ≠ .resolves) :
      Sound manager outcome s name ⟨.failed, pending⟩

structure Inv (manager : ShutdownManager Hook) (outcome : String → ℕ → HookOutcome)
    (s : Execution) : Prop where
  modules : ∀ name m, moduleOf s name = some m → Sound manager outcome s name m
  deps : ∀ name, (moduleOf s name).isSome → ∀ d, manager.DependsOn name d → (moduleOf s d).isSome
  absent : ∀ name, moduleOf s name = none → Idle s name
  guarded : Justified (Guard manager) s.log
  nodup : (s.pendingPromises.map Prod.fst).Nodup
  settled : s.settled = true → .resolved ∈ s.log ∨ ∃ name, phaseOf s name = some .failed

/-- A module that is done or has failed stays so. -/
def Final (s : Execution) (name : String) (m : Module) : Prop :=
  ∀ p, phaseOf s name = some p → p = .completed ∨ p = .failed → m.phase = p

/-- What the later state has to keep for a module. -/
structure Frame (s t : Execution) (name : String) : Prop where
  calls : ∀ i, t.log.count (.invoked name i) = s.log.count (.invoked name i)
  log : ∀ e ∈ s.log, e ∈ t.log
  final : ∀ d p, p = .completed ∨ p = .failed → phaseOf s d = some p → phaseOf t d = some p

theorem Final.phase {p : Phase} (h : Final s name m) (hp : p = .completed ∨ p = .failed)
    (hother : phaseOf s other = some p) : phaseOf (setModule s name m events) other = some p := by
  by_cases hne : other = name
  · subst hne
    rw [phaseOf_setModule_self, h p hother hp]
  · rw [phaseOf_setModule_of_ne hne, hother]

theorem Final.frame (h : Final s name m) (hevents : ∀ i, .invoked other i ∉ events) :
    Frame s (setModule s name m events) other where
  calls i := by
    change (s.log ++ events).count _ = _
    rw [List.count_append, List.count_eq_zero.mpr (hevents i), Nat.add_zero]
  log e he := List.mem_append_left events he
  final d p hp hd := h.phase hp hd

theorem Frame.idle (h : Frame s t name) (hidle : Idle s name) : Idle t name :=
  fun i => (h.calls i).trans (hidle i)

theorem Frame.launched (h : Frame s t name) (hlaunched : Launched manager outcome s name) :
    Launched manager outcome t name :=
  ⟨fun d hd => h.final d _ (.inl rfl) (hlaunched.deps d hd),
    fun i => (h.calls i).trans (hlaunched.calls i)⟩

theorem Sound.frame {m' : Module} (h : Sound manager outcome s other m')
    (hframe : Frame s t other) : Sound manager outcome t other m' := by
  cases h with
  | waiting hdeps hidle => exact .waiting hdeps (hframe.idle hidle)
  | running hlaunched hreturns hpending hdone =>
    exact .running (hframe.launched hlaunched) hreturns hpending fun i hi =>
      (hdone i hi).imp_right (hframe.log _)
  | completed hlaunched hreturns hdone =>
    exact .completed (hframe.launched hlaunched) hreturns fun i hi => hframe.log _ (hdone i hi)
  | skipped hidle hd hfailed =>
    exact .skipped (hframe.idle hidle) hd (hframe.final _ _ (.inr rfl) hfailed)
  | failed hlaunched hpending hi hfails =>
    exact .failed (hframe.launched hlaunched) hpending hi hfails

/-- A step of one module keeps the invariant if it does so for that module. -/
theorem Inv.update (h : Inv manager outcome s)
    (hsound : Sound manager outcome (setModule s name m events) name m) (hfinal : Final s name m)
    (hdeps : ∀ d, manager.DependsOn name d → (moduleOf s d).isSome)
    (hevents : ∀ a i, .invoked a i ∈ events → a = name)
    (hguard : ∀ e ∈ events, Guard manager s.log e) :
    Inv manager outcome (setModule s name m events) where
  modules other m' hm' := by
    by_cases hne : other = name
    · subst hne
      obtain rfl := Option.some.inj (moduleOf_setModule_self.symm.trans hm')
      exact hsound
    · rw [moduleOf_setModule_of_ne hne] at hm'
      exact (h.modules other m' hm').frame (hfinal.frame fun i hi => hne (hevents other i hi))
  deps other hother d hd := by
    rcases isSome_of_moduleOf_setModule hother with hother | rfl
    · exact isSome_moduleOf_setModule (.inl (h.deps other hother d hd))
    · exact isSome_moduleOf_setModule (.inl (hdeps d hd))
  absent other hother := by
    have hne : other ≠ name := by
      rintro rfl
      rw [moduleOf_setModule_self] at hother
      cases hother
    rw [moduleOf_setModule_of_ne hne] at hother
    exact (hfinal.frame fun i hi => hne (hevents other i hi)).idle (h.absent other hother)
  guarded := h.guarded.append hguard fun before more e he => he.mono more
  nodup := JsMap.nodup_set h.nodup
  settled hsettled := by
    rcases h.settled hsettled with hresolved | ⟨other, hother⟩
    · exact .inl (List.mem_append_left events hresolved)
    · exact .inr ⟨other, hfinal.phase (.inr rfl) hother⟩

theorem exists_moduleOf {p : Phase} (h : phaseOf s name = some p) :
    ∃ pending, moduleOf s name = some ⟨p, pending⟩ := by
  obtain ⟨m, hm, rfl⟩ := Option.map_eq_some_iff.mp h
  exact ⟨m.pending, hm⟩

/-- A module that waits or runs may be given another phase. -/
theorem final_of_phase {p : Phase} (h : phaseOf s name = some p) (hcompleted : p ≠ .completed)
    (hfailed : p ≠ .failed) : Final s name m := by
  intro p' hp' hfinal
  obtain rfl := Option.some.inj (hp'.symm.trans h)
  rcases hfinal with hfinal | hfinal
  · exact absurd hfinal hcompleted
  · exact absurd hfinal hfailed

theorem phaseOf_of_moduleOf (hm : moduleOf s name = some m) : phaseOf s name = some m.phase := by
  rw [phaseOf, hm, Option.map_some]

theorem Inv.completed (h : Inv manager outcome s) (hname : phaseOf s name = some .completed) :
    Launched manager outcome s name ∧ ∀ i < manager.hookCount name, .completed name i ∈ s.log := by
  obtain ⟨pending, hm⟩ := exists_moduleOf hname
  cases h.modules name _ hm with
  | completed hlaunched _ hdone => exact ⟨hlaunched, hdone⟩

/-- What a module that is done depends on is done. -/
theorem Inv.completed_of_reflTransGen (h : Inv manager outcome s)
    (hname : phaseOf s name = some .completed)
    (hother : ReflTransGen manager.DependsOn name other) :
    phaseOf s other = some .completed := by
  induction hother with
  | refl => exact hname
  | tail _ hd ih => exact (h.completed ih).1.deps _ hd

theorem idle_of_waiting (h : Inv manager outcome s)
    (hname : ∀ p, phaseOf s name = some p → p = .waiting) : Idle s name := by
  cases hm : moduleOf s name with
  | none => exact h.absent name hm
  | some m =>
    have hwaiting := hname _ (phaseOf_of_moduleOf hm)
    cases h.modules name m hm with
    | waiting _ hidle => exact hidle
    | running | completed | skipped | failed => cases hwaiting

/-- Without an exception all hooks are called. -/
theorem returns_of_invoke {behaviour : ℕ → HookOutcome} {n : ℕ}
    (h : ∀ i ∈ invoke behaviour (List.range n), behaviour i ≠ .throws) :
    ∀ i < n, behaviour i ≠ .throws := by
  intro i
  induction i using Nat.strong_induction_on with
  | _ i ih =>
    intro hi
    exact h i (mem_invoke_range.mpr ⟨hi, fun j hj => ih j hj (by omega)⟩)

theorem count_calls (behaviour : ℕ → HookOutcome) (n i : ℕ) (threw : List ℕ) :
    ((invoke behaviour (List.range n)).map (Event.invoked name) ++
      threw.map (Event.failed name)).count (Event.invoked name i) =
        if i ∈ invoke behaviour (List.range n) then 1 else 0 := by
  have hnodup : (invoke behaviour (List.range n)).Nodup :=
    List.nodup_range.sublist (invoke_prefix_self behaviour _).sublist
  have hinj : Function.Injective (Event.invoked name) := fun i j h => (Event.invoked.inj h).2
  have hfailed : (threw.map (Event.failed name)).count (.invoked name i) = 0 := by
    simp [List.count_eq_zero]
  rw [List.count_append, hfailed, Nat.add_zero, List.count_map_of_injective _ _ hinj,
    hnodup.count]

/-- The phase of a module that has called its hooks. -/
theorem Launched.sound (h : Launched manager outcome s name) :
    let invoked := invoke (outcome name) (List.range (manager.hookCount name))
    let threw := invoked.filter fun i => outcome name i = .throws
    Sound manager outcome s name
      ⟨if threw ≠ [] then .failed else if invoked = [] then .completed else .running,
        invoked.filter fun i => outcome name i ≠ .throws⟩ := by
  intro invoked threw
  have hlt : ∀ i ∈ invoked, i < manager.hookCount name := fun i hi => (mem_invoke_range.mp hi).1
  split
  next hthrew =>
    obtain ⟨i, hi⟩ := List.exists_mem_of_ne_nil _ hthrew
    obtain ⟨hi, hthrows⟩ := List.mem_filter.mp hi
    refine .failed h (fun j hj => hlt j (List.mem_filter.mp hj).1) (hlt i hi) ?_
    rw [of_decide_eq_true hthrows]
    exact HookOutcome.noConfusion
  next hthrew =>
    have hreturned : ∀ i ∈ invoked, outcome name i ≠ .throws := by
      simpa [threw, List.filter_eq_nil_iff] using hthrew
    have hreturns := returns_of_invoke hreturned
    have hcalled : ∀ i < manager.hookCount name, i ∈ invoked := fun i hi =>
      mem_invoke_range.mpr ⟨hi, fun j hj => hreturns j (by omega)⟩
    split
    next hnone =>
      rw [hnone, List.filter_nil]
      exact .completed h hreturns fun i hi => absurd (hnone ▸ hcalled i hi) List.not_mem_nil
    next =>
      refine .running h hreturns (fun j hj => hlt j (List.mem_filter.mp hj).1)
        fun i hi => .inl (List.mem_filter.mpr ⟨hcalled i hi, ?_⟩)
      exact decide_eq_true (hreturns i hi)

/-- All that a module depends on is done when its dependencies are. -/
theorem Inv.guard_invoked (h : Inv manager outcome s)
    (hdone : ∀ d, manager.DependsOn name d → phaseOf s d = some .completed) (i : ℕ) :
    Guard manager s.log (.invoked name i) := by
  intro d hd j hj
  obtain ⟨c, hc, hcd⟩ := TransGen.head'_iff.mp hd
  exact (h.completed (h.completed_of_reflTransGen (hdone c hc) hcd)).2 j hj

theorem Inv.callHooks (h : Inv manager outcome s)
    (hname : ∀ p, phaseOf s name = some p → p = .waiting)
    (hdone : ∀ d, manager.DependsOn name d → phaseOf s d = some .completed) :
    Inv manager outcome (manager.callHooks outcome s name) := by
  have hidle := idle_of_waiting h hname
  have hne : ∀ d, manager.DependsOn name d → d ≠ name := by
    rintro d hd rfl
    cases hname _ (hdone d hd)
  unfold ShutdownManager.callHooks
  refine h.update (Launched.sound ⟨?_, ?_⟩) ?_ ?_ ?_ ?_
  · intro d hd
    rw [phaseOf_setModule_of_ne (hne d hd), hdone d hd]
  · intro i
    change (s.log ++ _).count _ = _
    rw [List.count_append, hidle i, Nat.zero_add, count_calls]
  · intro p hp hfinal
    rcases hfinal with rfl | rfl <;> cases hname _ hp
  · intro d hd
    obtain ⟨pending, hm⟩ := exists_moduleOf (hdone d hd)
    rw [hm]
    rfl
  · intro a i hmem
    simp only [List.mem_append, List.mem_map] at hmem
    rcases hmem with ⟨j, -, heq⟩ | ⟨j, -, heq⟩
    · exact (Event.invoked.inj heq).1.symm
    · cases heq
  · intro e he
    rcases List.mem_append.mp he with he | he
    · obtain ⟨i, -, rfl⟩ := List.mem_map.mp he
      exact h.guard_invoked hdone i
    · obtain ⟨i, -, rfl⟩ := List.mem_map.mp he
      trivial

theorem inv_initial : Inv manager outcome {} where
  modules := by simp [moduleOf]
  deps := by simp [moduleOf]
  absent := by simp [Idle]
  guarded := by
    intro before e after h
    simp at h
  nodup := List.nodup_nil
  settled := by simp

theorem dependencies_nil_iff : dependencies manager.dependencyTree name = [] ↔
    ∀ d, ¬ manager.DependsOn name d := List.eq_nil_iff_forall_not_mem

theorem Inv.enter (h : Inv manager outcome s) (hname : moduleOf s name = none)
    (hdeps : ∀ d, manager.DependsOn name d → (moduleOf s d).isSome) :
    Inv manager outcome (manager.enter outcome s name) := by
  have hnone : ∀ p, phaseOf s name ≠ some p := by simp [phaseOf, hname]
  unfold ShutdownManager.enter
  split
  next hnil =>
    exact h.callHooks (fun p hp => absurd hp (hnone p))
      fun d hd => absurd hd (dependencies_nil_iff.mp hnil d)
  next hcons =>
    refine h.update (.waiting hcons fun i => ?_) (fun p hp => absurd hp (hnone p)) hdeps
      (by simp) (by simp)
    change (s.log ++ []).count _ = 0
    rw [List.append_nil, h.absent name hname i]

theorem isSome_enter (h : (moduleOf s other).isSome ∨ other = name) :
    (moduleOf (manager.enter outcome s name) other).isSome := by
  unfold enter callHooks
  split <;> exact isSome_moduleOf_setModule h

theorem isSome_of_enter (h : (moduleOf (manager.enter outcome s name) other).isSome) :
    (moduleOf s other).isSome ∨ other = name := by
  unfold enter callHooks at h
  split at h <;> exact isSome_of_moduleOf_setModule h

/-- What a call of `_executeModule` for a module does: it enters it, and only what it depends on. -/
structure Entered (manager : ShutdownManager Hook) (outcome : String → ℕ → HookOutcome)
    (names : List String) (s t : Execution) : Prop where
  inv : Inv manager outcome t
  entered : ∀ name ∈ names, (moduleOf t name).isSome
  kept : ∀ other, (moduleOf s other).isSome → (moduleOf t other).isSome
  origin : ∀ other, (moduleOf t other).isSome → (moduleOf s other).isSome ∨
    ∃ name ∈ names, ReflTransGen manager.DependsOn name other

theorem Entered.cons {names : List String} {u : Execution}
    (hfirst : Entered manager outcome [name] s t) (hrest : Entered manager outcome names t u) :
    Entered manager outcome (name :: names) s u where
  inv := hrest.inv
  entered := by
    intro other hother
    rcases List.mem_cons.mp hother with rfl | hother
    · exact hrest.kept other (hfirst.entered other List.mem_cons_self)
    · exact hrest.entered other hother
  kept other hother := hrest.kept other (hfirst.kept other hother)
  origin other hother := by
    rcases hrest.origin other hother with hother | ⟨a, ha, hreach⟩
    · rcases hfirst.origin other hother with hother | ⟨a, ha, hreach⟩
      · exact .inl hother
      · exact .inr ⟨a, List.mem_cons.mpr (.inl (List.mem_singleton.mp ha)), hreach⟩
    · exact .inr ⟨a, List.mem_cons_of_mem name ha, hreach⟩

theorem entered_foldlM {f : Execution → String → Option Execution}
    (hf : ∀ s t name, Inv manager outcome s → f s name = some t →
      Entered manager outcome [name] s t)
    {names : List String} (hs : Inv manager outcome s) (h : names.foldlM f s = some t) :
    Entered manager outcome names s t := by
  induction names generalizing s with
  | nil =>
    obtain rfl := Option.some.inj h
    exact ⟨hs, by simp, fun _ hother => hother, fun _ hother => .inl hother⟩
  | cons name names ih =>
    rw [List.foldlM_cons] at h
    obtain ⟨u, hu, hrest⟩ := Option.bind_eq_some_iff.mp h
    have hfirst := hf s u name hs hu
    exact hfirst.cons (ih hfirst.inv hrest)

theorem entered_executeModule (hacyclic : Acyclic manager.DependsOn) {depth : ℕ}
    (hs : Inv manager outcome s) (h : manager.executeModule outcome depth s name = some t) :
    Entered manager outcome [name] s t := by
  induction depth generalizing s t name with
  | zero => cases h
  | succ depth ih =>
    rw [executeModule] at h
    split at h
    next hsome =>
      obtain rfl := Option.some.inj h
      exact ⟨hs, by simpa using hsome, fun _ hother => hother, fun _ hother => .inl hother⟩
    next hnone =>
      obtain ⟨u, hu, hdone⟩ := Option.bind_eq_some_iff.mp h
      obtain rfl := Option.some.inj hdone
      have hdeps := entered_foldlM (fun s t name hs h => ih hs h) hs hu
      have habsent : moduleOf u name = none := by
        rw [← Option.not_isSome_iff_eq_none]
        intro hsome
        rcases hdeps.origin name hsome with hsome | ⟨d, hd, hreach⟩
        · exact hnone hsome
        · exact hacyclic name (.head' hd hreach)
      refine ⟨hdeps.inv.enter habsent hdeps.entered, ?_, ?_, ?_⟩
      · intro other hother
        exact isSome_enter (.inr (List.mem_singleton.mp hother))
      · exact fun other hother => isSome_enter (.inl (hdeps.kept other hother))
      · intro other hother
        rcases isSome_of_enter hother with hother | rfl
        · rcases hdeps.origin other hother with hother | ⟨d, hd, hreach⟩
          · exact .inl hother
          · exact .inr ⟨name, List.mem_singleton_self name, .head hd hreach⟩
        · exact .inr ⟨other, List.mem_singleton_self other, .refl⟩

/-- A module that no call has entered has no hooks. -/
theorem hookCount_of_not_mem (h : name ∉ manager.hooks.map Prod.fst) :
    manager.hookCount name = 0 := by
  rw [hookCount, moduleHandlers, JsMap.lookup_eq_none h]
  rfl

/-- When `executeAll` first waits, every module with a hook has been entered. -/
theorem inv_executeAll (hacyclic : Acyclic manager.DependsOn) {depth : ℕ}
    (h : manager.executeAll outcome depth = some s) :
    Inv manager outcome s ∧ ∀ name ∈ manager.hooks.map Prod.fst, (moduleOf s name).isSome := by
  unfold executeAll at h
  split at h
  next hnil =>
    obtain rfl := Option.some.inj h
    refine ⟨⟨by simp [moduleOf], by simp [moduleOf], by simp [Idle], ?_, List.nodup_nil, by simp⟩,
      by simp [hnil]⟩
    refine (@inv_initial Hook manager outcome).guarded.append ?_
      fun before more e he => he.mono more
    intro e he
    obtain rfl := List.mem_singleton.mp he
    intro name i hi
    rw [hookCount_of_not_mem (by simp [hnil])] at hi
    exact absurd hi (Nat.not_lt_zero i)
  next =>
    have hentered := entered_foldlM
      (fun s t name hs h => entered_executeModule hacyclic hs h) inv_initial h
    exact ⟨hentered.inv, hentered.entered⟩

theorem exists_depth_foldlM {names : List String}
    (h : ∀ name ∈ names, ∃ least, ∀ depth, least ≤ depth → ∀ s,
      (manager.executeModule outcome depth s name).isSome) :
    ∃ least, ∀ depth, least ≤ depth → ∀ s,
      (names.foldlM (manager.executeModule outcome depth) s).isSome := by
  induction names with
  | nil => exact ⟨0, fun _ _ _ => rfl⟩
  | cons name names ih =>
    obtain ⟨hname, hnames⟩ := List.forall_mem_cons.mp h
    obtain ⟨first, hfirst⟩ := hname
    obtain ⟨rest, hrest⟩ := ih hnames
    refine ⟨max first rest, fun depth hdepth s => ?_⟩
    obtain ⟨t, ht⟩ := Option.isSome_iff_exists.mp (hfirst depth (by omega) s)
    rw [List.foldlM_cons, ht]
    exact hrest depth (by omega) t

/-- The recursion over an acyclic graph ends. -/
theorem exists_depth_executeModule (hacyclic : Acyclic manager.DependsOn) (name : String) :
    ∃ least, ∀ depth, least ≤ depth → ∀ s,
      (manager.executeModule outcome depth s name).isSome := by
  have hwf : WellFounded fun d name => manager.DependsOn name d :=
    wellFounded_of_acyclic (fun a => dependencies_of_not_mem) hacyclic
  induction name using hwf.induction with
  | _ name ih =>
    obtain ⟨least, hleast⟩ := exists_depth_foldlM ih
    refine ⟨least + 1, fun depth hdepth s => ?_⟩
    cases depth with
    | zero => omega
    | succ depth =>
      rw [executeModule]
      split
      · rfl
      · obtain ⟨t, ht⟩ := Option.isSome_iff_exists.mp (hleast depth (by omega) s)
        rw [ht]
        rfl

theorem exists_depth_executeAll (hacyclic : Acyclic manager.DependsOn) :
    ∃ least, ∀ depth, least ≤ depth → (manager.executeAll outcome depth).isSome := by
  obtain ⟨least, hleast⟩ := exists_depth_foldlM fun name (_ : name ∈ manager.hooks.map Prod.fst) =>
    @exists_depth_executeModule Hook manager outcome hacyclic name
  refine ⟨least, fun depth hdepth => ?_⟩
  unfold executeAll
  split
  · rfl
  · exact hleast depth hdepth {}

theorem lt_of_mem_erase {pending : List ℕ} {i n : ℕ} (h : ∀ j ∈ pending, j < n) :
    ∀ j ∈ pending.erase i, j < n := fun j hj => h j (List.mem_of_mem_erase hj)

theorem Inv.settle_completed {pending : List ℕ} {phase : Phase} {i : ℕ}
    (h : Inv manager outcome s) (hm : moduleOf s name = some ⟨phase, pending⟩) (hi : i ∈ pending) :
    Inv manager outcome (setModule s name ⟨phase, pending.erase i⟩ [.completed name i]) := by
  have hdeps := h.deps name (by rw [hm]; rfl)
  have hfinal : Final s name ⟨phase, pending.erase i⟩ := fun p hp _ =>
    Option.some.inj ((phaseOf_of_moduleOf hm).symm.trans hp)
  have hframe : Frame s (setModule s name ⟨phase, pending.erase i⟩ [.completed name i]) name :=
    hfinal.frame (by simp)
  refine h.update ?_ hfinal hdeps (by simp) (by simp [Guard])
  cases h.modules name _ hm with
  | waiting | completed | skipped => exact absurd hi List.not_mem_nil
  | running hlaunched hreturns hpending hdone =>
    refine .running (hframe.launched hlaunched) hreturns (lt_of_mem_erase hpending) fun j hj => ?_
    by_cases hji : j = i
    · subst hji
      exact .inr (List.mem_append_right _ (List.mem_singleton_self _))
    · rcases hdone j hj with hj | hj
      · exact .inl ((List.mem_erase_of_ne hji).mpr hj)
      · exact .inr (hframe.log _ hj)
  | failed hlaunched hpending hlt hfails =>
    exact .failed (hframe.launched hlaunched) (lt_of_mem_erase hpending) hlt hfails

theorem Inv.settle_failed {pending : List ℕ} {phase : Phase} {i : ℕ}
    (h : Inv manager outcome s) (hm : moduleOf s name = some ⟨phase, pending⟩) (hi : i ∈ pending)
    (houtcome : outcome name i ≠ .resolves) :
    Inv manager outcome (setModule s name ⟨.failed, pending.erase i⟩ [.failed name i]) := by
  have hdeps := h.deps name (by rw [hm]; rfl)
  have hphase := phaseOf_of_moduleOf hm
  cases h.modules name _ hm with
  | waiting | completed | skipped => exact absurd hi List.not_mem_nil
  | running hlaunched _ hpending _ =>
    have hfinal : Final s name ⟨.failed, pending.erase i⟩ :=
      final_of_phase hphase Phase.noConfusion Phase.noConfusion
    exact h.update (.failed ((hfinal.frame (by simp)).launched hlaunched)
      (lt_of_mem_erase hpending) (hpending i hi) houtcome) hfinal hdeps (by simp) (by simp [Guard])
  | failed hlaunched hpending hlt hfails =>
    have hfinal : Final s name ⟨.failed, pending.erase i⟩ := fun p hp _ =>
      Option.some.inj (hphase.symm.trans hp)
    exact h.update (.failed ((hfinal.frame (by simp)).launched hlaunched)
      (lt_of_mem_erase hpending) hlt hfails) hfinal hdeps (by simp) (by simp [Guard])

/-- The end of `executeAll` leaves the modules alone. -/
theorem Inv.settleAll (h : Inv manager outcome s) {e : Event} (he : Guard manager s.log e)
    (hcalls : ∀ name i, e ≠ .invoked name i)
    (hsettled : Event.resolved ∈ s.log ++ [e] ∨ ∃ name, phaseOf s name = some .failed) :
    Inv manager outcome { s with settled := true, log := s.log ++ [e] } := by
  have hframe : ∀ name, Frame s { s with settled := true, log := s.log ++ [e] } name := by
    refine fun name => ⟨fun i => ?_, fun e' he' => List.mem_append_left _ he', fun d p _ hd => hd⟩
    have hzero : [e].count (Event.invoked name i) = 0 :=
      List.count_eq_zero.mpr fun hmem => hcalls name i (List.mem_singleton.mp hmem).symm
    rw [List.count_append, hzero, Nat.add_zero]
  refine ⟨fun name m hm => (h.modules name m hm).frame (hframe name), h.deps,
    fun name hname => (hframe name).idle (h.absent name hname), ?_, h.nodup, fun _ => hsettled⟩
  refine h.guarded.append ?_ fun before more e he => he.mono more
  intro e' he'
  rwa [List.mem_singleton.mp he']

theorem phaseOf_mem_map {names : List String} {p : Phase}
    (h : some p ∈ names.map (phaseOf s)) : ∃ name ∈ names, phaseOf s name = some p := by
  obtain ⟨name, hname, hp⟩ := List.mem_map.mp h
  exact ⟨name, hname, hp⟩

theorem phaseOf_of_all {names : List String} {p : Phase}
    (h : (names.map (phaseOf s)).all (· = some p) = true) :
    ∀ name ∈ names, phaseOf s name = some p := by
  intro name hname
  exact of_decide_eq_true (List.all_eq_true.mp h _ (List.mem_map_of_mem hname))

/-- What a step can do. -/
inductive Stepped (manager : ShutdownManager Hook) (outcome : String → ℕ → HookOutcome)
    (s : Execution) : Action → Execution → Prop where
  | completed {name : String} {phase pending i}
      (hm : moduleOf s name = some ⟨phase, pending⟩) (hi : i ∈ pending)
      (houtcome : outcome name i = .resolves) :
      Stepped manager outcome s (.settle name i)
        (setModule s name ⟨phase, pending.erase i⟩ [.completed name i])
  | failed {name : String} {phase pending i}
      (hm : moduleOf s name = some ⟨phase, pending⟩) (hi : i ∈ pending)
      (houtcome : outcome name i ≠ .resolves) :
      Stepped manager outcome s (.settle name i)
        (setModule s name ⟨.failed, pending.erase i⟩ [.failed name i])
  | called {name : String} {pending} (hm : moduleOf s name = some ⟨.waiting, pending⟩)
      (hall : ∀ d ∈ dependencies manager.dependencyTree name, phaseOf s d = some .completed) :
      Stepped manager outcome s (.resume name) (manager.callHooks outcome s name)
  | skipped {name : String} {pending d} (hm : moduleOf s name = some ⟨.waiting, pending⟩)
      (hd : d ∈ dependencies manager.dependencyTree name)
      (hfailed : phaseOf s d = some .failed) :
      Stepped manager outcome s (.resume name) (setModule s name ⟨.failed, []⟩ [])
  | done {name : String} (hm : moduleOf s name = some ⟨.running, []⟩) :
      Stepped manager outcome s (.resume name) (setModule s name ⟨.completed, []⟩ [])
  | resolved (hsettled : s.settled = false)
      (hall : ∀ name ∈ manager.hooks.map Prod.fst, phaseOf s name = some .completed) :
      Stepped manager outcome s .settleAll { s with settled := true, log := s.log ++ [.resolved] }
  | rejected {name : String} (hsettled : s.settled = false)
      (hfailed : phaseOf s name = some .failed) :
      Stepped manager outcome s .settleAll { s with settled := true, log := s.log ++ [.rejected] }

theorem step_cases {a : Action} (h : manager.step outcome s a = some t) :
    Stepped manager outcome s a t := by
  cases a with
  | settle name i =>
    simp only [step] at h
    split at h
    next => cases h
    next m hm =>
      split at h
      next => cases h
      next hi =>
        split at h
        next houtcome => exact Option.some.inj h ▸ .completed hm (not_not.mp hi) houtcome
        next houtcome => exact Option.some.inj h ▸ .failed hm (not_not.mp hi) houtcome
  | resume name =>
    simp only [step] at h
    split at h
    next pending hm =>
      split at h
      next hall => exact Option.some.inj h ▸ .called hm (phaseOf_of_all hall)
      next =>
        split at h
        next hfailed =>
          obtain ⟨d, hd, hdfailed⟩ := phaseOf_mem_map hfailed
          exact Option.some.inj h ▸ .skipped hm hd hdfailed
        next => cases h
    next hm => exact Option.some.inj h ▸ .done hm
    next => cases h
  | settleAll =>
    simp only [step] at h
    split at h
    next => cases h
    next hsettled =>
      have hopen := Bool.eq_false_iff.mpr hsettled
      split at h
      next hall => exact Option.some.inj h ▸ .resolved hopen (phaseOf_of_all hall)
      next =>
        split at h
        next hfailed =>
          obtain ⟨name, -, hname⟩ := phaseOf_mem_map hfailed
          exact Option.some.inj h ▸ .rejected hopen hname
        next => cases h

theorem Inv.skip {pending : List ℕ} {d : String} (h : Inv manager outcome s)
    (hm : moduleOf s name = some ⟨.waiting, pending⟩) (hd : manager.DependsOn name d)
    (hfailed : phaseOf s d = some .failed) :
    Inv manager outcome (setModule s name ⟨.failed, []⟩ []) := by
  have hphase := phaseOf_of_moduleOf hm
  have hfinal : Final s name ⟨.failed, []⟩ :=
    final_of_phase hphase Phase.noConfusion Phase.noConfusion
  have hframe : Frame s (setModule s name ⟨.failed, []⟩ []) name := hfinal.frame (by simp)
  have hidle := idle_of_waiting h fun p hp => Option.some.inj (hp.symm.trans hphase)
  exact h.update (.skipped (hframe.idle hidle) hd (hframe.final d _ (.inr rfl) hfailed)) hfinal
    (h.deps name (by rw [hm]; rfl)) (by simp) (by simp)

theorem Inv.complete (h : Inv manager outcome s) (hm : moduleOf s name = some ⟨.running, []⟩) :
    Inv manager outcome (setModule s name ⟨.completed, []⟩ []) := by
  have hfinal : Final s name ⟨.completed, []⟩ :=
    final_of_phase (phaseOf_of_moduleOf hm) Phase.noConfusion Phase.noConfusion
  have hframe : Frame s (setModule s name ⟨.completed, []⟩ []) name := hfinal.frame (by simp)
  cases h.modules name _ hm with
  | running hlaunched hreturns hpending hdone =>
    exact h.update (.completed (hframe.launched hlaunched) hreturns fun i hi =>
      hframe.log _ ((hdone i hi).resolve_left List.not_mem_nil)) hfinal
      (h.deps name (by rw [hm]; rfl)) (by simp) (by simp)

theorem Inv.step {a : Action} (h : Inv manager outcome s)
    (hstep : manager.step outcome s a = some t) : Inv manager outcome t := by
  cases step_cases hstep with
  | completed hm hi _ => exact h.settle_completed hm hi
  | failed hm hi houtcome => exact h.settle_failed hm hi houtcome
  | called hm hall =>
    exact h.callHooks
      (fun p hp => Option.some.inj (hp.symm.trans (phaseOf_of_moduleOf hm))) hall
  | skipped hm hd hfailed => exact h.skip hm hd hfailed
  | done hm => exact h.complete hm
  | resolved _ hall =>
    refine h.settleAll ?_ (fun _ _ => Event.noConfusion) (.inl (by simp))
    intro name i hi
    by_cases hname : name ∈ manager.hooks.map Prod.fst
    · exact (h.completed (hall name hname)).2 i hi
    · rw [hookCount_of_not_mem hname] at hi
      exact absurd hi (Nat.not_lt_zero i)
  | rejected _ hfailed =>
    exact h.settleAll trivial (fun _ _ => Event.noConfusion) (.inr ⟨_, hfailed⟩)

theorem isSome_step {a : Action} (hstep : manager.step outcome s a = some t)
    (h : (moduleOf s name).isSome) : (moduleOf t name).isSome := by
  cases step_cases hstep with
  | completed | failed | called | skipped | done => exact isSome_moduleOf_setModule (.inl h)
  | resolved | rejected => exact h

/-- What holds after any run of an `executeAll`. -/
theorem inv_run (hacyclic : Acyclic manager.DependsOn) {depth : ℕ} {actions : List Action}
    (hstart : manager.executeAll outcome depth = some s)
    (hrun : manager.run outcome s actions = some t) :
    Inv manager outcome t ∧ ∀ name ∈ manager.hooks.map Prod.fst, (moduleOf t name).isSome := by
  obtain ⟨hinv, hsome⟩ := inv_executeAll hacyclic hstart
  clear hstart
  induction actions generalizing s with
  | nil =>
    obtain rfl := Option.some.inj hrun
    exact ⟨hinv, hsome⟩
  | cons a actions ih =>
    rw [run, List.foldlM_cons] at hrun
    obtain ⟨u, hu, hrest⟩ := Option.bind_eq_some_iff.mp hrun
    exact ih hrest (hinv.step hu) fun name hname => isSome_step hu (hsome name hname)

end

end Connectum.Core.ShutdownManager
