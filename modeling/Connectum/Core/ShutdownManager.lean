import Connectum.JsMap
import Connectum.PathSearch

/-! The registration of shutdown hooks: the dependency graph and its cycle test. -/
namespace Connectum.Core
open PathSearch Relation

structure ShutdownManager (Hook : Type*) where
  dependencyTree : List (String × List String) := []
  hooks : List (String × List Hook) := []
  anonCounter : ℕ := 0
  deriving DecidableEq, Repr

/-- The overloads of `addHook`. -/
inductive AddHook (Hook : Type*) where
  | anonymous (handler : Hook)
  | named (name : String) (handler : Hook)
  | dependent (name : String) (dependencies : List String) (handler : Hook)

namespace ShutdownManager
variable {Hook : Type*}

/-- `_dependencyTree.get(name) || []`. -/
def dependencies (dependencyTree : List (String × List String)) (name : String) : List String :=
  (dependencyTree.lookup name).getD []

/-- `_hooks.get(name) || []`. -/
def moduleHandlers (manager : ShutdownManager Hook) (name : String) : List Hook :=
  (manager.hooks.lookup name).getD []

def testForCycles (dependencyTree : List (String × List String)) :
    ℕ → String → List String → Option Bool :=
  revisits (dependencies dependencyTree)

/-- The name, the dependencies and the handler of a call, and the counter after it. -/
def parse (manager : ShutdownManager Hook) : AddHook Hook → String × List String × Hook × ℕ
  | .anonymous handler =>
    (s!"__anon_{manager.anonCounter}", [], handler, manager.anonCounter + 1)
  | .named name handler => (name, [], handler, manager.anonCounter)
  | .dependent name dependencies handler => (name, dependencies, handler, manager.anonCounter)

/-- The dependencies that `addHook` tries. -/
def merge (dependencyTree : List (String × List String)) (name : String) (deps : List String) :
    List (String × List String) :=
  JsMap.set dependencyTree name (dependencies dependencyTree name ++ deps)

/-- The call stack of the cycle test is no deeper than the graph has nodes. -/
def addHook (manager : ShutdownManager Hook) (call : AddHook Hook) :
    ShutdownManager Hook × Except String Unit :=
  let (name, deps, handler, anonCounter) := manager.parse call
  let existing := dependencies manager.dependencyTree name
  let dependencyTree := merge manager.dependencyTree name deps
  if testForCycles dependencyTree (dependencyTree.length + 1) name [] = some true then
    ({ manager with dependencyTree := JsMap.set dependencyTree name existing, anonCounter },
      .error s!"Adding shutdown handler \"{name}\" would create a dependency cycle")
  else
    ({ dependencyTree
       hooks := JsMap.set manager.hooks name (manager.moduleHandlers name ++ [handler])
       anonCounter }, .ok ())

def addHooks (calls : List (AddHook Hook)) : ShutdownManager Hook :=
  calls.foldl (fun manager call => (manager.addHook call).1) {}

def DependsOn (manager : ShutdownManager Hook) : String → String → Prop :=
  Edge (dependencies manager.dependencyTree)

variable {dependencyTree : List (String × List String)} {name : String} {deps : List String}
  {manager : ShutdownManager Hook} {call : AddHook Hook}

theorem dependencies_set_self : dependencies (JsMap.set dependencyTree name deps) name = deps := by
  rw [dependencies, JsMap.lookup_set_self, Option.getD_some]

theorem dependencies_set_of_ne {other : String} (hne : other ≠ name) :
    dependencies (JsMap.set dependencyTree name deps) other =
      dependencies dependencyTree other := by
  rw [dependencies, JsMap.lookup_set_of_ne hne, dependencies]

theorem edge_merge_iff {a b : String} :
    Edge (dependencies (merge dependencyTree name deps)) a b ↔
      Edge (dependencies dependencyTree) a b ∨ a = name ∧ b ∈ deps := by
  unfold Edge merge
  by_cases ha : a = name
  · subst ha
    rw [dependencies_set_self, List.mem_append]
    simp
  · rw [dependencies_set_of_ne ha]
    simp [ha]

/-- The rollback gives a module its dependencies back. -/
theorem dependencies_rollback (other : String) :
    dependencies (JsMap.set (merge dependencyTree name deps) name
      (dependencies dependencyTree name)) other = dependencies dependencyTree other := by
  by_cases ha : other = name
  · subst ha
    exact dependencies_set_self
  · rw [dependencies_set_of_ne ha, merge, dependencies_set_of_ne ha]

/-- Only a key of the map has dependencies. -/
theorem dependencies_of_not_mem (h : name ∉ (dependencyTree.map Prod.fst).toFinset) :
    dependencies dependencyTree name = [] := by
  rw [List.mem_toFinset] at h
  rw [dependencies, JsMap.lookup_eq_none h, Option.getD_none]

theorem testForCycles_isSome {depth : ℕ} (h : dependencyTree.length < depth) (name : String) :
    (testForCycles dependencyTree depth name []).isSome := by
  apply revisits_isSome fun a => dependencies_of_not_mem
  rw [List.toFinset_nil, Finset.sdiff_empty]
  have hcard := List.toFinset_card_le (dependencyTree.map Prod.fst)
  rw [List.length_map] at hcard
  omega

/-- In an acyclic graph the test of a module finds the cycles that its new dependencies close. -/
theorem testForCycles_merge_iff {depth : ℕ}
    (hacyclic : Acyclic (Edge (dependencies dependencyTree)))
    (h : (merge dependencyTree name deps).length < depth) :
    testForCycles (merge dependencyTree name deps) depth name [] = some true ↔
      ¬ Acyclic fun a b => Edge (dependencies dependencyTree) a b ∨ a = name ∧ b ∈ deps := by
  have hedges : Edge (dependencies (merge dependencyTree name deps)) =
      fun a b => Edge (dependencies dependencyTree) a b ∨ a = name ∧ b ∈ deps := by
    funext a b
    exact propext edge_merge_iff
  rw [← hedges]
  obtain ⟨found, hfound⟩ := Option.isSome_iff_exists.mp (testForCycles_isSome h name)
  rw [hfound, Option.some_inj, revisits_iff hfound]
  constructor
  · rintro ⟨b, -, hb⟩ hall
    exact hall b hb
  · intro hcycle
    obtain ⟨b, hb⟩ := not_forall_not.mp hcycle
    refine ⟨name, .refl, cycle_through hacyclic (fun b c hbc => ?_) hb⟩
    rcases edge_merge_iff.mp hbc with hbc | ⟨rfl, -⟩
    · exact .inl hbc
    · exact .inr rfl

/-- What a call does: with its name and dependencies, it is rejected and only gives the counter and
the map of the dependencies other values, or it registers its handler. -/
theorem addHook_cases (call : AddHook Hook) {handler : Hook} {anonCounter : ℕ}
    (hparse : manager.parse call = (name, deps, handler, anonCounter))
    (hacyclic : Acyclic manager.DependsOn) :
    ((manager.addHook call).2.isOk = false ∧
      (¬ Acyclic fun a b => manager.DependsOn a b ∨ a = name ∧ b ∈ deps) ∧
      (manager.addHook call).1.DependsOn = manager.DependsOn ∧
      (manager.addHook call).1.hooks = manager.hooks) ∨
    ((manager.addHook call).2.isOk = true ∧
      (Acyclic fun a b => manager.DependsOn a b ∨ a = name ∧ b ∈ deps) ∧
      (manager.addHook call).1.DependsOn =
        (fun a b => manager.DependsOn a b ∨ a = name ∧ b ∈ deps) ∧
      (manager.addHook call).1.hooks =
        JsMap.set manager.hooks name (manager.moduleHandlers name ++ [handler])) := by
  have htest : testForCycles (merge manager.dependencyTree name deps) _ name [] = some true ↔ _ :=
    testForCycles_merge_iff hacyclic (Nat.lt_succ_self _)
  rw [addHook, hparse]
  dsimp only
  split
  next h =>
    refine .inl ⟨rfl, htest.mp h, ?_, rfl⟩
    funext a b
    exact congrArg (b ∈ ·) (dependencies_rollback a)
  next h =>
    refine .inr ⟨rfl, not_not.mp (mt htest.mpr h), ?_, rfl⟩
    funext a b
    exact propext edge_merge_iff

theorem acyclic_addHook (hacyclic : Acyclic manager.DependsOn) (call : AddHook Hook) :
    Acyclic (manager.addHook call).1.DependsOn := by
  obtain ⟨-, -, hdepends, -⟩ | ⟨-, hnew, hdepends, -⟩ := addHook_cases call rfl hacyclic
  · exact hdepends ▸ hacyclic
  · exact hdepends ▸ hnew

theorem acyclic_foldl (hacyclic : Acyclic manager.DependsOn) (calls : List (AddHook Hook)) :
    Acyclic (calls.foldl (fun manager call => (manager.addHook call).1) manager).DependsOn := by
  induction calls generalizing manager with
  | nil => exact hacyclic
  | cons call calls ih => exact ih (acyclic_addHook hacyclic call)

theorem acyclic_addHooks (calls : List (AddHook Hook)) : Acyclic (addHooks calls).DependsOn := by
  refine acyclic_foldl ?_ calls
  intro a ha
  obtain ⟨b, hb, -⟩ := TransGen.head'_iff.mp ha
  exact absurd hb List.not_mem_nil

/-- After any calls, the graph is acyclic, and the next call is rejected exactly if its dependencies
close a cycle; then it changes neither the dependencies nor the hooks. Its test ends. -/
theorem addHook_rejected_iff_cycle (calls : List (AddHook Hook)) (call : AddHook Hook) :
    let manager := addHooks calls
    let name := (manager.parse call).1
    let deps := (manager.parse call).2.1
    Acyclic manager.DependsOn ∧
      ((manager.addHook call).2.isOk = false ↔
        ¬ Acyclic fun a b => manager.DependsOn a b ∨ a = name ∧ b ∈ deps) ∧
      ((manager.addHook call).2.isOk = false →
        (manager.addHook call).1.DependsOn = manager.DependsOn ∧
          (manager.addHook call).1.hooks = manager.hooks) ∧
      ∀ depth, (merge manager.dependencyTree name deps).length < depth →
        (testForCycles (merge manager.dependencyTree name deps) depth name []).isSome := by
  intro manager name deps
  have hacyclic := acyclic_addHooks calls
  refine ⟨hacyclic, ?_, ?_, fun depth h => testForCycles_isSome h name⟩
  · obtain ⟨hok, hcycle, -⟩ | ⟨hok, hnew, -⟩ := addHook_cases call rfl hacyclic
    · exact ⟨fun _ => hcycle, fun _ => hok⟩
    · exact ⟨fun h => absurd (hok.symm.trans h) (by simp), fun h => absurd hnew h⟩
  · intro hrejected
    obtain ⟨-, -, hdepends, hhooks⟩ | ⟨hok, -⟩ := addHook_cases call rfl hacyclic
    · exact ⟨hdepends, hhooks⟩
    · exact absurd (hok.symm.trans hrejected) (by simp)

/-- `b` depends on `a`, which then may not depend on `b`. -/
theorem addHook_rejected_iff_cycle_back :
    ((addHooks [.named "a" (), .dependent "b" ["a"] ()]).addHook
      (.dependent "a" ["b"] ())).2.isOk = false :=
  (addHook_rejected_iff_cycle [.named "a" (), .dependent "b" ["a"] ()]
    (.dependent "a" ["b"] ())).2.1.mpr fun hacyclic =>
      hacyclic "a" (.head (.inr ⟨rfl, List.mem_cons_self⟩)
        (.single (.inl (show "a" ∈ dependencies _ "b" by decide))))

end ShutdownManager
end Connectum.Core
