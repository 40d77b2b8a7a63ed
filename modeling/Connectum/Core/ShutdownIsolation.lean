import Connectum.Core.ShutdownOrder

/-! Hooks that fail, and the hooks that are called all the same. -/
namespace Connectum.Core.ShutdownManager
open PathSearch Relation
variable {Hook : Type*} {manager : ShutdownManager Hook} {outcome : String → ℕ → HookOutcome}
  {s t : Execution} {name : String}

/-- No hook fails in a module that this one transitively depends on. -/
def Independent (manager : ShutdownManager Hook) (outcome : String → ℕ → HookOutcome)
    (name : String) : Prop :=
  ∀ d, TransGen manager.DependsOn name d → ¬ Failing manager outcome d

/-- At rest such a module has called its hooks. -/
theorem Quiescent.launched (hq : Quiescent manager outcome t) (h : Inv manager outcome t)
    (hacyclic : Acyclic manager.DependsOn) (hname : (moduleOf t name).isSome)
    (hindependent : Independent manager outcome name) : Launched manager outcome t name := by
  rcases hq.phase h hacyclic hname with hdone | hfailed
  · exact (h.completed hdone).1
  · obtain ⟨pending, hm⟩ := exists_moduleOf hfailed
    cases h.modules name _ hm with
    | failed hlaunched => exact hlaunched
    | @skipped d _ hd hdfailed =>
      have hdone : phaseOf t d = some .completed :=
        hq.completed h hacyclic (h.deps name hname d hd) fun c hc =>
          hindependent c (.head' hd hc)
      cases hdone.symm.trans hdfailed

/-- The hooks that it has called are those with no exception before them. -/
theorem Launched.mem_log_iff (h : Launched manager outcome t name) {i : ℕ} :
    .invoked name i ∈ t.log ↔
      i < manager.hookCount name ∧ ∀ j < i, outcome name j ≠ .throws := by
  rw [← mem_invoke_range, ← List.count_pos_iff, h.calls i]
  split <;> simp_all

theorem independent_of_nil (h : dependencies manager.dependencyTree name = []) :
    Independent manager outcome name := by
  intro d hd
  obtain ⟨first, hfirst, -⟩ := TransGen.head'_iff.mp hd
  change first ∈ dependencies manager.dependencyTree name at hfirst
  rw [h] at hfirst
  exact absurd hfirst List.not_mem_nil

def oneRejects (_ : String) (i : ℕ) : HookOutcome := if i = 0 then .rejects else .resolves

def firstThrows (_ : String) (i : ℕ) : HookOutcome := if i = 0 then .throws else .resolves

end Connectum.Core.ShutdownManager
