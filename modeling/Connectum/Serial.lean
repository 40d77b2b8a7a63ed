import Mathlib.Data.List.Basic
import Mathlib.Data.Nat.PSub
import Mathlib.Tactic.Common

/-! Tasks that run one after the other, in the order in which they were added. -/

/-- A task that is not queued any more comes after tasks that are all done. -/
def Serial {α : Type*} (Queued Done : α → Prop) (tasks : List α) : Prop :=
  ∀ (i j : ℕ) (earlier later : α), i < j → tasks[i]? = some earlier →
    tasks[j]? = some later → Queued later ∨ Done earlier

namespace Serial
variable {α : Type*} {Queued Done : α → Prop} {tasks : List α} {task other : α} {i j : ℕ}

theorem nil : Serial Queued Done [] := by
  intro i j earlier later hlt hearlier
  simp at hearlier

/-- A new task is queued. -/
theorem concat (h : Serial Queued Done tasks) (hnew : Queued task) :
    Serial Queued Done (tasks ++ [task]) := by
  intro i j earlier later hlt hearlier hlater
  rcases Nat.lt_or_ge j tasks.length with hj | hj
  · rw [List.getElem?_append_left hj] at hlater
    rw [List.getElem?_append_left (Nat.lt_trans hlt hj)] at hearlier
    exact h i j earlier later hlt hearlier hlater
  · rw [List.getElem?_append_right hj, List.getElem?_singleton] at hlater
    split at hlater
    next =>
      obtain rfl := Option.some.inj hlater
      exact .inl hnew
    next => cases hlater

/-- Tasks go on: what is done stays done, and a task leaves the queue if all before it are done. -/
theorem mapIdx {f : ℕ → α → α} (h : Serial Queued Done tasks)
    (hdone : ∀ i task, tasks[i]? = some task → Done task → Done (f i task))
    (hqueued : ∀ j task, tasks[j]? = some task → Queued task → Queued (f j task) ∨
      ∀ i earlier, i < j → tasks[i]? = some earlier → Done earlier) :
    Serial Queued Done (tasks.mapIdx f) := by
  intro i j earlier' later' hlt hi hj
  rw [List.getElem?_mapIdx] at hi hj
  obtain ⟨earlier, hearlier, rfl⟩ := Option.map_eq_some_iff.mp hi
  obtain ⟨later, hlater, rfl⟩ := Option.map_eq_some_iff.mp hj
  rcases h i j earlier later hlt hearlier hlater with hq | hd
  · rcases hqueued j later hlater hq with hq | hall
    · exact .inl hq
    · exact .inr (hdone i earlier hearlier (hall i earlier hlt hearlier))
  · exact .inr (hdone i earlier hearlier hd)

/-- The task after a done one has only done tasks before it. -/
theorem done_of_done (h : Serial Queued Done tasks) (hdisjoint : ∀ task, Done task → ¬ Queued task)
    (hprevious : ∀ k, i.ppred = some k → ∃ previous, tasks[k]? = some previous ∧ Done previous)
    (hlt : j < i) (hj : tasks[j]? = some other) : Done other := by
  obtain ⟨k, rfl⟩ := Nat.exists_eq_succ_of_ne_zero (Nat.ne_zero_of_lt hlt)
  obtain ⟨previous, hk, hdone⟩ := hprevious k rfl
  rcases Nat.lt_succ_iff_lt_or_eq.mp hlt with hjk | rfl
  · exact (h j k other previous hjk hj hk).resolve_left (hdisjoint previous hdone)
  · rw [hk] at hj
    exact Option.some.inj hj ▸ hdone

/-- At most one task is running. -/
theorem eq_of_running (h : Serial Queued Done tasks) (hi : tasks[i]? = some task)
    (hj : tasks[j]? = some other) (hqueued : ¬ Queued task) (hdone : ¬ Done task)
    (hqueued' : ¬ Queued other) (hdone' : ¬ Done other) : i = j := by
  rcases Nat.lt_trichotomy i j with hlt | heq | hlt
  · exact ((h i j task other hlt hi hj).elim hqueued' hdone).elim
  · exact heq
  · exact ((h j i other task hlt hj hi).elim hqueued hdone').elim

end Serial
