import Connectum.Core.ExecuteAll

/-! The order of the hooks, and the end of every `executeAll()`. -/
namespace Connectum.Core.ShutdownManager
open PathSearch Relation
variable {Hook : Type*} {manager : ShutdownManager Hook} {outcome : String → ℕ → HookOutcome}
  {s t : Execution} {name : String} {m : Module}

def Quiescent (manager : ShutdownManager Hook) (outcome : String → ℕ → HookOutcome)
    (s : Execution) : Prop := ∀ a, manager.step outcome s a = none

/-- The steps that a module can still take. -/
def weight (manager : ShutdownManager Hook) (e : String × Module) : ℕ :=
  e.2.pending.length + match e.2.phase with
    | .waiting => manager.hookCount e.1 + 2
    | .running => 1
    | .completed | .failed => 0

/-- The steps that an execution can still take. -/
def remaining (manager : ShutdownManager Hook) (s : Execution) : ℕ :=
  (s.pendingPromises.map (weight manager)).sum + if s.settled then 0 else 1

theorem remaining_setModule {m' : Module} {events : List Event} (h : Inv manager outcome s)
    (hm : moduleOf s name = some m) (hlt : weight manager (name, m') < weight manager (name, m)) :
    remaining manager (setModule s name m' events) < remaining manager s := by
  have hsum : ((JsMap.set s.pendingPromises name m').map (weight manager)).sum +
      weight manager (name, m) = (s.pendingPromises.map (weight manager)).sum +
      weight manager (name, m') := JsMap.sum_set h.nodup hm
  unfold remaining setModule
  dsimp only
  omega

theorem length_invoke_le (behaviour : ℕ → HookOutcome) (n : ℕ) :
    (invoke behaviour (List.range n)).length ≤ n := by
  simpa using (invoke_prefix_self behaviour (List.range n)).length_le

theorem weight_le (hm : m.phase ≠ .waiting) :
    weight manager (name, m) ≤ m.pending.length + 1 := by
  obtain ⟨phase, pending⟩ := m
  cases phase with
  | waiting => exact absurd rfl hm
  | running => exact Nat.le_refl _
  | completed | failed => exact Nat.le_succ _

theorem phase_callHooks (threw invoked : List ℕ) :
    (if threw ≠ [] then Phase.failed else if invoked = [] then .completed else .running) ≠
      .waiting := by
  split
  · exact Phase.noConfusion
  · split <;> exact Phase.noConfusion

theorem weight_callHooks {pending : List ℕ} (hm : moduleOf s name = some ⟨.waiting, pending⟩)
    (h : Inv manager outcome s) :
    remaining manager (manager.callHooks outcome s name) < remaining manager s := by
  refine remaining_setModule h hm ((weight_le (phase_callHooks _ _)).trans_lt ?_)
  have hle := length_invoke_le (outcome name) (manager.hookCount name)
  have hfilter := List.length_filter_le (fun i => decide (outcome name i ≠ .throws))
    (invoke (outcome name) (List.range (manager.hookCount name)))
  change _ < pending.length + (manager.hookCount name + 2)
  dsimp only
  omega

/-- Every step leaves fewer steps. -/
theorem remaining_step {a : Action} (h : Inv manager outcome s)
    (hstep : manager.step outcome s a = some t) : remaining manager t < remaining manager s := by
  cases step_cases hstep with
  | completed hm hi _ | failed hm hi _ =>
    have hlength := List.length_erase_of_mem hi
    have hpos := List.length_pos_of_mem hi
    refine remaining_setModule h hm ?_
    simp only [weight]
    omega
  | called hm _ => exact weight_callHooks hm h
  | skipped hm _ _ =>
    refine remaining_setModule h hm ?_
    simp only [weight, List.length_nil]
    omega
  | done hm =>
    refine remaining_setModule h hm ?_
    simp [weight]
  | resolved hsettled _ | rejected hsettled _ => simp [remaining, hsettled]

theorem remaining_run {actions : List Action} (h : Inv manager outcome s)
    (hrun : manager.run outcome s actions = some t) :
    actions.length + remaining manager t ≤ remaining manager s := by
  induction actions generalizing s with
  | nil =>
    obtain rfl := Option.some.inj hrun
    simp
  | cons a actions ih =>
    rw [run, List.foldlM_cons] at hrun
    obtain ⟨u, hu, hrest⟩ := Option.bind_eq_some_iff.mp hrun
    have hstep := remaining_step h hu
    have hih := ih (h.step hu) hrest
    rw [List.length_cons]
    omega

/-- At rest no promise of a hook is pending. -/
theorem Quiescent.pending (hq : Quiescent manager outcome t) (hm : moduleOf t name = some m) :
    m.pending = [] := by
  rw [List.eq_nil_iff_forall_not_mem]
  intro i hi
  have hstep := hq (.settle name i)
  simp only [step, hm, hi, not_true_eq_false, if_false] at hstep
  split at hstep <;> cases hstep

/-- At rest every module is done or has failed. -/
theorem Quiescent.phase (hq : Quiescent manager outcome t) (h : Inv manager outcome t)
    (hacyclic : Acyclic manager.DependsOn) (hname : (moduleOf t name).isSome) :
    phaseOf t name = some .completed ∨ phaseOf t name = some .failed := by
  have hwf : WellFounded fun d name => manager.DependsOn name d :=
    wellFounded_of_acyclic (fun a => dependencies_of_not_mem) hacyclic
  induction name using hwf.induction with
  | _ name ih =>
    obtain ⟨⟨phase, pending⟩, hm⟩ := Option.isSome_iff_exists.mp hname
    have hphase : phaseOf t name = some phase := phaseOf_of_moduleOf hm
    obtain rfl : pending = [] := hq.pending hm
    have hresume := hq (.resume name)
    simp only [step, hm] at hresume
    rw [hphase]
    cases phase with
    | completed => exact .inl rfl
    | failed => exact .inr rfl
    | running => simp at hresume
    | waiting =>
      have hdeps : ∀ d ∈ dependencies manager.dependencyTree name,
          phaseOf t d = some .completed ∨ phaseOf t d = some .failed :=
        fun d hd => ih d hd (h.deps name hname d hd)
      dsimp only at hresume
      split at hresume
      next => cases hresume
      next hall =>
        split at hresume
        next => cases hresume
        next hnone =>
          refine absurd (List.all_eq_true.mpr fun p hp => ?_) hall
          obtain ⟨d, hd, rfl⟩ := List.mem_map.mp hp
          rcases hdeps d hd with hdone | hfailed
          · exact decide_eq_true hdone
          · exact absurd (List.mem_map.mpr ⟨d, hd, hfailed⟩) hnone

def Failing (manager : ShutdownManager Hook) (outcome : String → ℕ → HookOutcome)
    (name : String) : Prop := ∃ i < manager.hookCount name, outcome name i ≠ .resolves

/-- At rest a module is done if no hook fails in it or in a module it depends on. -/
theorem Quiescent.completed (hq : Quiescent manager outcome t) (h : Inv manager outcome t)
    (hacyclic : Acyclic manager.DependsOn) (hname : (moduleOf t name).isSome)
    (hnone : ∀ d, ReflTransGen manager.DependsOn name d → ¬ Failing manager outcome d) :
    phaseOf t name = some .completed := by
  have hwf : WellFounded fun d name => manager.DependsOn name d :=
    wellFounded_of_acyclic (fun a => dependencies_of_not_mem) hacyclic
  induction name using hwf.induction with
  | _ name ih =>
    refine (hq.phase h hacyclic hname).resolve_right fun hfailed => ?_
    obtain ⟨pending, hm⟩ := exists_moduleOf hfailed
    cases h.modules name _ hm with
    | @skipped d _ hd hdfailed =>
      have hdone := ih d hd (h.deps name hname d hd) fun c hc => hnone c (.head hd hc)
      cases hdone.symm.trans hdfailed
    | @failed _ i _ _ hi hfails => exact hnone name .refl ⟨i, hi, hfails⟩

theorem Inv.calls_le_one (h : Inv manager outcome s) (name : String) (i : ℕ) :
    s.log.count (.invoked name i) ≤ 1 := by
  have hlaunched (hl : Launched manager outcome s name) : s.log.count (.invoked name i) ≤ 1 := by
    rw [hl.calls i]
    split <;> omega
  cases hm : moduleOf s name with
  | none => exact (h.absent name hm i).le.trans (Nat.zero_le 1)
  | some m =>
    cases h.modules name m hm with
    | waiting _ hidle | skipped hidle => exact (hidle i).le.trans (Nat.zero_le 1)
    | running hl | completed hl | failed hl => exact hlaunched hl

theorem mem_hooks_of_lt {i : ℕ} (hi : i < manager.hookCount name) :
    name ∈ manager.hooks.map Prod.fst := by
  by_contra hname
  rw [hookCount_of_not_mem hname] at hi
  exact absurd hi (Nat.not_lt_zero i)

/-- If no hook fails, an `executeAll` that has come to rest has called every hook, and resolves. -/
theorem Quiescent.resolved (hq : Quiescent manager outcome t) (h : Inv manager outcome t)
    (hacyclic : Acyclic manager.DependsOn)
    (hsome : ∀ name ∈ manager.hooks.map Prod.fst, (moduleOf t name).isSome)
    (hnone : ∀ name, ¬ Failing manager outcome name) :
    (∀ name, ∀ i < manager.hookCount name, t.log.count (.invoked name i) = 1) ∧
      .resolved ∈ t.log := by
  have hdone : ∀ name, (moduleOf t name).isSome → phaseOf t name = some .completed :=
    fun name hname => hq.completed h hacyclic hname fun d _ => hnone d
  constructor
  · intro name i hi
    have hname := hdone name (hsome name (mem_hooks_of_lt hi))
    have hreturns : ∀ j < manager.hookCount name, outcome name j ≠ .throws := by
      intro j hj hthrows
      exact hnone name ⟨j, hj, hthrows ▸ HookOutcome.noConfusion⟩
    rw [(h.completed hname).1.calls i, if_pos]
    exact mem_invoke_range.mpr ⟨hi, fun j hj => hreturns j (by omega)⟩
  · have hall := hq .settleAll
    simp only [step] at hall
    split at hall
    next hsettled =>
      refine (h.settled hsettled).resolve_right ?_
      rintro ⟨name, hfailed⟩
      obtain ⟨pending, hm⟩ := exists_moduleOf hfailed
      cases (hdone name (by rw [hm]; rfl)).symm.trans hfailed
    next =>
      split at hall
      next => cases hall
      next hnot =>
        refine absurd (List.all_eq_true.mpr fun p hp => ?_) hnot
        obtain ⟨name, hname, rfl⟩ := List.mem_map.mp hp
        exact decide_eq_true (hdone name (hsome name hname))

/-- The hooks that are logged as completed are those that succeed. -/
def Truthful (outcome : String → ℕ → HookOutcome) (log : List Event) : Prop :=
  ∀ name i, .completed name i ∈ log → outcome name i = .resolves

theorem Truthful.append {log events : List Event} (h : Truthful outcome log)
    (hevents : Truthful outcome events) : Truthful outcome (log ++ events) := by
  intro name i hmem
  rcases List.mem_append.mp hmem with hmem | hmem
  · exact h name i hmem
  · exact hevents name i hmem

theorem Truthful.callHooks (h : Truthful outcome s.log) :
    Truthful outcome (manager.callHooks outcome s name).log := by
  refine Truthful.append h ?_
  intro other i hmem
  simp at hmem

theorem Truthful.foldlM {f : Execution → String → Option Execution} {names : List String}
    (hf : ∀ s t name, Truthful outcome s.log → f s name = some t → Truthful outcome t.log)
    (hs : Truthful outcome s.log) (h : names.foldlM f s = some t) : Truthful outcome t.log := by
  induction names generalizing s with
  | nil => exact Option.some.inj h ▸ hs
  | cons name names ih =>
    rw [List.foldlM_cons] at h
    obtain ⟨u, hu, hrest⟩ := Option.bind_eq_some_iff.mp h
    exact ih (hf s u name hs hu) hrest

theorem Truthful.executeModule {depth : ℕ} (hs : Truthful outcome s.log)
    (h : manager.executeModule outcome depth s name = some t) : Truthful outcome t.log := by
  induction depth generalizing s t name with
  | zero => cases h
  | succ depth ih =>
    rw [ShutdownManager.executeModule] at h
    split at h
    next => exact Option.some.inj h ▸ hs
    next =>
      obtain ⟨u, hu, hdone⟩ := Option.bind_eq_some_iff.mp h
      obtain rfl := Option.some.inj hdone
      have hdeps := hs.foldlM (fun _ _ _ hs h => ih hs h) hu
      rw [enter]
      split
      · exact hdeps.callHooks
      · exact hdeps.append (by simp [Truthful])

theorem Truthful.step {a : Action} (hs : Truthful outcome s.log)
    (hstep : manager.step outcome s a = some t) : Truthful outcome t.log := by
  cases step_cases hstep with
  | completed _ _ houtcome =>
    refine hs.append fun other j hmem => ?_
    cases List.mem_singleton.mp hmem
    exact houtcome
  | called => exact hs.callHooks
  | failed | skipped | done | resolved | rejected => exact hs.append (by simp [Truthful])

theorem truthful_run {depth : ℕ} {actions : List Action}
    (hstart : manager.executeAll outcome depth = some s)
    (hrun : manager.run outcome s actions = some t) : Truthful outcome t.log := by
  have hs : Truthful outcome s.log := by
    unfold executeAll at hstart
    split at hstart
    next => exact Option.some.inj hstart ▸ by simp [Truthful]
    next =>
      refine Truthful.foldlM (fun _ _ _ hs h => hs.executeModule h) ?_ hstart
      simp [Truthful]
  clear hstart
  induction actions generalizing s with
  | nil => exact Option.some.inj hrun ▸ hs
  | cons a actions ih =>
    rw [run, List.foldlM_cons] at hrun
    obtain ⟨u, hu, hrest⟩ := Option.bind_eq_some_iff.mp hrun
    exact ih hrest (hs.step hu)

/-- A module has failed because some hook fails. -/
theorem Inv.failing (h : Inv manager outcome s) (hacyclic : Acyclic manager.DependsOn)
    (hfailed : phaseOf s name = some .failed) : ∃ d, Failing manager outcome d := by
  have hwf : WellFounded fun d name => manager.DependsOn name d :=
    wellFounded_of_acyclic (fun a => dependencies_of_not_mem) hacyclic
  induction name using hwf.induction with
  | _ name ih =>
    obtain ⟨pending, hm⟩ := exists_moduleOf hfailed
    cases h.modules name _ hm with
    | @skipped d _ hd hdfailed => exact ih d hd hdfailed
    | @failed _ i _ _ hi hfails => exact ⟨name, i, hi, hfails⟩

/-- When `executeAll` has settled, it has resolved if and only if no hook fails. -/
theorem resolved_iff {calls : List (AddHook Hook)} {depth : ℕ} {actions : List Action}
    (hstart : (addHooks calls).executeAll outcome depth = some s)
    (hrun : (addHooks calls).run outcome s actions = some t) (hsettled : t.settled = true) :
    .resolved ∈ t.log ↔ ∀ name, ¬ Failing (addHooks calls) outcome name := by
  obtain ⟨hinv, -⟩ := inv_run (acyclic_addHooks calls) hstart hrun
  constructor
  · rintro hresolved name ⟨i, hi, hfails⟩
    obtain ⟨before, after, hlog⟩ := List.append_of_mem hresolved
    have hcompleted := hinv.guarded before _ after hlog name i hi
    exact hfails (truthful_run hstart hrun name i (hlog ▸ List.mem_append_left _ hcompleted))
  · intro hnone
    refine (hinv.settled hsettled).resolve_right fun hfailed => ?_
    obtain ⟨name, hfailed⟩ := hfailed
    obtain ⟨d, hd⟩ := hinv.failing (acyclic_addHooks calls) hfailed
    exact hnone d hd

/-- An `executeAll` at rest has settled. -/
theorem Quiescent.settled (hq : Quiescent manager outcome t) (h : Inv manager outcome t)
    (hacyclic : Acyclic manager.DependsOn)
    (hsome : ∀ name ∈ manager.hooks.map Prod.fst, (moduleOf t name).isSome) :
    t.settled = true := by
  by_contra hpending
  have hall := hq .settleAll
  simp only [step, hpending] at hall
  split at hall
  next hsettled => cases hsettled
  next =>
    split at hall
    next => cases hall
    next hnot =>
      split at hall
      next => cases hall
      next hnone =>
        refine absurd (List.all_eq_true.mpr fun p hp => ?_) hnot
        obtain ⟨name, hname, rfl⟩ := List.mem_map.mp hp
        rcases hq.phase h hacyclic (hsome name hname) with hdone | hfailed
        · exact decide_eq_true hdone
        · exact absurd (List.mem_map.mpr ⟨name, hname, hfailed⟩) hnone

/-- In every run of an `executeAll` over hooks that were accepted: the hooks of a module are called
after all hooks that it depends on have completed, and at most once; if no hook fails and the run
has come to rest, all have been called, and it resolves after all have completed. The recursion of
`_executeModule` ends, and so does every run. -/
theorem executeAll_ordered (calls : List (AddHook Hook)) (outcome : String → ℕ → HookOutcome)
    {depth : ℕ} {actions : List Action}
    (hstart : (addHooks calls).executeAll outcome depth = some s)
    (hrun : (addHooks calls).run outcome s actions = some t) :
    let manager := addHooks calls
    (∀ before after name i, t.log = before ++ .invoked name i :: after →
      ∀ d, TransGen manager.DependsOn name d →
        ∀ j < manager.hookCount d, .completed d j ∈ before) ∧
    (∀ name i, t.log.count (.invoked name i) ≤ 1) ∧
    (∀ before after, t.log = before ++ .resolved :: after →
      ∀ name, ∀ i < manager.hookCount name, .completed name i ∈ before) ∧
    ((∀ name, ∀ i < manager.hookCount name, outcome name i = .resolves) →
      Quiescent manager outcome t →
      (∀ name, ∀ i < manager.hookCount name, t.log.count (.invoked name i) = 1) ∧
        .resolved ∈ t.log) ∧
    actions.length ≤ remaining manager s ∧
    ∃ least, ∀ depth, least ≤ depth → (manager.executeAll outcome depth).isSome := by
  intro manager
  have hacyclic := acyclic_addHooks calls
  obtain ⟨hinv, hsome⟩ := inv_run hacyclic hstart hrun
  refine ⟨fun before after name i hlog => hinv.guarded before _ after hlog,
    hinv.calls_le_one, fun before after hlog => hinv.guarded before _ after hlog, ?_, ?_,
    exists_depth_executeAll hacyclic⟩
  · intro hresolves hq
    refine hq.resolved hinv hacyclic hsome fun name hfails => ?_
    obtain ⟨i, hi, hfails⟩ := hfails
    exact hfails (hresolves name i hi)
  · exact (Nat.le_add_right _ _).trans (remaining_run (inv_executeAll hacyclic hstart).1 hrun)

theorem quiescent_of_settled (hsettled : t.settled = true)
    (hfinal : ∀ e ∈ t.pendingPromises, e.2 = ⟨.completed, []⟩ ∨ e.2 = ⟨.failed, []⟩) :
    Quiescent manager outcome t := by
  have hmodule : ∀ name m, moduleOf t name = some m → m = ⟨.completed, []⟩ ∨ m = ⟨.failed, []⟩ :=
    fun name m hm => hfinal _ (JsMap.mem_of_lookup hm)
  intro a
  cases a with
  | settle name i =>
    simp only [step]
    split
    next => rfl
    next m hm => rcases hmodule name m hm with rfl | rfl <;> simp
  | resume name =>
    simp only [step]
    split
    next pending hm => rcases hmodule name _ hm with h | h <;> cases h
    next hm => rcases hmodule name _ hm with h | h <;> cases h
    next => rfl
  | settleAll => simp [step, hsettled]

/-- `server` depends on `database`, and both hooks succeed. -/
theorem executeAll_ordered_server :
    let calls := [.named "database" (), .dependent "server" ["database"] ()]
    let log : List Event := [.invoked "database" 0, .completed "database" 0, .invoked "server" 0,
      .completed "server" 0, .resolved]
    log.count (.invoked "server" 0) = 1 ∧ .completed "database" 0 ∈ log.take 2 ∧
      ∃ t, (addHooks calls).run (fun _ _ => .resolves)
        { pendingPromises := [("database", ⟨.running, [0]⟩), ("server", ⟨.waiting, []⟩)]
          log := [.invoked "database" 0] }
        [.settle "database" 0, .resume "database", .resume "server", .settle "server" 0,
          .resume "server", .settleAll] = some t ∧ t.log = log := by
  intro calls log
  have hrun : (addHooks calls).run (fun _ _ => .resolves)
      { pendingPromises := [("database", ⟨.running, [0]⟩), ("server", ⟨.waiting, []⟩)]
        log := [.invoked "database" 0] }
      [.settle "database" 0, .resume "database", .resume "server", .settle "server" 0,
        .resume "server", .settleAll] = some
      { pendingPromises := [("database", ⟨.completed, []⟩), ("server", ⟨.completed, []⟩)]
        settled := true
        log } := by decide
  have hstart : (addHooks calls).executeAll (fun _ _ => .resolves) 3 = some
      { pendingPromises := [("database", ⟨.running, [0]⟩), ("server", ⟨.waiting, []⟩)]
        log := [.invoked "database" 0] } := by decide
  obtain ⟨hordered, -, -, hresolved, -⟩ := executeAll_ordered calls _ hstart hrun
  obtain ⟨hcalled, -⟩ := hresolved (fun _ _ _ => rfl) (quiescent_of_settled rfl (by decide))
  exact ⟨hcalled "server" 0 (by decide),
    hordered (log.take 2) (log.drop 3) "server" 0 rfl "database"
      (.single (show "database" ∈ dependencies _ "server" by decide)) 0 (by decide),
    _, hrun, rfl⟩

end Connectum.Core.ShutdownManager
