import Connectum.Events.Nats.NatsAdapter

/-! What a rejected `subscribe()` leaves at the broker. -/
namespace Connectum.Events.Nats
open Async Broker

/-- A command of the rollback does not fail. -/
def Succeeded : (q : Call) → q.Answer → Prop
  | .close _, .error _ | .delete _ _, .error _ => False
  | _, _ => True

/-- The broker is as it was: the consumers that were there are still there with their positions,
and there is no other consumer and no other iterator. -/
structure RolledBack (b t : Broker) : Prop where
  kept : ∀ name d, b.find name = some d → ∃ d', t.find name = some d' ∧ Follows d d'
  removed : ∀ name, b.find name = none → t.find name = none
  closed : t.iterators = b.iterators

variable {crypto : Crypto} {options : NatsAdapterOptions} {group : Option String}
  {patterns : List String} {iterators : List ℕ} {durables : List String} {b c t : Broker}
  {trace : NatsTrace} {error : String}

namespace Broker

def closing (b : Broker) (iterators : List ℕ) : Broker :=
  { b with iterators := b.iterators.filter fun e => e.1 ∉ iterators }

def deleting (b : Broker) (durables : List String) : Broker :=
  { b with durables := b.durables.filter fun d => d.config.durableName ∉ durables }

theorem find_deleting (b : Broker) (durables : List String) (name : String) :
    (b.deleting durables).find name = if name ∈ durables then none else b.find name := by
  unfold deleting find
  rw [List.find?_filter]
  split
  next hmem =>
    rw [List.find?_eq_none]
    intro d _
    by_cases h : d.config.durableName = name <;> simp [h, hmem]
  next hmem =>
    congr 1
    funext d
    by_cases h : d.config.durableName = name <;> simp [h, hmem]

theorem Elapsed.closing (h : Elapsed b c) (iterators : List ℕ) :
    Elapsed (b.closing iterators) (c.closing iterators) :=
  ⟨h.messages, by rw [Broker.closing, Broker.closing, h.iterators], h.find⟩

theorem Elapsed.deleting (h : Elapsed b c) (durables : List String) :
    Elapsed (b.deleting durables) (c.deleting durables) := by
  refine ⟨h.messages, h.iterators, fun name => ?_⟩
  rw [find_deleting, find_deleting]
  split
  · exact .none
  · exact h.find name

end Broker

theorem elapsed_closeIterators (h : ExecIn Answers (closeIterators iterators) b trace t ())
    (hok : ∀ x ∈ trace, Succeeded x.query x.answer) : Elapsed (b.closing iterators) t := by
  induction iterators generalizing b trace with
  | nil =>
    obtain ⟨-, -, rfl⟩ := execIn_done_iff.mp h
    exact ⟨List.prefix_rfl, by simp [closing], (Elapsed.refl t).find⟩
  | cons iterator iterators ih =>
    obtain ⟨closed, u, trace, rfl, ⟨v, actions, log, heffect, hrun⟩, hrest⟩ :=
      execIn_await_iff.mp h
    obtain ⟨hclosed, hok'⟩ := List.forall_mem_cons.mp hok
    cases closed with
    | error e => exact hclosed.elim
    | ok _ =>
      obtain rfl := Option.some.inj heffect
      have hnext := ((elapsed_run hrun).closing iterators).trans (ih hrest hok')
      refine ⟨hnext.messages, hnext.iterators.trans ?_, hnext.find⟩
      simp [closing, List.filter_filter, Bool.and_comm]

theorem elapsed_deleteDurables (h : ExecIn Answers (deleteDurables options durables) b trace t ())
    (hok : ∀ x ∈ trace, Succeeded x.query x.answer) : Elapsed (b.deleting durables) t := by
  induction durables generalizing b trace with
  | nil =>
    obtain ⟨-, -, rfl⟩ := execIn_done_iff.mp h
    refine ⟨List.prefix_rfl, rfl, fun name => ?_⟩
    rw [find_deleting, if_neg List.not_mem_nil]
    exact (Elapsed.refl t).find name
  | cons durableName durables ih =>
    obtain ⟨deleted, u, trace, rfl, ⟨v, actions, log, heffect, hrun⟩, hrest⟩ :=
      execIn_await_iff.mp h
    obtain ⟨hdeleted, hok'⟩ := List.forall_mem_cons.mp hok
    cases deleted with
    | error e => exact hdeleted.elim
    | ok _ =>
      have hv : v = b.deleting [durableName] := by
        obtain rfl := Option.some.inj heffect
        simp [deleting]
      subst hv
      have hnext := ((elapsed_run hrun).deleting durables).trans (ih hrest hok')
      refine ⟨hnext.messages, hnext.iterators, fun name => ?_⟩
      have hfind : ((b.deleting [durableName]).deleting durables).find name =
          (b.deleting (durableName :: durables)).find name := by
        simp only [find_deleting, List.mem_cons, List.not_mem_nil, or_false]
        by_cases hname : name = durableName <;> simp [hname]
      exact hfind ▸ hnext.find name

theorem addedBy_append (first rest : NatsTrace) :
    addedBy (first ++ rest) = addedBy first ++ addedBy rest := List.flatMap_append

theorem addedBy_closeIterators (h : ExecIn Answers (closeIterators iterators) b trace t ()) :
    addedBy trace = [] := by
  induction iterators generalizing b trace with
  | nil =>
    obtain ⟨-, rfl, -⟩ := execIn_done_iff.mp h
    rfl
  | cons iterator iterators ih =>
    obtain ⟨closed, u, trace, rfl, -, hrest⟩ := execIn_await_iff.mp h
    simpa [addedBy, declares] using ih hrest

theorem addedBy_deleteDurables
    (h : ExecIn Answers (deleteDurables options durables) b trace t ()) : addedBy trace = [] := by
  induction durables generalizing b trace with
  | nil =>
    obtain ⟨-, rfl, -⟩ := execIn_done_iff.mp h
    rfl
  | cons durableName durables ih =>
    obtain ⟨deleted, u, trace, rfl, -, hrest⟩ := execIn_await_iff.mp h
    simpa [addedBy, declares] using ih hrest

/-- A rejected call closes what it opened and deletes every consumer that it declared. -/
theorem rejected_spec
    (h : ExecIn Answers (subscribe crypto options patterns group) b trace t (.error error))
    (hok : ∀ x ∈ trace, Succeeded x.query x.answer) :
    t.iterators = b.iterators ∧ ∃ c opened, Tracked b c opened (addedBy trace) ∧
      ∀ name, Option.Rel Follows ((c.deleting (addedBy trace)).find name) (t.find name) := by
  obtain ⟨first, c, ⟨result, iterators, durables⟩, _, hdeclare, hcatch, rfl⟩ :=
    execIn_bind_iff.mp h
  obtain ⟨htracked, hiterators, hdurables⟩ := tracked_declareConsumers hdeclare
  cases result with
  | none => exact absurd (execIn_done_iff.mp hcatch).1 (by simp)
  | some e =>
    obtain ⟨closed, v, ⟨⟩, _, hclose, hafter, rfl⟩ := execIn_bind_iff.mp hcatch
    obtain ⟨deleted, w, ⟨⟩, last, hdelete, hdone, rfl⟩ := execIn_bind_iff.mp hafter
    obtain ⟨-, rfl, rfl⟩ := execIn_done_iff.mp hdone
    have hadded : addedBy (first ++ (closed ++ (deleted ++ []))) = durables := by
      rw [addedBy_append, addedBy_append, List.append_nil, addedBy_closeIterators hclose,
        addedBy_deleteDurables hdelete, hdurables]
      simp
    have hclosed := elapsed_closeIterators hclose fun x hx => hok x (by simp [hx])
    have hdeleted := elapsed_deleteDurables hdelete fun x hx => hok x (by simp [hx])
    have hopened : (c.closing iterators).iterators = b.iterators := by
      rw [closing, htracked.iterators, hiterators, List.nil_append, List.filter_append]
      have hkeep : b.iterators.filter (fun e => e.1 ∉ (openedBy first).map Prod.fst) =
          b.iterators := by
        rw [List.filter_eq_self]
        intro e he
        simp only [decide_eq_true_eq]
        intro hmem
        obtain ⟨o, ho, heq⟩ := List.mem_map.mp hmem
        exact htracked.fresh o ho (heq ▸ List.mem_map_of_mem he)
      have hdrop : (openedBy first).filter (fun e => e.1 ∉ (openedBy first).map Prod.fst) = [] := by
        rw [List.filter_eq_nil_iff]
        intro e he
        simpa using ⟨e.2, he⟩
      rw [hkeep, hdrop, List.append_nil]
    rw [hadded]
    refine ⟨hdeleted.iterators.trans (hclosed.iterators.trans hopened), c, openedBy first, ?_,
      fun name => ?_⟩
    · rwa [hdurables, List.nil_append]
    · exact ((hclosed.deleting durables).trans hdeleted).find name

/-- A rejected `subscribe()` leaves the broker as it was if and only if none of the consumers that
it declared before the failure existed before the call. -/
theorem rolledBack_iff
    (h : ExecIn Answers (subscribe crypto options patterns group) b trace t (.error error))
    (hok : ∀ x ∈ trace, Succeeded x.query x.answer) :
    RolledBack b t ↔ ∀ durableName ∈ addedBy trace, b.find durableName = none := by
  obtain ⟨hiterators, c, opened, htracked, hfind⟩ := rejected_spec h hok
  constructor
  · intro hrolled name hname
    cases hb : b.find name with
    | none => rfl
    | some d =>
      obtain ⟨d', ht, -⟩ := hrolled.kept name d hb
      have hrel := hfind name
      rw [find_deleting, if_pos hname, ht] at hrel
      simp at hrel
  · intro hnew
    refine ⟨fun name d hd => ?_, fun name hb => ?_, hiterators⟩
    · have hname : name ∉ addedBy trace := by
        intro hname
        exact absurd (hd.symm.trans (hnew name hname)) (by simp)
      obtain ⟨d', hc, hd'⟩ := htracked.kept name d hd
      have hrel := hfind name
      rw [find_deleting, if_neg hname, hc] at hrel
      cases ht : t.find name with
      | none => simp [ht] at hrel
      | some d'' =>
        rw [ht] at hrel
        exact ⟨d'', rfl, hd'.trans (by simpa using hrel)⟩
    · have hrel := hfind name
      have hnone : (c.deleting (addedBy trace)).find name = none := by
        rw [find_deleting]
        split
        · rfl
        next hname => exact htracked.new name hb hname
      rw [hnone] at hrel
      cases ht : t.find name with
      | none => rfl
      | some d => simp [ht] at hrel

/-- `order.paid` has a consumer of another configuration, so that declaring it fails. -/
def conflict : ConsumerConfig :=
  consumerConfig ordersCrypto { consumerOptions := { deliverPolicy := some .all } } "orders"
    "order.paid"

theorem succeeded_subscribeOrders (patterns : List String) (b : Broker) :
    ∀ x ∈ (subscribeOrders patterns b).1, Succeeded x.query x.answer := by
  intro x hx
  obtain ⟨u, hu⟩ := answer_of_mem_runIn hx
  rw [hu]
  cases x.query <;> simp [Succeeded, respond]

theorem rolledBack_iff_conflict :
    RolledBack { durables := [⟨conflict, 0⟩] } { durables := [⟨conflict, 0⟩] } := by
  have hrejected : (subscribeOrders ["order.created", "order.paid"]
      { durables := [⟨conflict, 0⟩] }).2 =
      ({ durables := [⟨conflict, 0⟩] }, .error "invalid configuration") := by decide +kernel
  exact (rolledBack_iff (execIn_subscribeOrders hrejected)
    (succeeded_subscribeOrders _ _)).mpr (by decide)

/-- The consumer of `order.created`, which an earlier run of the group left after three messages,
is deleted with its position. -/
theorem durable_of_earlier_run_deleted :
    ¬ ∀ (crypto : Crypto) (options : NatsAdapterOptions) (patterns : List String)
      (group : Option String) (b t : Broker) (trace : NatsTrace) (error : String),
      ExecIn Answers (subscribe crypto options patterns group) b trace t (.error error) →
      (∀ x ∈ trace, Succeeded x.query x.answer) → RolledBack b t := by
  intro h
  have hrolled := h ordersCrypto {} ["order.created", "order.paid"] (some "orders")
    { messages := ["events.order.created", "events.order.created", "events.order.created"]
      durables := [⟨consumerConfig ordersCrypto {} "orders" "order.created", 3⟩, ⟨conflict, 0⟩] }
    { messages := ["events.order.created", "events.order.created", "events.order.created"]
      durables := [⟨conflict, 0⟩] } _ "invalid configuration"
    (execIn_subscribeOrders (by decide +kernel)) (succeeded_subscribeOrders _ _)
  obtain ⟨d, hd, -⟩ := hrolled.kept "orders--order_created--6f62219f" _ rfl
  exact Option.some_ne_none d (hd.symm.trans (by decide))

end Connectum.Events.Nats
