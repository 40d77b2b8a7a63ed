import Connectum.Events.Wildcard

/-! The in-memory adapter, which any number of buses may share. -/
namespace Connectum.Events

/-- A subscription, numbered: `unsubscribe` looks for the very one that it belongs to. -/
structure MemorySubscription (Handler : Type*) where
  id : ℕ
  patterns : List String
  handler : Handler
  deriving DecidableEq, Repr

structure MemoryAdapter (Handler : Type*) where
  connected : Bool := false
  subscriptions : List (MemorySubscription Handler) := []
  created : ℕ := 0
  deriving DecidableEq, Repr

variable {Handler : Type*}

def MemorySubscription.matchesEvent (sub : MemorySubscription Handler) (eventType : String) :
    Bool :=
  sub.patterns.any fun pattern => matchPattern pattern eventType

namespace MemoryAdapter

def connect (adapter : MemoryAdapter Handler) : MemoryAdapter Handler :=
  { adapter with connected := true }

def disconnect (adapter : MemoryAdapter Handler) : MemoryAdapter Handler :=
  { adapter with connected := false, subscriptions := [] }

/-- The subscription that is added, and its number. -/
def subscribe (adapter : MemoryAdapter Handler) (patterns : List String) (handler : Handler) :
    Except String (ℕ × MemoryAdapter Handler) :=
  if ¬ adapter.connected then .error "MemoryAdapter: not connected"
  else .ok (adapter.created, { adapter with
    subscriptions := adapter.subscriptions ++ [⟨adapter.created, patterns, handler⟩]
    created := adapter.created + 1 })

def unsubscribe (adapter : MemoryAdapter Handler) (id : ℕ) : MemoryAdapter Handler :=
  { adapter with subscriptions := adapter.subscriptions.filter fun sub => sub.id ≠ id }

/-- The subscriptions whose handlers `publish` calls, one after the other. -/
def matchingSubs (adapter : MemoryAdapter Handler) (eventType : String) :
    Except String (List (MemorySubscription Handler)) :=
  if ¬ adapter.connected then .error "MemoryAdapter: not connected"
  else .ok (adapter.subscriptions.filter fun sub => sub.matchesEvent eventType)

/-- A number belongs to one subscription. -/
structure Numbered (adapter : MemoryAdapter Handler) : Prop where
  injective : ∀ a ∈ adapter.subscriptions, ∀ b ∈ adapter.subscriptions, a.id = b.id → a = b
  lt_created : ∀ sub ∈ adapter.subscriptions, sub.id < adapter.created

variable {adapter : MemoryAdapter Handler}

theorem numbered_initial : Numbered ({} : MemoryAdapter Handler) :=
  ⟨fun _ h => absurd h List.not_mem_nil, fun _ h => absurd h List.not_mem_nil⟩

theorem Numbered.of_subset {adapter' : MemoryAdapter Handler} (h : adapter.Numbered)
    (hsubset : adapter'.subscriptions ⊆ adapter.subscriptions)
    (hcreated : adapter'.created = adapter.created) : adapter'.Numbered where
  injective a ha b hb := h.injective a (hsubset ha) b (hsubset hb)
  lt_created sub hsub := hcreated ▸ h.lt_created sub (hsubset hsub)

theorem mem_unsubscribeAll {ids : List ℕ} {sub : MemorySubscription Handler} :
    sub ∈ (ids.foldl unsubscribe adapter).subscriptions ↔
      sub ∈ adapter.subscriptions ∧ sub.id ∉ ids := by
  induction ids generalizing adapter with
  | nil => simp
  | cons id ids ih =>
    rw [List.foldl_cons, ih, unsubscribe, List.mem_filter, decide_eq_true_iff, List.mem_cons,
      not_or, and_assoc]

theorem connected_unsubscribeAll {ids : List ℕ} :
    (ids.foldl unsubscribe adapter).connected = adapter.connected := by
  induction ids generalizing adapter with
  | nil => rfl
  | cons id ids ih => rw [List.foldl_cons, ih, unsubscribe]

theorem created_unsubscribeAll {ids : List ℕ} :
    (ids.foldl unsubscribe adapter).created = adapter.created := by
  induction ids generalizing adapter with
  | nil => rfl
  | cons id ids ih => rw [List.foldl_cons, ih, unsubscribe]

theorem sublist_unsubscribeAll {ids : List ℕ} :
    (ids.foldl unsubscribe adapter).subscriptions.Sublist adapter.subscriptions := by
  induction ids generalizing adapter with
  | nil => exact .refl _
  | cons id ids ih => exact ih.trans List.filter_sublist

theorem Numbered.unsubscribeAll (h : adapter.Numbered) (ids : List ℕ) :
    (ids.foldl unsubscribe adapter).Numbered :=
  h.of_subset sublist_unsubscribeAll.subset created_unsubscribeAll

theorem Numbered.disconnect (h : adapter.Numbered) : adapter.disconnect.Numbered :=
  h.of_subset (List.nil_subset _) rfl

theorem Numbered.subscribe {adapter' : MemoryAdapter Handler} {patterns : List String}
    {handler : Handler} {id : ℕ} (h : adapter.Numbered)
    (hsubscribe : adapter.subscribe patterns handler = .ok (id, adapter')) :
    adapter'.Numbered := by
  unfold MemoryAdapter.subscribe at hsubscribe
  split at hsubscribe
  next => cases hsubscribe
  next =>
    cases hsubscribe
    constructor
    · intro a ha b hb hid
      rcases List.mem_append.mp ha with ha | ha <;> rcases List.mem_append.mp hb with hb | hb
      · exact h.injective a ha b hb hid
      · have hlt := h.lt_created a ha
        rw [List.mem_singleton.mp hb] at hid
        exact absurd hid (Nat.ne_of_lt hlt)
      · have hlt := h.lt_created b hb
        rw [List.mem_singleton.mp ha] at hid
        exact absurd hid (Nat.ne_of_gt hlt)
      · rw [List.mem_singleton.mp ha, List.mem_singleton.mp hb]
    · intro sub hsub
      rcases List.mem_append.mp hsub with hsub | hsub
      · exact Nat.lt_succ_of_lt (h.lt_created sub hsub)
      · rw [List.mem_singleton.mp hsub]
        exact Nat.lt_succ_self _

end MemoryAdapter
end Connectum.Events
