import Mathlib.Data.Finset.Card
import Mathlib.Data.Finset.SDiff
import Mathlib.Logic.Relation
import Mathlib.Order.WellFounded
import Mathlib.Tactic.Common

/-! Depth-first search for a repeated node, with a copy of the path for each branch, in a graph
given by the successors of each node. -/
namespace PathSearch
open Relation
variable {α : Type*} {succ : α → List α}

def Edge (succ : α → List α) (a b : α) : Prop := b ∈ succ a

def Acyclic (r : α → α → Prop) : Prop := ∀ a, ¬ TransGen r a a

/-- A path in a graph that differs from `r` at `a` only is a path of `r`, or passes through `a`. -/
theorem transGen_or_through {r r' : α → α → Prop} {a : α} (h : ∀ b c, r' b c → r b c ∨ b = a)
    {b c : α} (hbc : TransGen r' b c) :
    TransGen r b c ∨ ReflTransGen r' b a ∧ TransGen r' a c := by
  induction hbc using TransGen.head_induction_on with
  | @single b hb =>
    rcases h b c hb with hr | rfl
    · exact .inl (.single hr)
    · exact .inr ⟨.refl, .single hb⟩
  | @head b d hb hd ih =>
    rcases h b d hb with hr | rfl
    · rcases ih with ih | ⟨hda, hac⟩
      · exact .inl (.head hr ih)
      · exact .inr ⟨.head hb hda, hac⟩
    · exact .inr ⟨.refl, .head hb hd⟩

/-- New edges at `a` close a cycle only through `a`. -/
theorem cycle_through {r r' : α → α → Prop} {a b : α} (hr : Acyclic r)
    (h : ∀ b c, r' b c → r b c ∨ b = a) (hb : TransGen r' b b) : TransGen r' a a := by
  rcases transGen_or_through h hb with hcycle | ⟨hba, hab⟩
  · exact absurd hcycle (hr b)
  · exact hab.trans_left hba

theorem anyM_eq_some {l : List α} {f : α → Option Bool} {found : Bool}
    (h : l.anyM f = some found) :
    (found = true ∧ ∃ a ∈ l, f a = some true) ∨ (found = false ∧ ∀ a ∈ l, f a = some false) := by
  induction l with
  | nil => exact .inr ⟨(Option.some.inj h).symm, by simp⟩
  | cons a l ih =>
    rw [List.anyM] at h
    cases ha : f a with
    | none => simp [ha] at h
    | some b =>
      rw [ha] at h
      cases b with
      | true => exact .inl ⟨(Option.some.inj h).symm, a, List.mem_cons_self, ha⟩
      | false =>
        rcases ih h with ⟨hfound, b, hb, hfb⟩ | ⟨hfound, hall⟩
        · exact .inl ⟨hfound, b, List.mem_cons_of_mem a hb, hfb⟩
        · exact .inr ⟨hfound, List.forall_mem_cons.mpr ⟨ha, hall⟩⟩

theorem anyM_isSome {l : List α} {f : α → Option Bool} (h : ∀ a ∈ l, (f a).isSome) :
    (l.anyM f).isSome := by
  induction l with
  | nil => rfl
  | cons a l ih =>
    obtain ⟨ha, hl⟩ := List.forall_mem_cons.mp h
    obtain ⟨b, hb⟩ := Option.isSome_iff_exists.mp ha
    rw [List.anyM, hb]
    cases b with
    | true => rfl
    | false => exact ih hl

variable [DecidableEq α]

/-- Whether some path from `a` comes back to a node of `path` or of its own; `none` if the recursion
goes deeper than `depth`. -/
def revisits (succ : α → List α) : ℕ → α → List α → Option Bool
  | 0, _, _ => none
  | depth + 1, a, path =>
    if a ∈ path then some true
    else (succ a).anyM fun b => revisits succ depth b (a :: path)

/-- A node that is found repeats on a path, or lies behind a cycle. -/
theorem exists_of_revisits {depth : ℕ} {a : α} {path : List α}
    (h : revisits succ depth a path = some true) :
    ∃ b, ReflTransGen (Edge succ) a b ∧ (b ∈ path ∨ TransGen (Edge succ) b b) := by
  induction depth generalizing a path with
  | zero => cases h
  | succ depth ih =>
    rw [revisits] at h
    split at h
    next ha => exact ⟨a, .refl, .inl ha⟩
    next =>
      rcases anyM_eq_some h with ⟨-, b, hb, hrevisits⟩ | ⟨hfound, -⟩
      · obtain ⟨c, hbc, hc⟩ := ih hrevisits
        have hac : TransGen (Edge succ) a c := .head' hb hbc
        rcases hc with hc | hcycle
        · rcases List.mem_cons.mp hc with rfl | hc
          · exact ⟨c, .refl, .inr hac⟩
          · exact ⟨c, hac.to_reflTransGen, .inl hc⟩
        · exact ⟨c, hac.to_reflTransGen, .inr hcycle⟩
      · cases hfound

theorem revisits_eq_false {depth : ℕ} {a : α} {path : List α}
    (h : revisits succ (depth + 1) a path = some false) :
    a ∉ path ∧ ∀ b ∈ succ a, revisits succ depth b (a :: path) = some false := by
  rw [revisits] at h
  split at h
  next => cases h
  next ha =>
    rcases anyM_eq_some h with ⟨hfound, -⟩ | ⟨-, hall⟩
    · cases hfound
    · exact ⟨ha, hall⟩

theorem not_mem_of_revisits {depth : ℕ} {a b : α} {path : List α}
    (h : revisits succ depth a path = some false) (hab : ReflTransGen (Edge succ) a b) :
    b ∉ path ∧ ¬ TransGen (Edge succ) b b := by
  induction depth generalizing a b path with
  | zero => cases h
  | succ depth ih =>
    obtain ⟨ha, hall⟩ := revisits_eq_false h
    have hback : ∀ c, ReflTransGen (Edge succ) a c → ¬ TransGen (Edge succ) c a := by
      intro c hac hca
      obtain ⟨d, hd, hda⟩ := TransGen.head'_iff.mp (TransGen.trans_right hac hca)
      exact (ih (hall d hd) hda).1 List.mem_cons_self
    rcases hab.cases_head with rfl | ⟨c, hc, hcb⟩
    · exact ⟨ha, hback a .refl⟩
    · obtain ⟨hpath, hcycle⟩ := ih (hall c hc) hcb
      exact ⟨fun hb => hpath (List.mem_cons_of_mem a hb), hcycle⟩

/-- The search from a node finds a cycle if and only if one can be reached from it. -/
theorem revisits_iff {depth : ℕ} {a : α} {found : Bool}
    (h : revisits succ depth a [] = some found) :
    found = true ↔ ∃ b, ReflTransGen (Edge succ) a b ∧ TransGen (Edge succ) b b := by
  cases found with
  | true =>
    obtain ⟨b, hab, hb⟩ := exists_of_revisits h
    exact ⟨fun _ => ⟨b, hab, hb.resolve_left List.not_mem_nil⟩, fun _ => rfl⟩
  | false =>
    refine ⟨fun hfound => (by cases hfound), ?_⟩
    rintro ⟨b, hab, hb⟩
    exact absurd hb (not_mem_of_revisits h hab).2

/-- The search ends, since a path has no more nodes than the graph. -/
theorem revisits_isSome {nodes : Finset α} (hnodes : ∀ a, a ∉ nodes → succ a = []) {depth : ℕ}
    {a : α} {path : List α} (h : (nodes \ path.toFinset).card < depth) :
    (revisits succ depth a path).isSome := by
  induction depth generalizing a path with
  | zero => omega
  | succ depth ih =>
    rw [revisits]
    split
    next => rfl
    next ha =>
      apply anyM_isSome
      intro b hb
      apply ih
      have hmem : a ∈ nodes := by
        by_contra hmem
        rw [hnodes a hmem] at hb
        exact absurd hb List.not_mem_nil
      have hlt : (nodes \ (a :: path).toFinset).card < (nodes \ path.toFinset).card := by
        rw [List.toFinset_cons, Finset.sdiff_insert]
        apply Finset.card_erase_lt_of_mem
        simp [hmem, ha]
      omega

theorem acc_of_revisits {depth : ℕ} {a : α} {path : List α}
    (h : revisits succ depth a path = some false) : Acc (fun b a => Edge succ a b) a := by
  induction depth generalizing a path with
  | zero => cases h
  | succ depth ih =>
    obtain ⟨-, hall⟩ := revisits_eq_false h
    exact ⟨a, fun b hb => ih (hall b hb)⟩

/-- The descents of a finite acyclic graph end. -/
theorem wellFounded_of_acyclic {nodes : Finset α} (hnodes : ∀ a, a ∉ nodes → succ a = [])
    (h : Acyclic (Edge succ)) : WellFounded fun b a => Edge succ a b := by
  refine ⟨fun a => ?_⟩
  obtain ⟨found, hfound⟩ := Option.isSome_iff_exists.mp
    (revisits_isSome hnodes (a := a) (Nat.lt_succ_self (nodes \ [].toFinset).card))
  cases found with
  | true =>
    obtain ⟨b, -, hb⟩ := (revisits_iff hfound).mp rfl
    exact absurd hb (h b)
  | false => exact acc_of_revisits hfound

end PathSearch
