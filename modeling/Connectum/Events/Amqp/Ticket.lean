import Connectum.Events.Amqp.Publish

/-! What may happen to one mandatory publish if each returned message is counted for its own
publish. -/
namespace Connectum.Events.Amqp

inductive Verdict where
  | resolved
  | unroutable
  | timedOut
  | failed
  deriving DecidableEq, Repr

def Outcome.verdict : Outcome → Verdict
  | .resolved => .resolved
  | .rejected (.unroutable _ _) => .unroutable
  | .rejected (.timeout _) => .timedOut
  | .rejected (.connection _) | .rejected (.serialization _) | .rejected (.nack _) => .failed

namespace Ticket

inductive Phase where
  | idle
  | waiting
  | decided (verdict : Verdict)
  | settled (verdict : Verdict)
  deriving DecidableEq, Repr

def Phase.verdict : Phase → Option Verdict
  | .idle | .waiting => none
  | .decided verdict | .settled verdict => some verdict

end Ticket

/-- The broker owes an answer while the ticket is outstanding; it is held while a return would
find it, and returned once one has. -/
structure Ticket where
  phase : Ticket.Phase := .idle
  outstanding : Bool := false
  held : Bool := false
  returned : Bool := false
  deriving DecidableEq, Repr

def PublishEvent.isSettled : PublishEvent → Bool
  | .settled _ => true
  | .started | .failed | .returned | .confirmed | .nacked | .timedOut | .lost | .cleared => false

namespace Ticket

def conclude (t : Ticket) (verdict : Verdict) : Ticket :=
  if t.phase = .waiting then { t with phase := .decided verdict } else t

/-- The broker's answer. -/
def answer (t : Ticket) (verdict : Verdict) : Ticket :=
  { t with outstanding := false }.conclude verdict

def step : Machine.Step Ticket PublishEvent PublishEvent
  | t, .started =>
    if t.phase = .idle then
      some ({ phase := .waiting, outstanding := true, held := true, returned := false }, [.started])
    else none
  | t, .failed =>
    if t.phase = .idle then
      some ({ t with phase := .decided .failed, held := true, returned := false }, [.failed])
    else none
  | t, .returned =>
    if t.outstanding then some ({ t with returned := t.returned || t.held }, [.returned]) else none
  | t, .confirmed =>
    if t.outstanding then
      some (t.answer (if t.returned then .unroutable else .resolved), [.confirmed])
    else none
  | t, .nacked => if t.outstanding then some (t.answer .failed, [.nacked]) else none
  | t, .lost => if t.outstanding then some (t.answer .failed, [.lost]) else none
  | t, .timedOut =>
    if t.phase = .waiting then some ({ t with phase := .decided .timedOut }, [.timedOut]) else none
  | t, .cleared => if t.held then some ({ t with held := false }, [.cleared]) else none
  | t, .settled outcome =>
    if t.phase = .decided outcome.verdict then
      some ({ t with phase := .settled outcome.verdict, held := false }, [.settled outcome])
    else none

/-- What a step can do. -/
inductive Step (t : Ticket) : PublishEvent → Ticket → Prop where
  | started : t.phase = .idle → Step t .started ⟨.waiting, true, true, false⟩
  | failed : t.phase = .idle →
      Step t .failed { t with phase := .decided .failed, held := true, returned := false }
  | returned : t.outstanding = true →
      Step t .returned { t with returned := t.returned || t.held }
  | confirmed : t.outstanding = true →
      Step t .confirmed (t.answer (if t.returned then .unroutable else .resolved))
  | dropped (e : PublishEvent) : t.outstanding = true → e = .nacked ∨ e = .lost →
      Step t e (t.answer .failed)
  | timedOut : t.phase = .waiting → Step t .timedOut { t with phase := .decided .timedOut }
  | cleared : t.held = true → Step t .cleared { t with held := false }
  | settled (outcome : Outcome) : t.phase = .decided outcome.verdict →
      Step t (.settled outcome) { t with phase := .settled outcome.verdict, held := false }

theorem step_cases {t u : Ticket} {e : PublishEvent} {out : List PublishEvent}
    (h : step t e = some (u, out)) : Step t e u ∧ out = [e] := by
  cases e <;> simp only [step] at h <;> split at h
  all_goals first
    | next hguard =>
        obtain ⟨rfl, rfl⟩ := Prod.mk.inj (Option.some.inj h)
        refine ⟨?_, rfl⟩
        constructor <;> first | exact hguard | exact .inl rfl | exact .inr rfl
    | cases h

variable {t u : Ticket} {e : PublishEvent} {history out : List PublishEvent} {verdict : Verdict}

theorem conclude_cases (t : Ticket) (verdict : Verdict) :
    (t.phase = .waiting ∧ t.conclude verdict = { t with phase := .decided verdict }) ∨
      (t.phase ≠ .waiting ∧ t.conclude verdict = t) := by
  by_cases h : t.phase = .waiting
  · exact .inl ⟨h, if_pos h⟩
  · exact .inr ⟨h, if_neg h⟩

theorem answer_cases (t : Ticket) (verdict : Verdict) :
    (t.phase = .waiting ∧
        t.answer verdict = { t with phase := .decided verdict, outstanding := false }) ∨
      (t.phase ≠ .waiting ∧ t.answer verdict = { t with outstanding := false }) :=
  conclude_cases { t with outstanding := false } verdict

/-- How the ticket of a publish follows from what has happened to it. -/
structure Explained (t : Ticket) (history : List PublishEvent) : Prop where
  idle : t.phase = .idle → t = {} ∧ history = []
  outstanding : t.outstanding = true → t.phase = .waiting ∨ .timedOut ∈ history
  found : t.phase = .waiting → .cleared ∉ history →
    t.held = true ∧ (.returned ∈ history → t.returned = true)
  returned : t.returned = true → .returned ∈ history
  timedOut : .timedOut ∈ history → t.phase.verdict = some .timedOut
  unroutable : t.phase.verdict = some .unroutable → .returned ∈ history
  resolved : t.phase.verdict = some .resolved → .confirmed ∈ history
  settled : ∀ outcome, .settled outcome ∈ history → t.phase = .settled outcome.verdict
  dropped : ∀ v, t.phase = .settled v → t.held = false

theorem explained_nil : Explained {} [] := by
  constructor <;> simp [Phase.verdict]

/-- An answer decides a publish that waits, and no other. -/
theorem Explained.answer (h : Explained t history) (hout : t.outstanding = true)
    (he : e = .confirmed ∨ e = .nacked ∨ e = .lost)
    (hunroutable : verdict = .unroutable → t.returned = true)
    (hresolved : verdict = .resolved → e = .confirmed) :
    Explained (t.answer verdict) (history ++ [e]) := by
  have hidle : t.phase ≠ .idle := by
    intro hphase
    rw [(h.idle hphase).1] at hout
    cases hout
  have hreturned := h.returned
  rcases answer_cases t verdict with ⟨hphase, heq⟩ | ⟨hphase, heq⟩ <;> rw [heq]
  · have hsettled := h.settled
    have htimeless : .timedOut ∉ history := by
      intro hmem
      have hverdict := h.timedOut hmem
      rw [hphase] at hverdict
      cases hverdict
    constructor <;> grind [Phase.verdict]
  · obtain ⟨-, -, -, -, htime, hunr, hres, hset, hdrop⟩ := h
    constructor <;> grind [Phase.verdict]

theorem Explained.step (h : Explained t history) (hstep : Step t e u) :
    Explained u (history ++ [e]) := by
  cases hstep with
  | started hphase =>
    obtain ⟨rfl, rfl⟩ := h.idle hphase
    constructor <;> simp [Phase.verdict]
  | failed hphase =>
    obtain ⟨rfl, rfl⟩ := h.idle hphase
    constructor <;> simp [Phase.verdict]
  | returned hout =>
    obtain ⟨hidle, hout, hfound, hret, htime, hunr, hres, hset, hdrop⟩ := h
    constructor <;> grind
  | confirmed hout =>
    apply h.answer hout (.inl rfl) <;> split <;> simp_all
  | dropped e hout he =>
    exact h.answer hout (.inr he) (fun hv => nomatch hv) (fun hv => nomatch hv)
  | timedOut hphase =>
    obtain ⟨hidle, hout, hfound, hret, htime, hunr, hres, hset, hdrop⟩ := h
    constructor <;> grind [Phase.verdict]
  | cleared hheld =>
    obtain ⟨hidle, hout, hfound, hret, htime, hunr, hres, hset, hdrop⟩ := h
    constructor <;> grind
  | settled outcome hphase =>
    obtain ⟨hidle, hout, hfound, hret, htime, hunr, hres, hset, hdrop⟩ := h
    constructor <;> grind [Phase.verdict]

theorem run_eq (hrun : Machine.run step t history = some (u, out)) : out = history := by
  induction history generalizing t out with
  | nil => exact (Machine.run_nil.mp hrun).2
  | cons e history ih =>
    obtain ⟨v, first, rest, hstep, hrest, rfl⟩ := Machine.run_cons.mp hrun
    rw [(step_cases hstep).2, ih hrest]
    rfl

theorem explained_of_run (hrun : Machine.run step {} history = some (t, out)) :
    Explained t history := by
  have hinv : Explained t ([] ++ out) := by
    refine Machine.run_invariant (I := Explained) ?_ explained_nil hrun
    intro t history e u out h hnext
    obtain ⟨hstep, rfl⟩ := step_cases hnext
    exact h.step hstep
  rwa [List.nil_append, run_eq hrun] at hinv

/-- A publish settles at most once. -/
theorem settles_once (hrun : Machine.run step {} history = some (t, out)) :
    (history.filter PublishEvent.isSettled).length ≤ 1 := by
  have hinv : Explained t ([] ++ out) ∧ (([] ++ out).filter PublishEvent.isSettled).length ≤ 1 := by
    refine Machine.run_invariant
      (I := fun t history => Explained t history ∧
        (history.filter PublishEvent.isSettled).length ≤ 1) ?_ ⟨explained_nil, by simp⟩ hrun
    rintro t history e u out ⟨h, honce⟩ hnext
    obtain ⟨hstep, rfl⟩ := step_cases hnext
    refine ⟨h.step hstep, ?_⟩
    cases hstep with
    | settled outcome hphase =>
      have hnone : history.filter PublishEvent.isSettled = [] := by
        rw [List.filter_eq_nil_iff]
        intro e he hsettled
        cases e with
        | settled outcome' =>
          have hsettled := h.settled outcome' he
          rw [hphase] at hsettled
          cases hsettled
        | _ => cases hsettled
      rw [List.filter_append, hnone]
      exact List.length_filter_le ..
    | dropped e hout he => rcases he with rfl | rfl <;> simpa [PublishEvent.isSettled] using honce
    | _ => simpa [PublishEvent.isSettled] using honce
  rw [List.nil_append, run_eq hrun] at hinv
  exact hinv.2

theorem verdict_step (hstep : Step t e u) (h : t.phase.verdict = some verdict) :
    u.phase.verdict = some verdict := by
  cases hstep with
  | started hphase | failed hphase | timedOut hphase =>
    rw [hphase] at h
    cases h
  | returned | cleared => exact h
  | confirmed =>
    rcases answer_cases t (if t.returned then .unroutable else .resolved) with
      ⟨hphase, -⟩ | ⟨-, heq⟩
    · rw [hphase] at h
      cases h
    · rw [heq]
      exact h
  | dropped =>
    rcases answer_cases t .failed with ⟨hphase, -⟩ | ⟨-, heq⟩
    · rw [hphase] at h
      cases h
    · rw [heq]
      exact h
  | settled outcome hphase =>
    rw [hphase] at h
    exact h

theorem verdict_run (hrun : Machine.run step t history = some (u, out))
    (h : t.phase.verdict = some verdict) : u.phase.verdict = some verdict :=
  Machine.run_preserves (fun _ _ _ _ h hstep => verdict_step (step_cases hstep).1 h) h hrun

/-- A message that was returned before it was confirmed makes its publish unroutable, unless the
publish had timed out or its record was gone. -/
theorem unroutable_of_returned {before after : List PublishEvent}
    (hrun : Machine.run step {} (before ++ .confirmed :: after) = some (t, out))
    (hreturned : .returned ∈ before) (htimedOut : .timedOut ∉ before)
    (hcleared : .cleared ∉ before) : t.phase.verdict = some .unroutable := by
  obtain ⟨v, l, r, hbefore, hafter, -⟩ := Machine.run_append.mp hrun
  obtain ⟨w, first, rest, hconfirmed, hrest, -⟩ := Machine.run_cons.mp hafter
  have h := explained_of_run hbefore
  apply verdict_run hrest
  cases (step_cases hconfirmed).1 with
  | confirmed hout =>
    have hphase := (h.outstanding hout).resolve_right htimedOut
    have hmarked := (h.found hphase hcleared).2 hreturned
    rw [if_pos hmarked, answer, conclude, if_pos hphase]
    rfl
  | dropped _ _ he => rcases he with he | he <;> cases he

/-- The record of a publish whose message is outstanding is not dropped. -/
def ClearsAnswered (t : Ticket) (e : PublishEvent) : Prop := e = .cleared → t.outstanding = false

theorem open_step (hstep : Step t e u) (hu : u.phase = .idle ∨ u.outstanding = true) :
    t.phase = .idle ∨ t.outstanding = true := by
  cases hstep with
  | started hphase | failed hphase => exact .inl hphase
  | returned hout | confirmed hout | dropped _ hout => exact .inr hout
  | cleared => exact hu
  | timedOut | settled => exact .inr (hu.resolve_left nofun)

theorem not_cleared_of_outstanding (hmeets : Machine.Meets step ClearsAnswered {} history)
    (hrun : Machine.run step {} history = some (t, out)) (hout : t.outstanding = true) :
    .cleared ∉ history := by
  have hinv : Explained t ([] ++ out) ∧
      (t.phase = .idle ∨ t.outstanding = true → .cleared ∉ [] ++ out) := by
    refine Machine.run_invariant_of_meets
      (I := fun t history => Explained t history ∧
        (t.phase = .idle ∨ t.outstanding = true → .cleared ∉ history)) ?_
      ⟨explained_nil, fun _ => List.not_mem_nil⟩ hmeets hrun
    rintro t history e u out ⟨h, hkept⟩ hclears hnext
    obtain ⟨hstep, rfl⟩ := step_cases hnext
    refine ⟨h.step hstep, fun hu => ?_⟩
    have hopen := open_step hstep hu
    have hne : e ≠ .cleared := by
      rintro rfl
      cases hstep with
      | cleared hheld =>
        rcases hopen with hidle | hout
        · rw [(h.idle hidle).1] at hheld
          cases hheld
        · rw [hclears rfl] at hout
          cases hout
      | dropped _ _ he => rcases he with he | he <;> cases he
    simp [hkept hopen, hne.symm]
  rw [List.nil_append, run_eq hrun] at hinv
  exact hinv.2 (.inr hout)

/-- No more is to be heard of a message that has been answered. -/
theorem answered_step (hstep : Step t e u) (hphase : t.phase ≠ .idle)
    (h : t.outstanding = false) : (u.phase ≠ .idle ∧ u.outstanding = false) ∧ e ≠ .returned := by
  cases hstep with
  | started hidle | failed hidle => exact absurd hidle hphase
  | returned hout | confirmed hout | dropped _ hout =>
    rw [h] at hout
    cases hout
  | timedOut => exact ⟨⟨nofun, h⟩, nofun⟩
  | cleared => exact ⟨⟨hphase, h⟩, nofun⟩
  | settled => exact ⟨⟨nofun, h⟩, nofun⟩

theorem answered_run (hrun : Machine.run step t history = some (u, out)) (hphase : t.phase ≠ .idle)
    (h : t.outstanding = false) : .returned ∉ history := by
  induction history generalizing t out with
  | nil => exact List.not_mem_nil
  | cons e history ih =>
    obtain ⟨v, first, rest, hstep, hrest, -⟩ := Machine.run_cons.mp hrun
    obtain ⟨⟨hphase, hout⟩, hne⟩ := answered_step (step_cases hstep).1 hphase h
    rw [List.mem_cons]
    rintro (heq | hmem)
    · exact hne heq.symm
    · exact ih hrest hphase hout hmem

theorem answered_of_confirmed (h : Explained t history) (hstep : Step t .confirmed u) :
    u.phase ≠ .idle ∧ u.outstanding = false := by
  cases hstep with
  | confirmed hout =>
    rcases answer_cases t (if t.returned then .unroutable else .resolved) with
      ⟨-, heq⟩ | ⟨-, heq⟩
    · rw [heq]
      exact ⟨nofun, rfl⟩
    · rw [heq]
      refine ⟨fun hidle => ?_, rfl⟩
      rw [(h.idle hidle).1] at hout
      cases hout
  | dropped _ _ he => rcases he with he | he <;> cases he

/-- A publish whose record is not dropped too early resolves only if its message has not been
returned. -/
theorem not_returned_of_resolved (hmeets : Machine.Meets step ClearsAnswered {} history)
    (hrun : Machine.run step {} history = some (t, out))
    (hresolved : t.phase.verdict = some .resolved) : .returned ∉ history := by
  have h := explained_of_run hrun
  obtain ⟨before, after, rfl⟩ := List.append_of_mem (h.resolved hresolved)
  obtain ⟨v, l, r, hbefore, hafter, -⟩ := Machine.run_append.mp hrun
  obtain ⟨w, first, rest, hconfirmed, hrest, -⟩ := Machine.run_cons.mp hafter
  have hcleared : .cleared ∉ before := by
    apply not_cleared_of_outstanding ((Machine.meets_append hbefore).mp hmeets).1 hbefore
    cases (step_cases hconfirmed).1 with
    | confirmed hout => exact hout
    | dropped _ hout => exact hout
  have htimedOut : .timedOut ∉ before := by
    intro hmem
    have hverdict := h.timedOut (List.mem_append_left _ hmem)
    rw [hresolved] at hverdict
    cases hverdict
  have hafter : .returned ∉ after := by
    obtain ⟨hphase, hanswered⟩ :=
      answered_of_confirmed (explained_of_run hbefore) (step_cases hconfirmed).1
    exact answered_run hrest hphase hanswered
  intro hreturned
  have hbefore : .returned ∈ before := by
    simpa [hafter] using hreturned
  have hverdict := unroutable_of_returned hrun hbefore htimedOut hcleared
  rw [hresolved] at hverdict
  cases hverdict

end Ticket
end Connectum.Events.Amqp
