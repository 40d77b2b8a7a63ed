import Connectum.Async
import Connectum.Events.Pattern
import Mathlib.Data.List.MinMax

/-! A stream of the broker with its durable consumers. Each consumer has a position in the
stream, and hands the messages that its filter accepts to one of its open iterators. -/
namespace Connectum.Events.Nats
open WordPattern

inductive AckPolicy where
  | none
  | all
  | explicit
  deriving DecidableEq, Repr

inductive DeliverPolicy where
  | all
  | last
  | new
  deriving DecidableEq, Repr

structure ConsumerConfig where
  durableName : String
  ackPolicy : AckPolicy
  deliverPolicy : DeliverPolicy
  filterSubject : String
  ackWait : ℕ
  maxDeliver : ℤ
  deriving DecidableEq, Repr

structure Durable where
  config : ConsumerConfig
  position : ℕ
  deriving DecidableEq, Repr

/-- The subjects of the messages of the stream, its consumers, and the open iterators with the
consumer that each one pulls from. -/
structure Broker where
  messages : List String := []
  durables : List Durable := []
  iterators : List (ℕ × String) := []
  deriving DecidableEq, Repr

inductive Call where
  | add (streamName : String) (config : ConsumerConfig)
  | get (streamName durableName : String)
  | consume (durableName : String)
  | close (iterator : ℕ)
  | delete (streamName durableName : String)
  deriving DecidableEq, Repr

def Call.Answer : Call → Type
  | .consume _ => Except String ℕ
  | _ => Except String Unit

/-- Names that the broker takes for a stream. -/
def IsStreamName (streamName : String) : Prop :=
  streamName ≠ "" ∧ ∀ c ∈ ['.', '*', '>'], c ∉ streamName.toList

/-- Filters that the broker takes: no empty token, and `>` only at the end. -/
def IsFilter (filterSubject : String) : Prop :=
  [] ∉ words filterSubject ∧ ['>'] ∉ (words filterSubject).dropLast

instance : DecidablePred IsStreamName := fun streamName =>
  have : Decidable (∀ c ∈ ['.', '*', '>'], c ∉ streamName.toList) := List.decidableBAll _ _
  inferInstanceAs (Decidable (_ ∧ _))

instance : DecidablePred IsFilter := fun _ => inferInstanceAs (Decidable (_ ∧ _))

def ConsumerConfig.accepts (config : ConsumerConfig) (subject : String) : Bool :=
  WordPattern.accepts (busTokens (words config.filterSubject)) (words subject)

/-- Where a new consumer begins. -/
def ConsumerConfig.startPosition (config : ConsumerConfig) (messages : List String) : ℕ :=
  match config.deliverPolicy with
  | .all => 0
  | .new => messages.length
  | .last =>
    ((List.range messages.length).reverse.find? fun i =>
      (messages[i]?).any config.accepts).getD messages.length

namespace Broker

def find (b : Broker) (durableName : String) : Option Durable :=
  b.durables.find? fun d => d.config.durableName = durableName

/-- `add` creates a consumer, and leaves one of the same configuration as it is. -/
def add (b : Broker) (streamName : String) (config : ConsumerConfig) : Option Broker :=
  if IsStreamName streamName ∧ IsFilter config.filterSubject then
    match b.find config.durableName with
    | none =>
      some { b with durables := b.durables ++ [⟨config, config.startPosition b.messages⟩] }
    | some d => if d.config = config then some b else none
  else none

/-- The state after an answer; `none` is an answer that the broker does not give in this state.
A call that fails changes nothing. -/
def effect (b : Broker) : (q : Call) → q.Answer → Option Broker
  | .add streamName config, .ok _ => b.add streamName config
  | .get _ durableName, .ok _ => (b.find durableName).map fun _ => b
  | .consume durableName, .ok iterator =>
    if (b.find durableName).isSome ∧ iterator ∉ b.iterators.map Prod.fst then
      some { b with iterators := b.iterators ++ [(iterator, durableName)] }
    else none
  | .close iterator, .ok _ =>
    some { b with iterators := b.iterators.filter fun e => e.1 ≠ iterator }
  | .delete _ durableName, .ok _ =>
    some { b with durables := b.durables.filter fun d => d.config.durableName ≠ durableName }
  | .add _ _, .error _ | .get _ _, .error _ | .consume _, .error _ | .close _, .error _
  | .delete _ _, .error _ => some b

inductive Action where
  | publish (subject : String)
  | advance (durableName : String)
  deriving DecidableEq, Repr

/-- A message that a consumer hands to one of its iterators. -/
structure Delivery where
  durableName : String
  seq : ℕ
  subject : String
  deriving DecidableEq, Repr

/-- A consumer with an open iterator goes on to the next message of the stream. -/
def step : Machine.Step Broker Action Delivery
  | b, .publish subject =>
    if IsTopic subject then some ({ b with messages := b.messages ++ [subject] }, []) else none
  | b, .advance durableName =>
    if durableName ∈ b.iterators.map Prod.snd then
      match b.find durableName with
      | none => none
      | some d =>
        match b.messages[d.position]? with
        | none => none
        | some subject =>
          some ({ b with durables := b.durables.map fun d =>
              if d.config.durableName = durableName then { d with position := d.position + 1 }
              else d },
            if d.config.accepts subject then [⟨durableName, d.position, subject⟩] else [])
    else none

/-- The broker answers a call; until the caller goes on it takes steps of its own. -/
def Answers (q : Call) (a : q.Answer) (b u : Broker) : Prop :=
  ∃ v actions log, b.effect q a = some v ∧ Machine.run step v actions = some (u, log)

/-- A broker that takes no steps of its own and fails no call that it can answer. -/
def respond : (q : Call) → Broker → q.Answer × Broker
  | .add streamName config, b =>
    match b.add streamName config with
    | some v => (.ok (), v)
    | none => (.error "invalid configuration", b)
  | .get _ durableName, b =>
    if (b.find durableName).isSome then (.ok (), b) else (.error "consumer not found", b)
  | .consume durableName, b =>
    let iterator := (b.iterators.map Prod.fst).foldr max 0 + 1
    if (b.find durableName).isSome then
      (.ok iterator, { b with iterators := b.iterators ++ [(iterator, durableName)] })
    else (.error "consumer not found", b)
  | .close iterator, b =>
    (.ok (), { b with iterators := b.iterators.filter fun e => e.1 ≠ iterator })
  | .delete _ durableName, b =>
    (.ok (), { b with durables := b.durables.filter fun d => d.config.durableName ≠ durableName })

theorem effect_respond (q : Call) (b : Broker) :
    b.effect q (respond q b).1 = some (respond q b).2 := by
  cases q with
  | add streamName config => cases h : b.add streamName config <;> simp [respond, h, effect]
  | get streamName durableName => cases h : b.find durableName <;> simp [respond, h, effect]
  | consume durableName =>
    have hfresh : (b.iterators.map Prod.fst).foldr max 0 + 1 ∉ b.iterators.map Prod.fst := by
      intro hmem
      have hle := List.le_max_of_le' 0 hmem le_rfl
      omega
    cases h : b.find durableName with
    | none => simp [respond, h, effect]
    | some d =>
      simp only [respond, h, effect, hfresh, Option.isSome_some, if_true, not_false_eq_true,
        and_self]
  | close iterator => rfl
  | delete streamName durableName => rfl

theorem answers_respond (q : Call) (b : Broker) :
    Answers q (respond q b).1 b (respond q b).2 := ⟨_, [], [], effect_respond q b, rfl⟩

variable {b c u : Broker} {action : Action} {actions : List Action} {log out : List Delivery}
  {name : String} {d : Durable}

/-- The consumer `name` goes on by one message. -/
def advanceTo (b : Broker) (name : String) : Broker :=
  { b with durables := b.durables.map fun d =>
    if d.config.durableName = name then { d with position := d.position + 1 } else d }

theorem find_advanceTo (b : Broker) (name other : String) :
    (b.advanceTo name).find other = (b.find other).map fun d =>
      if d.config.durableName = name then { d with position := d.position + 1 } else d := by
  unfold find advanceTo
  rw [List.find?_map]
  congr 2
  funext d
  by_cases h : d.config.durableName = name <;> simp [h]

theorem name_of_find (h : b.find name = some d) : d.config.durableName = name := by
  simpa using List.find?_some h

theorem find_advanceTo_self (h : b.find name = some d) :
    (b.advanceTo name).find name = some { d with position := d.position + 1 } := by
  rw [find_advanceTo, h, Option.map_some, if_pos (name_of_find h)]

theorem find_advanceTo_of_ne {other : String} (hne : other ≠ name) :
    (b.advanceTo name).find other = b.find other := by
  rw [find_advanceTo]
  cases h : b.find other with
  | none => rfl
  | some d => rw [Option.map_some, if_neg (fun heq => hne ((name_of_find h).symm.trans heq))]

/-- All that a step can do. -/
theorem step_cases (h : b.step action = some (c, out)) :
    (∃ subject, action = .publish subject ∧ IsTopic subject ∧ out = [] ∧
      c = { b with messages := b.messages ++ [subject] }) ∨
    ∃ name d subject, action = .advance name ∧ name ∈ b.iterators.map Prod.snd ∧
      b.find name = some d ∧ b.messages[d.position]? = some subject ∧ c = b.advanceTo name ∧
      out = if d.config.accepts subject then [⟨name, d.position, subject⟩] else [] := by
  cases action with
  | publish subject =>
    simp only [step] at h
    split at h
    next htopic =>
      obtain ⟨rfl, rfl⟩ := Prod.mk.inj (Option.some.inj h)
      exact .inl ⟨subject, rfl, htopic, rfl, rfl⟩
    next => simp at h
  | advance name =>
    simp only [step] at h
    split at h
    next hopen =>
      split at h
      next => simp at h
      next d hd =>
        split at h
        next => simp at h
        next subject hsubject =>
          obtain ⟨rfl, rfl⟩ := Prod.mk.inj (Option.some.inj h)
          exact .inr ⟨name, d, subject, rfl, hopen, hd, hsubject, rfl, rfl⟩
    next => simp at h

theorem step_advance {subject : String} (hopen : name ∈ b.iterators.map Prod.snd)
    (hd : b.find name = some d) (hsubject : b.messages[d.position]? = some subject) :
    b.step (.advance name) = some (b.advanceTo name,
      if d.config.accepts subject then [⟨name, d.position, subject⟩] else []) := by
  simp only [step, if_pos hopen, hd, hsubject]
  rfl

/-- No consumer is ahead of the stream. -/
def Valid (b : Broker) : Prop :=
  ∀ name d, b.find name = some d → d.position ≤ b.messages.length

theorem valid_step (hb : b.Valid) (h : b.step action = some (c, out)) : c.Valid := by
  intro other d' hd'
  rcases step_cases h with ⟨subject, -, -, -, rfl⟩ | ⟨name, d, subject, -, -, hd, hsubject, rfl, -⟩
  · have hle := hb other d' hd'
    simp only [List.length_append, List.length_singleton]
    omega
  · by_cases hname : other = name
    · subst hname
      rw [find_advanceTo_self hd] at hd'
      obtain rfl := Option.some.inj hd'
      exact (List.getElem?_eq_some_iff.mp hsubject).1
    · rw [find_advanceTo_of_ne hname] at hd'
      exact hb other d' hd'

theorem valid_run (hb : b.Valid) (h : Machine.run step b actions = some (c, log)) : c.Valid :=
  Machine.run_preserves (fun _ _ _ _ hs h => valid_step hs h) hb h

/-- A consumer after some messages. -/
def Follows (d d' : Durable) : Prop := d'.config = d.config ∧ d.position ≤ d'.position

theorem Follows.trans {d d' d'' : Durable} (h : Follows d d') (h' : Follows d' d'') :
    Follows d d'' := ⟨h'.1.trans h.1, h.2.trans h'.2⟩

/-- What the broker's own steps leave alone. -/
structure Elapsed (b c : Broker) : Prop where
  messages : b.messages <+: c.messages
  iterators : c.iterators = b.iterators
  find : ∀ name, Option.Rel Follows (b.find name) (c.find name)

theorem Elapsed.refl (b : Broker) : Elapsed b b where
  messages := List.prefix_rfl
  iterators := rfl
  find name := by
    cases b.find name with
    | none => exact .none
    | some d => exact .some ⟨rfl, le_rfl⟩

theorem Elapsed.exists_find (h : Elapsed b c) (hd : b.find name = some d) :
    ∃ d', c.find name = some d' ∧ Follows d d' := by
  have hrel := h.find name
  rw [hd] at hrel
  cases hc : c.find name with
  | none => simp [hc] at hrel
  | some d' => exact ⟨d', rfl, by simpa [hc] using hrel⟩

theorem Elapsed.find_eq_none (h : Elapsed b c) (hb : b.find name = none) :
    c.find name = none := by
  have hrel := h.find name
  rw [hb] at hrel
  cases hc : c.find name with
  | none => rfl
  | some d' => simp [hc] at hrel

theorem Elapsed.trans (h : Elapsed b c) (h' : Elapsed c u) : Elapsed b u where
  messages := h.messages.trans h'.messages
  iterators := h'.iterators.trans h.iterators
  find name := by
    cases hb : b.find name with
    | none => rw [h'.find_eq_none (h.find_eq_none hb)]; exact .none
    | some d =>
      obtain ⟨d', hc, hd'⟩ := h.exists_find hb
      obtain ⟨d'', hu, hd''⟩ := h'.exists_find hc
      rw [hu]
      exact .some (hd'.trans hd'')

theorem elapsed_step (h : b.step action = some (c, out)) : Elapsed b c := by
  rcases step_cases h with ⟨subject, -, -, -, rfl⟩ | ⟨name, d, subject, -, -, -, -, rfl, -⟩
  · exact ⟨List.prefix_append _ _, rfl, (Elapsed.refl b).find⟩
  · refine ⟨List.prefix_rfl, rfl, fun other => ?_⟩
    rw [find_advanceTo]
    cases b.find other with
    | none => exact .none
    | some d =>
      refine .some ?_
      dsimp only
      split
      · exact ⟨rfl, Nat.le_succ _⟩
      · exact ⟨rfl, le_rfl⟩

theorem elapsed_run (h : Machine.run step b actions = some (c, log)) : Elapsed b c :=
  Machine.run_preserves (P := Elapsed b) (fun _ _ _ _ hs h => hs.trans (elapsed_step h))
    (Elapsed.refl b) h

/-- The consumers, iterators and messages of `b` are kept; what is new in `t` is among `added`
and `opened`. -/
structure Tracked (b t : Broker) (opened : List (ℕ × String)) (added : List String) : Prop where
  kept : ∀ name d, b.find name = some d → ∃ d', t.find name = some d' ∧ Follows d d'
  new : ∀ name, b.find name = none → name ∉ added → t.find name = none
  iterators : t.iterators = b.iterators ++ opened
  fresh : ∀ e ∈ opened, e.1 ∉ b.iterators.map Prod.fst
  messages : b.messages <+: t.messages
  valid : b.Valid → t.Valid

variable {t : Broker} {opened opened' : List (ℕ × String)} {added added' : List String}

theorem Tracked.trans (h : Tracked b c opened added) (h' : Tracked c t opened' added') :
    Tracked b t (opened ++ opened') (added ++ added') where
  kept name d hd := by
    obtain ⟨d', hc, hd'⟩ := h.kept name d hd
    obtain ⟨d'', ht, hd''⟩ := h'.kept name d' hc
    exact ⟨d'', ht, hd'.trans hd''⟩
  new name hb hname := by
    obtain ⟨hadded, hadded'⟩ := not_or.mp (mt List.mem_append.mpr hname)
    exact h'.new name (h.new name hb hadded) hadded'
  iterators := by rw [h'.iterators, h.iterators, List.append_assoc]
  fresh e he := by
    rcases List.mem_append.mp he with he | he
    · exact h.fresh e he
    · have hfresh := h'.fresh e he
      rw [h.iterators, List.map_append] at hfresh
      exact fun hmem => hfresh (List.mem_append_left _ hmem)
  messages := h.messages.trans h'.messages
  valid hb := h'.valid (h.valid hb)

theorem Elapsed.tracked (h : Elapsed b c) (hvalid : b.Valid → c.Valid) : Tracked b c [] [] where
  kept _ _ hd := h.exists_find hd
  new _ hb _ := h.find_eq_none hb
  iterators := by rw [h.iterators, List.append_nil]
  fresh := by simp
  messages := h.messages
  valid := hvalid

theorem Tracked.refl (b : Broker) : Tracked b b [] [] := (Elapsed.refl b).tracked id

theorem tracked_run (h : Machine.run step b actions = some (c, log)) : Tracked b c [] [] :=
  (elapsed_run h).tracked fun hb => valid_run hb h

/-- The iterators that an answered call opened, and the consumers that it declared. -/
def opens : (q : Call) → q.Answer → List (ℕ × String)
  | .consume durableName, .ok iterator => [(iterator, durableName)]
  | _, _ => []

def declares : (q : Call) → q.Answer → List String
  | .add _ config, .ok _ => [config.durableName]
  | _, _ => []

theorem add_cases {streamName : String} {config : ConsumerConfig}
    (h : b.add streamName config = some c) :
    IsStreamName streamName ∧ IsFilter config.filterSubject ∧
      ((∃ d, b.find config.durableName = some d ∧ d.config = config ∧ c = b) ∨
        b.find config.durableName = none ∧
        c = { b with durables := b.durables ++ [⟨config, config.startPosition b.messages⟩] }) := by
  unfold add at h
  split at h
  next hvalid =>
    refine ⟨hvalid.1, hvalid.2, ?_⟩
    split at h
    next hnone => exact .inr ⟨hnone, (Option.some.inj h).symm⟩
    next d hd =>
      split at h
      next hconfig => exact .inl ⟨d, hd, hconfig, (Option.some.inj h).symm⟩
      next => simp at h
  next => simp at h

theorem find_append {ds : List Durable} :
    { b with durables := b.durables ++ ds }.find name =
      (b.find name).or (ds.find? fun d => d.config.durableName = name) := by
  simp [find, List.find?_append]

theorem found_of_add {streamName : String} {config : ConsumerConfig}
    (h : b.add streamName config = some c) :
    ∃ d, c.find config.durableName = some d ∧ d.config = config := by
  obtain ⟨-, -, ⟨d, hd, hconfig, rfl⟩ | ⟨hnone, rfl⟩⟩ := add_cases h
  · exact ⟨d, hd, hconfig⟩
  · refine ⟨⟨config, config.startPosition b.messages⟩, ?_, rfl⟩
    rw [find_append, hnone]
    simp

theorem startPosition_le (config : ConsumerConfig) (messages : List String) :
    config.startPosition messages ≤ messages.length := by
  unfold ConsumerConfig.startPosition
  cases config.deliverPolicy with
  | all => exact Nat.zero_le _
  | new => exact le_rfl
  | last =>
    dsimp only
    cases hlast : (List.range messages.length).reverse.find? fun i =>
        (messages[i]?).any config.accepts with
    | none => exact le_rfl
    | some i =>
      have hi := List.mem_of_find?_eq_some hlast
      rw [List.mem_reverse, List.mem_range] at hi
      exact hi.le

theorem tracked_add {streamName : String} {config : ConsumerConfig}
    (h : b.add streamName config = some c) : Tracked b c [] [config.durableName] := by
  obtain ⟨-, -, ⟨d, -, -, rfl⟩ | ⟨hnone, rfl⟩⟩ := add_cases h
  · exact ⟨fun name d hd => ⟨d, hd, rfl, le_rfl⟩, fun _ hb _ => hb, by simp, by simp,
      List.prefix_rfl, id⟩
  · refine ⟨fun name d hd => ⟨d, ?_, rfl, le_rfl⟩, fun name hb hname => ?_, by simp, by simp,
      List.prefix_rfl, fun hb name d hd => ?_⟩
    · rw [find_append, hd, Option.some_or]
    · have hne : config.durableName ≠ name := fun heq => hname (by simp [heq])
      rw [find_append, hb]
      simp [hne]
    · rw [find_append] at hd
      cases hfound : b.find name with
      | some d' =>
        rw [hfound] at hd
        obtain rfl := Option.some.inj hd
        exact hb name _ hfound
      | none =>
        rw [hfound, Option.none_or] at hd
        obtain rfl := List.mem_singleton.mp (List.mem_of_find?_eq_some hd)
        exact startPosition_le config b.messages

theorem tracked_of_answers {q : Call} {a : q.Answer} (h : Answers q a b c)
    (hclose : ∀ iterator, q ≠ .close iterator)
    (hdelete : ∀ streamName durableName, q ≠ .delete streamName durableName) :
    Tracked b c (opens q a) (declares q a) := by
  obtain ⟨v, actions, log, heffect, hrun⟩ := h
  have helapsed := tracked_run hrun
  have hsame : ∀ {q : Call} {a : q.Answer}, b = v → opens q a = [] → declares q a = [] →
      Tracked b c (opens q a) (declares q a) := by
    rintro q a rfl ho hd
    rw [ho, hd]
    exact helapsed
  cases q with
  | add streamName config =>
    cases a with
    | error e => exact hsame (Option.some.inj heffect) rfl rfl
    | ok _ =>
      have hadd := (tracked_add heffect).trans helapsed
      exact hadd
  | get streamName durableName =>
    cases a with
    | error e => exact hsame (Option.some.inj heffect) rfl rfl
    | ok _ =>
      obtain ⟨-, -, heq⟩ := Option.map_eq_some_iff.mp heffect
      exact hsame heq rfl rfl
  | consume durableName =>
    cases a with
    | error e => exact hsame (Option.some.inj heffect) rfl rfl
    | ok iterator =>
      simp only [effect] at heffect
      split at heffect
      next hfresh =>
        obtain rfl := Option.some.inj heffect
        have hopened : Tracked b { b with iterators := b.iterators ++ [(iterator, durableName)] }
            [(iterator, durableName)] [] :=
          ⟨fun name d hd => ⟨d, hd, rfl, le_rfl⟩, fun _ hb _ => hb, rfl,
            by simpa using hfresh.2, List.prefix_rfl, id⟩
        exact hopened.trans helapsed
      next => simp at heffect
  | close iterator => exact absurd rfl (hclose iterator)
  | delete streamName durableName => exact absurd rfl (hdelete streamName durableName)

end Broker
end Connectum.Events.Nats
