import Connectum.Events.Nats.NatsAdapter

/-! How often the consumers of one subscription hand an event to its handler. -/
namespace Connectum.Events.Nats
open Async Broker WordPattern

/-- The messages with this sequence number that the consumers of a subscription handed over. -/
def handed (sub : Subscription) (log : List Broker.Delivery) (seq : ℕ) : List Broker.Delivery :=
  log.filter fun x => x.seq = seq ∧ x.durableName ∈ sub.createdDurables

/-- The consumers have gone through the whole stream. -/
def CaughtUp (b : Broker) (durables : List String) : Prop :=
  ∀ name ∈ durables, ∀ d, b.find name = some d → d.position = b.messages.length

instance (b : Broker) (durables : List String) : Decidable (CaughtUp b durables) :=
  decidable_of_iff (∀ name ∈ durables, (b.find name).all fun d =>
    decide (d.position = b.messages.length)) (by simp [CaughtUp, Option.all_eq_true])

variable {Handler : Type*}

/-- The handlers that a bus calls for these messages. -/
def invoked (options : NatsAdapterOptions) (topicHandlerMap : List (String × Handler))
    (deliveries : List Broker.Delivery) : List Handler :=
  deliveries.filterMap fun x => lookupHandler topicHandlerMap (options.eventType x.subject)

variable {b c t u : Broker} {action : Action} {actions : List Action}
  {log out : List Broker.Delivery} {name : String} {d : Durable} {n : ℕ}

/-- What the log of a run from `t` says: it holds accepted messages only, and each consumer has
handed over the accepted messages up to its position, once. -/
structure HandedOver (t s : Broker) (log : List Broker.Delivery) : Prop where
  valid : s.Valid
  elapsed : Elapsed t s
  sound : ∀ x ∈ log, s.messages[x.seq]? = some x.subject ∧
    ∃ d, t.find x.durableName = some d ∧ d.config.accepts x.subject = true
  once : ∀ name d d', t.find name = some d → s.find name = some d' → ∀ n, d.position ≤ n →
    (log.filter fun x => x.durableName = name ∧ x.seq = n).length =
      if n < d'.position ∧ (s.messages[n]?).any d.config.accepts = true then 1 else 0

theorem handedOver_refl (ht : t.Valid) : HandedOver t t [] where
  valid := ht
  elapsed := Elapsed.refl t
  sound := by simp
  once name d d' hd hd' n hn := by
    obtain rfl := Option.some.inj (hd.symm.trans hd')
    rw [if_neg (fun h => absurd h.1 (not_lt.mpr hn))]
    rfl

theorem getElem?_append_of_some {l l' : List String} {subject : String}
    (h : l[n]? = some subject) : (l ++ l')[n]? = some subject := by
  rw [List.getElem?_append_left (List.getElem?_eq_some_iff.mp h).1, h]

theorem HandedOver.exists_config {e : Durable} (h : HandedOver t b log)
    (he : b.find name = some e) : ∃ d, t.find name = some d ∧ e.config = d.config := by
  cases ht : t.find name with
  | none => exact absurd (he.symm.trans (h.elapsed.find_eq_none ht)) (by simp)
  | some d =>
    obtain ⟨e', he', hfollows⟩ := h.elapsed.exists_find ht
    obtain rfl := Option.some.inj (he'.symm.trans he)
    exact ⟨d, rfl, hfollows.1⟩

/-- What another consumer hands over, or at another position, does not count. -/
theorem filter_delivered {advanced subject : String} {position : ℕ} {accepts : Bool}
    (hne : advanced ≠ name ∨ position ≠ n) :
    ((if accepts = true then [(⟨advanced, position, subject⟩ : Broker.Delivery)] else []).filter
      fun x => x.durableName = name ∧ x.seq = n) = [] := by
  rw [List.filter_eq_nil_iff]
  intro x hx
  split at hx
  · obtain rfl := List.mem_singleton.mp hx
    rcases hne with hne | hne <;> simp [hne]
  · exact absurd hx List.not_mem_nil

theorem HandedOver.step (h : HandedOver t b log) (hs : b.step action = some (c, out)) :
    HandedOver t c (log ++ out) := by
  have hvalid := valid_step h.valid hs
  have helapsed := h.elapsed.trans (elapsed_step hs)
  rcases step_cases hs with ⟨subject, -, -, rfl, rfl⟩ |
    ⟨advanced, e, subject, -, -, he, hsubject, rfl, rfl⟩
  · refine ⟨hvalid, helapsed, fun x hx => ?_, fun name d d' hd hd' n hn => ?_⟩
    · rw [List.append_nil] at hx
      obtain ⟨hmessage, hfound⟩ := h.sound x hx
      exact ⟨getElem?_append_of_some hmessage, hfound⟩
    · have hle : d'.position ≤ b.messages.length := h.valid name d' hd'
      rw [List.append_nil, h.once name d d' hd hd' n hn]
      by_cases hn' : n < d'.position
      · rw [List.getElem?_append_left (hn'.trans_le hle)]
      · simp [hn']
  · obtain ⟨e₀, he₀, hconfig⟩ := h.exists_config he
    refine ⟨hvalid, helapsed, fun x hx => ?_, fun name d d' hd hd' n hn => ?_⟩
    · rcases List.mem_append.mp hx with hx | hx
      · exact h.sound x hx
      · split at hx
        next haccepts =>
          obtain rfl := List.mem_singleton.mp hx
          exact ⟨hsubject, e₀, he₀, hconfig ▸ haccepts⟩
        next => exact absurd hx List.not_mem_nil
    · rw [List.filter_append, List.length_append]
      by_cases hname : name = advanced
      · subst hname
        rw [find_advanceTo_self he] at hd'
        obtain rfl := Option.some.inj hd'
        obtain rfl := Option.some.inj (he₀.symm.trans hd)
        rw [h.once name e₀ e hd he n hn, hconfig]
        by_cases hn' : n = e.position
        · subst hn'
          by_cases haccepts : e₀.config.accepts subject = true <;>
            simp [hsubject, haccepts, advanceTo]
        · have hlt : n < e.position + 1 ↔ n < e.position := by omega
          rw [filter_delivered (.inr (Ne.symm hn'))]
          simp [hlt, advanceTo]
      · rw [find_advanceTo_of_ne hname] at hd'
        rw [filter_delivered (.inl (Ne.symm hname)), h.once name d d' hd hd' n hn]
        rfl

theorem handedOver_run (ht : t.Valid) (h : Machine.run Broker.step t actions = some (u, log)) :
    HandedOver t u log := by
  have hrun := Machine.run_invariant (l := []) (fun _ _ _ _ _ h hs => HandedOver.step h hs)
    (handedOver_refl ht) h
  simpa using hrun

/-- One consumer can go through the rest of the stream. -/
theorem exists_caughtUp_one (hvalid : b.Valid) (hopen : name ∈ b.iterators.map Prod.snd)
    (hd : b.find name = some d) :
    ∃ actions c log d', Machine.run Broker.step b actions = some (c, log) ∧
      c.messages = b.messages ∧ c.iterators = b.iterators ∧
      (∀ other, other ≠ name → c.find other = b.find other) ∧ c.find name = some d' ∧
      d'.position = b.messages.length := by
  induction hk : b.messages.length - d.position generalizing b d with
  | zero =>
    have hle := hvalid name d hd
    exact ⟨[], b, [], d, rfl, rfl, rfl, fun _ _ => rfl, hd, by omega⟩
  | succ k ih =>
    have hlt : d.position < b.messages.length := by omega
    have hstep := step_advance hopen hd (List.getElem?_eq_getElem hlt)
    obtain ⟨actions, c, log, d', hrun, hmessages, hiterators, hother, hd', hposition⟩ :=
      ih (b := b.advanceTo name) (valid_step hvalid hstep) hopen (find_advanceTo_self hd)
        (by simp only [advanceTo]; omega)
    refine ⟨_ :: actions, c, _, d', Machine.run_cons.mpr ⟨_, _, log, hstep, hrun, rfl⟩, hmessages,
      hiterators, fun other hne => ?_, hd', hposition⟩
    rw [hother other hne, find_advanceTo_of_ne hne]

theorem exists_caughtUp {durables : List String} (hvalid : b.Valid)
    (hopen : ∀ name ∈ durables, name ∈ b.iterators.map Prod.snd) :
    ∃ actions c log, Machine.run Broker.step b actions = some (c, log) ∧
      c.messages = b.messages ∧ c.iterators = b.iterators ∧ CaughtUp c durables := by
  induction durables with
  | nil => exact ⟨[], b, [], rfl, rfl, rfl, by simp [CaughtUp]⟩
  | cons name durables ih =>
    obtain ⟨hname, hrest⟩ := List.forall_mem_cons.mp hopen
    obtain ⟨actions, c, log, hrun, hmessages, hiterators, hcaught⟩ := ih hrest
    cases hd : c.find name with
    | none =>
      refine ⟨actions, c, log, hrun, hmessages, hiterators, List.forall_mem_cons.mpr ⟨?_, hcaught⟩⟩
      simp [hd]
    | some d =>
      obtain ⟨more, u, log', d', hrun', hmessages', hiterators', hother, hd', hposition⟩ :=
        exists_caughtUp_one (valid_run hvalid hrun) (hiterators ▸ hname) hd
      refine ⟨actions ++ more, u, log ++ log',
        Machine.run_append.mpr ⟨c, log, log', hrun, hrun', rfl⟩, hmessages'.trans hmessages,
        hiterators'.trans hiterators, List.forall_mem_cons.mpr ⟨?_, ?_⟩⟩
      · intro e he
        obtain rfl := Option.some.inj (he.symm.trans hd')
        rw [hposition, hmessages']
      · intro other hmem e he
        by_cases hne : other = name
        · subst hne
          obtain rfl := Option.some.inj (he.symm.trans hd')
          rw [hposition, hmessages']
        · rw [hmessages']
          exact hcaught other hmem e ((hother other hne).symm.trans he)

variable {crypto : Crypto} {options : NatsAdapterOptions} {group : Option String}
  {eventType pattern : String} {sub : Subscription} {trace : NatsTrace}
  {topicHandlerMap : List (String × Handler)}

theorem words_subject (h : IsStreamName options.streamName) (eventType : String) :
    words (options.subject eventType) = options.streamName.toList :: words eventType := by
  have hdot : '.' ∉ options.streamName.toList := h.2 '.' (by simp)
  have hlist : (options.subject eventType).toList =
      options.streamName.toList ++ '.' :: eventType.toList := by
    simp [NatsAdapterOptions.subject, String.toList_append]
  rw [words, hlist]
  exact List.splitOn_append_cons_self_of_not_mem hdot _

theorem eventType_subject (options : NatsAdapterOptions) (eventType : String) :
    options.eventType (options.subject eventType) = eventType := by
  have hlist : (options.subject eventType).toList =
      (options.streamName ++ ".").toList ++ eventType.toList := by
    simp [NatsAdapterOptions.subject, String.toList_append]
  have hprefix : (options.streamName ++ ".").toList.isPrefixOf (options.subject eventType).toList =
      true := by
    rw [List.isPrefixOf_iff_prefix, hlist]
    exact List.prefix_append _ _
  rw [NatsAdapterOptions.eventType, if_pos hprefix, hlist, List.drop_left, String.ofList_toList]

theorem words_ne_nil (s : String) : words s ≠ [] := List.splitOn_ne_nil '.' _

theorem last_of_filter (hstream : IsStreamName options.streamName)
    (hfilter : IsFilter (options.subject pattern)) : ['>'] ∉ (words pattern).dropLast := by
  have h := hfilter.2
  rw [words_subject hstream, List.dropLast_cons_of_ne_nil (words_ne_nil pattern)] at h
  exact fun hmem => h (List.mem_cons_of_mem _ hmem)

/-- The filter of a pattern accepts the subjects of the events that the pattern matches. -/
theorem accepts_subject_iff (hstream : IsStreamName options.streamName)
    (hfilter : IsFilter (options.subject pattern)) (groupName : String) :
    (consumerConfig crypto options groupName pattern).accepts (options.subject eventType) = true ↔
      matchPattern pattern eventType = true := by
  have hstar : options.streamName.toList ≠ ['*'] := fun heq =>
    hstream.2 '*' (by simp) (heq ▸ List.mem_singleton_self _)
  have hrest : options.streamName.toList ≠ ['>'] := fun heq =>
    hstream.2 '>' (by simp) (heq ▸ List.mem_singleton_self _)
  have htokens : busTokens (options.streamName.toList :: words pattern) =
      .word options.streamName.toList :: busTokens (words pattern) := by
    simp [busTokens, busToken, hstar, hrest]
  rw [matchPattern_iff (last_of_filter hstream hfilter), ConsumerConfig.accepts, consumerConfig]
  dsimp only
  rw [words_subject hstream, words_subject hstream, htokens, accepts_word]
  constructor
  · rintro ⟨rest, heq, h⟩
    exact (List.cons.inj heq).2 ▸ h
  · exact fun h => ⟨_, rfl, h⟩

/-- The words of a filter are words of topics. -/
theorem literals_of_filter (hstream : IsStreamName options.streamName)
    (hfilter : IsFilter (options.subject pattern)) :
    Literals (fun w : Word => w ≠ [] ∧ '.' ∉ w) (busTokens (words pattern)) := by
  intro w hw
  obtain ⟨p, hp, hword⟩ := List.mem_flatMap.mp hw
  have heq : w = p := by
    unfold busToken at hword
    split at hword
    · simp at hword
    · split at hword
      · simp at hword
      · simpa using hword
  subst heq
  refine ⟨?_, notMem_of_mem_splitOn hp⟩
  rintro rfl
  have h := hfilter.1
  rw [words_subject hstream] at h
  exact h (List.mem_cons_of_mem _ hp)

/-- Two patterns of a bus that match a common topic. -/
def Overlapping (pattern pattern' : String) : Bool :=
  overlap (busTokens (words pattern)) (busTokens (words pattern'))

theorem overlapping_of_match {pattern' : String} (hstream : IsStreamName options.streamName)
    (h : IsFilter (options.subject pattern)) (h' : IsFilter (options.subject pattern'))
    (hmatch : matchPattern pattern eventType = true)
    (hmatch' : matchPattern pattern' eventType = true) : Overlapping pattern pattern' = true :=
  overlap_complete ((matchPattern_iff (last_of_filter hstream h)).mp hmatch)
    ((matchPattern_iff (last_of_filter hstream h')).mp hmatch')

theorem exists_match_of_overlapping {pattern' : String} (hstream : IsStreamName options.streamName)
    (h : IsFilter (options.subject pattern)) (h' : IsFilter (options.subject pattern'))
    (hoverlap : Overlapping pattern pattern' = true) :
    ∃ eventType, IsTopic eventType ∧ matchPattern pattern eventType = true ∧
      matchPattern pattern' eventType = true := by
  obtain ⟨topicParts, hgood, haccepts, haccepts'⟩ := (overlap_iff (v := ['x']) (by decide)
    (literals_of_filter hstream h) (literals_of_filter hstream h')).mp hoverlap
  have hne : topicParts ≠ [] := by
    have hlen := length_le_of_accepts_bus haccepts
    have hpos := List.length_pos_iff.mpr (words_ne_nil pattern)
    exact List.length_pos_iff.mp (hpos.trans_le hlen)
  obtain ⟨eventType, htopic, rfl⟩ := exists_topic hne hgood
  exact ⟨eventType, htopic, (matchPattern_iff (last_of_filter hstream h)).mpr haccepts,
    (matchPattern_iff (last_of_filter hstream h')).mpr haccepts'⟩

/-- A successful `subscribe()` has a consumer for every pattern. -/
theorem subscribed_spec {patterns : List String}
    (h : ExecIn Answers (subscribe crypto options patterns group) b trace t (.ok sub)) :
    ∃ groupName, sub.createdDurables = patterns.map (consumerName crypto.sha256 groupName) ∧
      (∀ pattern ∈ patterns, Declared crypto options groupName t pattern) ∧
      (b.Valid → t.Valid) := by
  obtain ⟨first, c, ⟨result, iterators, durables⟩, _, hdeclare, hafter, rfl⟩ :=
    execIn_bind_iff.mp h
  cases result with
  | none =>
    obtain ⟨hsub, rfl, rfl⟩ := execIn_done_iff.mp hafter
    obtain rfl := Except.ok.inj hsub
    obtain ⟨hdurables, hdeclared⟩ := declared_of_success hdeclare
    exact ⟨_, hdurables, hdeclared, (tracked_declareConsumers hdeclare).1.valid⟩
  | some e =>
    obtain ⟨closed, v, ⟨⟩, _, -, hcatch, rfl⟩ := execIn_bind_iff.mp hafter
    obtain ⟨deleted, w, ⟨⟩, last, -, hdone, rfl⟩ := execIn_bind_iff.mp hcatch
    exact absurd (execIn_done_iff.mp hdone).1 (by simp)

/-- Two patterns with one consumer are the same. -/
theorem Declared.pattern_eq {groupName pattern' : String}
    (h : Declared crypto options groupName t pattern)
    (h' : Declared crypto options groupName t pattern')
    (hname : consumerName crypto.sha256 groupName pattern =
      consumerName crypto.sha256 groupName pattern') : pattern = pattern' := by
  obtain ⟨d, hd, hconfig⟩ := h.found
  obtain ⟨d', hd', hconfig'⟩ := h'.found
  rw [hname] at hd
  obtain rfl := Option.some.inj (hd.symm.trans hd')
  have hfilter := congrArg ConsumerConfig.filterSubject (hconfig.symm.trans hconfig')
  have heq := congrArg options.eventType hfilter
  simpa only [consumerConfig, eventType_subject] using heq

/-- Once everything is handed over, the consumer of a pattern has handed over each later event
that the pattern matches, and no other. -/
theorem handed_of_pattern {groupName : String} (ht : t.Valid)
    (hdeclared : Declared crypto options groupName t pattern)
    (hrun : Machine.run Broker.step t actions = some (u, log))
    (hcaught : CaughtUp u [consumerName crypto.sha256 groupName pattern])
    (hn : t.messages.length ≤ n) (hevent : u.messages[n]? = some (options.subject eventType)) :
    (log.filter fun x => x.durableName = consumerName crypto.sha256 groupName pattern ∧
      x.seq = n).length = if matchPattern pattern eventType = true then 1 else 0 := by
  have hover := handedOver_run ht hrun
  obtain ⟨d, hd, hconfig⟩ := hdeclared.found
  obtain ⟨d', hd', -⟩ := hover.elapsed.exists_find hd
  have hposition := hcaught _ (List.mem_singleton_self _) d' hd'
  have hlt : n < d'.position := hposition ▸ (List.getElem?_eq_some_iff.mp hevent).1
  rw [hover.once _ d d' hd hd' n ((ht _ d hd).trans hn), hevent, hconfig]
  simp [hlt, accepts_subject_iff hdeclared.streamName hdeclared.filter]

/-- Where no other pattern of the bus matches an event, one consumer hands it over. -/
theorem handed_eq_of_unique {groupName : String} {patterns : List String}
    (hover : HandedOver t u log)
    (hdurables : sub.createdDurables = patterns.map (consumerName crypto.sha256 groupName))
    (hdeclared : ∀ pattern ∈ patterns, Declared crypto options groupName t pattern)
    (hpattern : pattern ∈ patterns)
    (hunique : ∀ p ∈ patterns, matchPattern p eventType = true → p = pattern)
    (hevent : u.messages[n]? = some (options.subject eventType)) :
    handed sub log n = log.filter fun x =>
      x.durableName = consumerName crypto.sha256 groupName pattern ∧ x.seq = n := by
  apply List.filter_congr
  intro x hx
  rw [decide_eq_decide]
  constructor
  · rintro ⟨rfl, hmem⟩
    rw [hdurables] at hmem
    obtain ⟨p, hp, hname⟩ := List.mem_map.mp hmem
    obtain ⟨hsubject, d, hd, haccepts⟩ := hover.sound x hx
    obtain ⟨d', hd', hconfig⟩ := (hdeclared p hp).found
    rw [hname] at hd'
    obtain rfl := Option.some.inj (hd.symm.trans hd')
    rw [Option.some.inj (hsubject.symm.trans hevent), hconfig,
      accepts_subject_iff (hdeclared p hp).streamName (hdeclared p hp).filter] at haccepts
    exact ⟨hunique p hp haccepts ▸ hname.symm, rfl⟩
  · rintro ⟨hname, rfl⟩
    refine ⟨rfl, ?_⟩
    rw [hdurables, hname]
    exact List.mem_map_of_mem hpattern

/-- An event can be published, and then be handed over by all that accept it. -/
theorem exists_published {durables : List String} (ht : t.Valid)
    (hopen : ∀ name ∈ durables, name ∈ t.iterators.map Prod.snd)
    (hstream : IsStreamName options.streamName) (htopic : IsTopic eventType) :
    ∃ actions u log, Machine.run Broker.step t actions = some (u, log) ∧
      u.messages[t.messages.length]? = some (options.subject eventType) ∧ CaughtUp u durables := by
  have hpublish : Broker.step t (.publish (options.subject eventType)) =
      some ({ t with messages := t.messages ++ [options.subject eventType] }, []) := by
    rw [Broker.step, if_pos]
    rw [IsTopic, words_subject hstream, List.mem_cons, not_or]
    exact ⟨fun heq => hstream.1 (String.toList_injective heq.symm), htopic⟩
  obtain ⟨actions, u, log, hrun, hmessages, -, hcaught⟩ :=
    exists_caughtUp (valid_step ht hpublish) hopen
  refine ⟨_, u, _, Machine.run_cons.mpr ⟨_, [], log, hpublish, hrun, rfl⟩, ?_, hcaught⟩
  rw [hmessages, List.getElem?_concat_length]

theorem exists_handed {groupName : String} (ht : t.Valid)
    (hdeclared : Declared crypto options groupName t pattern)
    (hname : consumerName crypto.sha256 groupName pattern ∈ sub.createdDurables)
    (hrun : Machine.run Broker.step t actions = some (u, log))
    (hcaught : CaughtUp u sub.createdDurables) (hn : t.messages.length ≤ n)
    (hevent : u.messages[n]? = some (options.subject eventType))
    (hmatch : matchPattern pattern eventType = true) :
    ∃ x ∈ handed sub log n, x.durableName = consumerName crypto.sha256 groupName pattern := by
  have hlength := handed_of_pattern ht hdeclared hrun
    (fun name hmem => hcaught name (List.mem_singleton.mp hmem ▸ hname)) hn hevent
  rw [if_pos hmatch] at hlength
  obtain ⟨x, hx⟩ := List.length_eq_one_iff.mp hlength
  have hmem : x ∈ [x] := List.mem_singleton_self x
  rw [← hx, List.mem_filter, decide_eq_true_eq] at hmem
  refine ⟨x, List.mem_filter.mpr ⟨hmem.1, ?_⟩, hmem.2.1⟩
  exact decide_eq_true ⟨hmem.2.2, hmem.2.1 ▸ hname⟩

/-- A pattern that overlaps another one takes an event that the other one takes too. -/
theorem disjoint_of_handed_once (hb : b.Valid)
    (h : ExecIn Answers (subscribe crypto options (topicHandlerMap.map Prod.fst) group) b trace t
      (.ok sub))
    (hall : ∀ actions u log, Machine.run Broker.step t actions = some (u, log) →
      CaughtUp u sub.createdDurables → ∀ n eventType, t.messages.length ≤ n →
      u.messages[n]? = some (options.subject eventType) →
      (∃ e ∈ topicHandlerMap, matchPattern e.1 eventType = true) →
      (handed sub log n).length = 1)
    {e e' : String × Handler} (he : e ∈ topicHandlerMap) (he' : e' ∈ topicHandlerMap)
    (hne : e.1 ≠ e'.1) : Overlapping e.1 e'.1 = false := by
  obtain ⟨groupName, hdurables, hdeclared, hvalid⟩ := subscribed_spec h
  have ht := hvalid hb
  have hentry : ∀ e ∈ topicHandlerMap, Declared crypto options groupName t e.1 :=
    fun e he => hdeclared e.1 (List.mem_map_of_mem he)
  have hname : ∀ e ∈ topicHandlerMap,
      consumerName crypto.sha256 groupName e.1 ∈ sub.createdDurables := by
    intro e he
    rw [hdurables]
    exact List.mem_map_of_mem (List.mem_map_of_mem he)
  rw [Bool.eq_false_iff]
  intro hoverlap
  have hstream := (hentry e he).streamName
  obtain ⟨eventType, htopic, hmatch, hmatch'⟩ := exists_match_of_overlapping hstream
    (hentry e he).filter (hentry e' he').filter hoverlap
  have hopen : ∀ name ∈ sub.createdDurables, name ∈ t.iterators.map Prod.snd := by
    intro name hmem
    rw [hdurables] at hmem
    obtain ⟨p, hp, rfl⟩ := List.mem_map.mp hmem
    exact (hdeclared p hp).isOpen
  obtain ⟨actions, u, log, hrun, hevent, hcaught⟩ := exists_published ht hopen hstream htopic
  have hone := hall _ u _ hrun hcaught _ eventType le_rfl hevent ⟨e, he, hmatch⟩
  obtain ⟨z, hz⟩ := List.length_eq_one_iff.mp hone
  obtain ⟨x, hx, hxname⟩ :=
    exists_handed ht (hentry e he) (hname e he) hrun hcaught le_rfl hevent hmatch
  obtain ⟨y, hy, hyname⟩ :=
    exists_handed ht (hentry e' he') (hname e' he') hrun hcaught le_rfl hevent hmatch'
  rw [hz, List.mem_singleton] at hx hy
  exact hne ((hentry e he).pattern_eq (hentry e' he')
    (hxname.symm.trans (hx ▸ hy ▸ hyname)))

theorem handed_once_of_disjoint (hb : b.Valid)
    (h : ExecIn Answers (subscribe crypto options (topicHandlerMap.map Prod.fst) group) b trace t
      (.ok sub))
    (hdisjoint : ∀ e ∈ topicHandlerMap, ∀ e' ∈ topicHandlerMap, e.1 ≠ e'.1 →
      Overlapping e.1 e'.1 = false)
    (hrun : Machine.run Broker.step t actions = some (u, log))
    (hcaught : CaughtUp u sub.createdDurables) (hn : t.messages.length ≤ n)
    (hevent : u.messages[n]? = some (options.subject eventType)) {e : String × Handler}
    (he : e ∈ topicHandlerMap) (hmatch : matchPattern e.1 eventType = true) :
    (handed sub log n).length = 1 ∧ ∃ handler,
      lookupHandler topicHandlerMap eventType = some handler ∧
      invoked options topicHandlerMap (handed sub log n) = [handler] := by
  obtain ⟨groupName, hdurables, hdeclared, hvalid⟩ := subscribed_spec h
  have ht := hvalid hb
  have hentry : ∀ e ∈ topicHandlerMap, Declared crypto options groupName t e.1 :=
    fun e he => hdeclared e.1 (List.mem_map_of_mem he)
  have hname : consumerName crypto.sha256 groupName e.1 ∈ sub.createdDurables := by
    rw [hdurables]
    exact List.mem_map_of_mem (List.mem_map_of_mem he)
  have hover := handedOver_run ht hrun
  have hunique : ∀ p ∈ topicHandlerMap.map Prod.fst, matchPattern p eventType = true →
      p = e.1 := by
    rintro p hp hp'
    obtain ⟨e', he', rfl⟩ := List.mem_map.mp hp
    by_contra hne
    have hoverlap := overlapping_of_match (hentry e he).streamName (hentry e' he').filter
      (hentry e he).filter hp' hmatch
    exact absurd hoverlap (by simp [hdisjoint e' he' e he hne])
  have heq := handed_eq_of_unique hover hdurables hdeclared (List.mem_map_of_mem he) hunique
    hevent
  have hone := handed_of_pattern ht (hentry e he) hrun
    (fun name hmem => hcaught name (List.mem_singleton.mp hmem ▸ hname)) hn hevent
  rw [if_pos hmatch, ← heq] at hone
  obtain ⟨x, hx⟩ := List.length_eq_one_iff.mp hone
  obtain ⟨handler, hhandler⟩ := exists_handler he hmatch
  have hmem : x ∈ [x] := List.mem_singleton_self x
  rw [← hx, handed, List.mem_filter, decide_eq_true_eq] at hmem
  obtain ⟨hsubject, -⟩ := hover.sound x hmem.1
  rw [hmem.2.1] at hsubject
  refine ⟨hone, handler, hhandler, ?_⟩
  rw [hx, invoked, List.filterMap_cons, List.filterMap_nil,
    Option.some.inj (hsubject.symm.trans hevent), eventType_subject, hhandler]

/-- Every later event that a pattern of the bus matches is handed over by one consumer, and one
handler is called for it, if and only if no two patterns of the bus overlap. -/
theorem handed_once_iff_disjoint (hb : b.Valid)
    (h : ExecIn Answers (subscribe crypto options (topicHandlerMap.map Prod.fst) group) b trace t
      (.ok sub)) :
    (∀ actions u log, Machine.run Broker.step t actions = some (u, log) →
      CaughtUp u sub.createdDurables → ∀ n eventType, t.messages.length ≤ n →
      u.messages[n]? = some (options.subject eventType) →
      (∃ e ∈ topicHandlerMap, matchPattern e.1 eventType = true) →
      (handed sub log n).length = 1 ∧ ∃ handler,
        lookupHandler topicHandlerMap eventType = some handler ∧
        invoked options topicHandlerMap (handed sub log n) = [handler]) ↔
    ∀ e ∈ topicHandlerMap, ∀ e' ∈ topicHandlerMap, e.1 ≠ e'.1 → Overlapping e.1 e'.1 = false := by
  constructor
  · intro hall e he e' he' hne
    apply disjoint_of_handed_once hb h _ he he' hne
    intro actions u log hrun hcaught n eventType hn hevent hmatch
    exact (hall actions u log hrun hcaught n eventType hn hevent hmatch).1
  · rintro hdisjoint actions u log hrun hcaught n eventType hn hevent ⟨e, he, hmatch⟩
    exact handed_once_of_disjoint hb h hdisjoint hrun hcaught hn hevent he hmatch

/-- The consumers of two patterns of the group `orders`. -/
def ordersConsumers (pattern pattern' : String) (position : ℕ) : Broker where
  durables := [⟨consumerConfig ordersCrypto {} "orders" pattern, position⟩,
    ⟨consumerConfig ordersCrypto {} "orders" pattern', position⟩]
  iterators := [(1, consumerName ordersCrypto.sha256 "orders" pattern),
    (2, consumerName ordersCrypto.sha256 "orders" pattern')]

def ordersSubscription (pattern pattern' : String) : Subscription where
  isAutoGroup := false
  messageIterators := [1, 2]
  createdDurables := [consumerName ordersCrypto.sha256 "orders" pattern,
    consumerName ordersCrypto.sha256 "orders" pattern']

theorem handed_once_iff_disjoint_orders :
    (handed (ordersSubscription "order.created" "order.paid")
      [⟨"orders--order_created--6f62219f", 0, "events.order.created"⟩] 0).length = 1 := by
  have hsubscribed : (subscribeOrders ([("order.created", ()), ("order.paid", ())].map Prod.fst)
      {}).2 = (ordersConsumers "order.created" "order.paid" 0,
        .ok (ordersSubscription "order.created" "order.paid")) := by decide +kernel
  exact ((handed_once_iff_disjoint (by simp [Valid, Broker.find])
    (execIn_subscribeOrders hsubscribed)).mpr (by decide)
    [.publish "events.order.created", .advance "orders--order_created--6f62219f",
      .advance "orders--order_paid--137474a8"]
    { ordersConsumers "order.created" "order.paid" 1 with messages := ["events.order.created"] }
    _ (by decide) (by decide) 0 "order.created" (by decide) (by decide)
    ⟨_, List.mem_cons_self, by decide⟩).1

/-- `order.*` covers `order.created`: the event is handed over by both consumers, and the handler
of `order.created` is called twice. -/
theorem covered_pattern_handed_twice :
    ¬ ∀ (crypto : Crypto) (options : NatsAdapterOptions) (group : Option String) (b t : Broker)
      (trace : NatsTrace) (sub : Subscription) (topicHandlerMap : List (String × ℕ)),
      b.Valid →
      ExecIn Answers (subscribe crypto options (topicHandlerMap.map Prod.fst) group) b trace t
        (.ok sub) →
      ∀ actions u log, Machine.run Broker.step t actions = some (u, log) →
        CaughtUp u sub.createdDurables → ∀ n eventType, t.messages.length ≤ n →
        u.messages[n]? = some (options.subject eventType) →
        (∃ e ∈ topicHandlerMap, matchPattern e.1 eventType = true) →
        (handed sub log n).length = 1 ∧ ∃ handler,
          lookupHandler topicHandlerMap eventType = some handler ∧
          invoked options topicHandlerMap (handed sub log n) = [handler] := by
  intro h
  have htwice := (h ordersCrypto {} (some "orders") {}
    (ordersConsumers "order.created" "order.*" 0) _ (ordersSubscription "order.created" "order.*")
    [("order.created", 1), ("order.*", 2)] (by simp [Valid, Broker.find])
    (execIn_subscribeOrders (by decide +kernel))
    [.publish "events.order.created", .advance "orders--order_created--6f62219f",
      .advance "orders--order__--d3eaade6"]
    { ordersConsumers "order.created" "order.*" 1 with messages := ["events.order.created"] }
    _ rfl (by decide) 0 "order.created" (by decide) (by decide)
    ⟨_, List.mem_cons_self, by decide⟩).1
  exact absurd htwice (by decide)

end Connectum.Events.Nats
