import Connectum.Core.StreamHandle

/-! What the caller of a stream handle gets, and what the transport gets from it. -/
namespace Connectum.Core.Streams
open Machine

variable {C I O E : Type} {h h' h₀ : Handle C I O E} {log log₀ out rest : List (Event C I O E)}
  {a : Action C I O E} {settlement : Settlement O E}

namespace Event

@[simp] def input? : Event C I O E → Option (InputQueue.Event I (Thrown E))
  | .input event => some event
  | _ => none

@[simp] def requested? : Event C I O E → Option Request
  | .requested request => some request
  | _ => none

@[simp] def resolved? : Event C I O E → Option (Except (Thrown E) C)
  | .resolved resolution => some resolution
  | _ => none

@[simp] def called? : Event C I O E → Option C
  | .called call => some call
  | _ => none

@[simp] def message? : Event C I O E → Option O
  | .answered (.message message) => some message
  | _ => none

/-- What the body catches from `resolve()` and from the transport. -/
@[simp] def failure? : Event C I O E → Option (Thrown E)
  | .resolved (.error error) | .rejected error | .answered (.throws error) => some error
  | _ => none

@[simp] def settled? : Event C I O E → Option (Settlement O E)
  | .settled settlement => some settlement
  | _ => none

end Event

/-- The events of one sort. -/
def project {α : Type} (sort : Event C I O E → Option α) (log : List (Event C I O E)) : List α :=
  log.filterMap sort

abbrev inputs (log : List (Event C I O E)) : List (InputQueue.Event I (Thrown E)) :=
  project Event.input? log

abbrev requests (log : List (Event C I O E)) : List Request := project Event.requested? log

abbrev resolutions (log : List (Event C I O E)) : List (Except (Thrown E) C) :=
  project Event.resolved? log

abbrev calls (log : List (Event C I O E)) : List C := project Event.called? log

abbrev messages (log : List (Event C I O E)) : List O := project Event.message? log

abbrev failures (log : List (Event C I O E)) : List (Thrown E) := project Event.failure? log

abbrev settlements (log : List (Event C I O E)) : List (Settlement O E) :=
  project Event.settled? log

section Project
variable {α : Type} {sort : Event C I O E → Option α}

@[simp] theorem project_nil : project sort [] = [] := rfl

@[simp] theorem project_append :
    project sort (log ++ out) = project sort log ++ project sort out := List.filterMap_append

@[simp] theorem project_cons (e : Event C I O E) :
    project sort (e :: log) = (sort e).toList ++ project sort log := by
  cases he : sort e <;> simp [project, he]

theorem project_map_eq_nil {β : Type} {f : β → Event C I O E} (h : ∀ b, sort (f b) = none)
    (l : List β) : project sort (l.map f) = [] := by
  induction l with
  | nil => rfl
  | cons b l ih => simp [h b, ih]

end Project

/-- The requests that are not settled. -/
def Handle.waiting (h : Handle C I O E) : ℕ := h.busy.toNat + h.queue.length

/-- What ends a generator. -/
def ending (log : List (Event C I O E)) : Settlement O E :=
  match (failures log).head? with
  | some error => .throws (sanitizeCallError error)
  | none => .done

/-- What the promise of a client stream is settled with. -/
def verdict (methodName : JsString) (log : List (Event C I O E)) : Settlement O E :=
  match (failures log).head?, (messages log).head? with
  | some error, _ => .throws (sanitizeCallError error)
  | none, some message => .value message
  | none, none => .throws (sanitizeCallError (noResponse methodName))

@[simp] theorem project_dones {α : Type} (sort : Event C I O E → Option α) (queue : List Request) :
    project sort (dones queue) =
      (List.replicate queue.length (sort (.settled .done)).toList).flatten := by
  induction queue with
  | nil => rfl
  | cons request queue ih =>
    show project sort (.settled .done :: dones queue) = _
    simp [ih, List.replicate_succ]

/-- A generator settles its requests in their order: the messages, what ends it, and `done`. -/
structure Serving (h : Handle C I O E) (log : List (Event C I O E)) : Prop where
  rested : h.busy = false → h.queue = []
  requests : (requests log).length = (settlements log).length + h.waiting
  returning : ∀ message, h.point ≠ .returning message
  delivered : h.point ≠ .finished → failures log = [] ∧ settlements log = (messages log).map .value
  finished : h.point = .finished → ∃ k, settlements log =
    (messages log).map .value ++ ending log :: List.replicate k .done

/-- What the end of a generator adds. -/
theorem Ending.generator {before : List (Event C I O E)} (hkind : h.kind ≠ .client)
    (hreturning : ∀ message, h.point ≠ .returning message) (hending : Ending h before settlement) :
    h.point ≠ .finished ∧ settlements before = [] ∧ messages before = [] ∧
      (requests before).length + h.busy.toNat = 1 ∧
      ((∃ error, failures before = [error] ∧ settlement = .throws (sanitizeCallError error)) ∨
        (failures before = [] ∧ settlement = .done)) := by
  cases hending with
  | unresolved error hkind hpoint | rejected error hpoint | threw error hpoint =>
    simp [hpoint, Handle.busy]
  | unopened hkind hpoint | stopped hkind hpoint | done hkind hpoint => simp [hpoint, Handle.busy]
  | silent hclient hpoint | first message hclient hpoint => exact absurd hclient hkind
  | unreturned error hpoint => exact absurd hpoint (hreturning _)
  | returned answer hanswer hpoint => exact absurd hpoint (hreturning _)

/-- The events of an action that ends the body, with the settlements that they come with. -/
theorem Serving.finish (hserving : Serving h log) (hpoint : h.point ≠ .finished)
    {before : List (Event C I O E)} (queue : List Request)
    (hsettlements : settlements before = (messages before).map .value)
    (hrequests : (Streams.requests before).length + h.waiting =
      (messages before).length + queue.length + 1)
    (hsettlement : (∃ error, failures before = [error] ∧
        settlement = .throws (sanitizeCallError error)) ∨
      (failures before = [] ∧ settlement = .done)) :
    Serving { h with point := .finished, queue := [] }
      (log ++ (before ++ .settled settlement :: dones queue)) := by
  obtain ⟨hfailures, hdelivered⟩ := hserving.delivered hpoint
  have hcount := hserving.requests
  have hfinal : failures (log ++ (before ++ .settled settlement :: dones queue)) =
      failures before := by
    simp [hfailures]
  have hending : ending (log ++ (before ++ .settled settlement :: dones queue)) = settlement := by
    unfold ending
    rw [hfinal]
    rcases hsettlement with ⟨error, hthrown, rfl⟩ | ⟨hregular, rfl⟩
    · rw [hthrown]
      rfl
    · rw [hregular]
      rfl
  have hall : settlements (log ++ (before ++ .settled settlement :: dones queue)) =
      (messages (log ++ (before ++ .settled settlement :: dones queue))).map .value ++
        settlement :: List.replicate queue.length .done := by
    simp [hdelivered, hsettlements]
  constructor
  · intro _
    rfl
  · rw [hall]
    rw [hdelivered] at hcount
    simp only [Streams.requests, messages, List.length_map] at hcount hrequests ⊢
    simp [Handle.waiting, Handle.busy]
    omega
  · intro message
    simp
  · intro hne
    exact absurd rfl hne
  · intro _
    rw [hending]
    exact ⟨queue.length, hall⟩

/-- The generator goes on: nothing fails, and each message settles a request. -/
theorem Serving.goOn (hserving : Serving h log) (hpoint : h.point ≠ .finished)
    (hpoint' : h'.point ≠ .finished) (hreturning : ∀ message, h'.point ≠ .returning message)
    (hrested : h'.busy = false → h'.queue = []) (hfailures : failures out = [])
    (hsettlements : settlements out = (messages out).map .value)
    (hrequests : (Streams.requests out).length + h.waiting =
      (messages out).length + h'.waiting) : Serving h' (log ++ out) := by
  obtain ⟨hnone, hdelivered⟩ := hserving.delivered hpoint
  have hcount := hserving.requests
  refine ⟨hrested, ?_, hreturning, fun _ => ?_, fun hfinished => absurd hfinished hpoint'⟩
  · rw [hdelivered] at hcount
    simp only [Streams.requests, messages, settlements, project_append, List.length_append,
      List.length_map] at hcount hrequests hsettlements ⊢
    rw [hsettlements, List.length_map]
    have hlog := congrArg List.length hdelivered
    simp only [messages, settlements, List.length_map] at hlog
    omega
  · simp [hnone, hfailures, hdelivered, hsettlements]

/-- The inputs do not show. -/
theorem projections_fed (log : List (Event C I O E))
    (events : List (InputQueue.Event I (Thrown E))) :
    settlements (log ++ events.map .input) = settlements log ∧
      messages (log ++ events.map .input) = messages log ∧
      failures (log ++ events.map .input) = failures log ∧
      Streams.requests (log ++ events.map .input) = Streams.requests log := by
  have hnothing {α : Type} {sort : Event C I O E → Option α}
      (h : ∀ event, sort (.input event) = none) :
      project sort (log ++ events.map .input) = project sort log := by
    rw [project_append, project_map_eq_nil h, List.append_nil]
  exact ⟨hnothing fun _ => rfl, hnothing fun _ => rfl, hnothing fun _ => rfl, hnothing fun _ => rfl⟩

theorem Serving.fed (hserving : Serving h log) (input : Input I E)
    (events : List (InputQueue.Event I (Thrown E))) :
    Serving { h with input } (log ++ events.map .input) := by
  obtain ⟨hsettlements, hmessages, hfailures, hrequests⟩ := projections_fed log events
  refine ⟨hserving.rested, ?_, hserving.returning, fun hpoint => ?_, fun hpoint => ?_⟩
  · rw [hrequests, hsettlements]
    exact hserving.requests
  · rw [hfailures, hsettlements, hmessages]
    exact hserving.delivered hpoint
  · rw [ending, hfailures, hsettlements, hmessages]
    exact hserving.finished hpoint

/-- After the end there is nothing but `done`. -/
theorem Serving.late (hserving : Serving h log) (hpoint : h.point = .finished)
    (request : Request) : Serving h (log ++ [.requested request, .settled .done]) := by
  obtain ⟨k, hsettlements⟩ := hserving.finished hpoint
  have hcount := hserving.requests
  refine ⟨hserving.rested, ?_, hserving.returning, fun hne => absurd hpoint hne, fun _ =>
    ⟨k + 1, ?_⟩⟩
  · simp only [Streams.requests, settlements] at hcount ⊢
    simp
    omega
  · simp [ending, hsettlements, List.replicate_succ']

theorem Serving.step (hserving : Serving h log) (hkind : h.kind ≠ .client)
    (hs : Stepped h h' out) : Serving h' (log ++ out) := by
  cases hs with
  | fed hstep hfail hcall => exact hserving.fed _ _
  | enqueued request hkind hbusy =>
    have hpoint : h.point ≠ .finished := by
      intro hpoint
      simp [Handle.busy, hpoint] at hbusy
    refine hserving.goOn hpoint hpoint hserving.returning (fun hrest => ?_) rfl rfl ?_
    · exact absurd hbusy (Bool.eq_false_iff.mp hrest)
    · simp [Handle.waiting, Handle.busy]
      omega
  | late request hkind hpoint => exact hserving.late hpoint request
  | started call hkind hpoint =>
    have hqueue : h.queue = [] := hserving.rested (by simp [Handle.busy, hpoint])
    apply hserving.goOn <;> simp [hpoint, Handle.busy, Handle.waiting, hqueue]
  | accepted closable hpoint =>
    apply hserving.goOn <;> simp [hpoint, Handle.busy, Handle.waiting]
  | asked request hkind hpoint =>
    apply hserving.goOn <;> simp [hpoint, Handle.busy, Handle.waiting]
  | yielded message hkind hpoint hqueue =>
    apply hserving.goOn <;> simp [hpoint, Handle.busy, Handle.waiting, hqueue]
  | resumed message hkind hpoint hqueue =>
    apply hserving.goOn <;> simp [hpoint, Handle.busy, Handle.waiting, hqueue]
    omega
  | closing message hclient hpoint => exact absurd hclient hkind
  | ended hending =>
    obtain ⟨hpoint, hsettlements, hmessages, hrequests, hsettlement⟩ :=
      hending.generator hkind hserving.returning
    apply hserving.finish hpoint
    · rw [hsettlements, hmessages]
      rfl
    · rw [hmessages, Handle.waiting]
      simp only [List.length_nil]
      omega
    · exact hsettlement
  | @stopped request queue message hkind hpoint hqueue =>
    have hopen : h.point ≠ .finished := by simp [hpoint]
    have hfinish : Serving { h with point := .finished, queue := [] } (log ++
        ([.answered (.message message), .settled (.value message)] ++
          .settled .done :: dones queue)) := by
      apply hserving.finish hopen
      · simp
      · simp [Handle.waiting, Handle.busy, hpoint, hqueue]
        omega
      · exact .inr ⟨rfl, rfl⟩
    exact hfinish

/-- The promise of a client stream is settled once, by the first message or by what went wrong. -/
structure Awaiting (h : Handle C I O E) (log : List (Event C I O E)) : Prop where
  queue : h.queue = []
  unopened : h.point ≠ .unopened
  yielded : ∀ closable, h.point ≠ .yielded closable
  awaited : h.point ≠ .finished → settlements log = [] ∧ failures log = [] ∧
    ((∀ message, h.point ≠ .returning message) → messages log = [])
  returning : ∀ message, h.point = .returning message → messages log = [message]
  finished : h.point = .finished → settlements log = [verdict h.methodName log]

/-- What the end of a client stream adds. -/
theorem Ending.client {before : List (Event C I O E)} (hkind : h.kind = .client)
    (hawaiting : Awaiting h log) (hending : Ending h before settlement) :
    h.point ≠ .finished ∧ settlements before = [] ∧
      settlement = verdict h.methodName (log ++ before) := by
  have hopen (hpoint : h.point ≠ .finished) := hawaiting.awaited hpoint
  cases hending with
  | unresolved error hother hpoint
  | unopened hother hpoint
  | stopped hother hpoint
  | done hother hpoint => exact absurd hkind hother
  | rejected error hpoint | threw error hpoint | unreturned error hpoint =>
    simp [hpoint] at hopen
    simp [hpoint, verdict, hopen]
  | silent hclient hpoint | first message hclient hpoint =>
    simp [hpoint] at hopen
    simp [hpoint, verdict, hopen]
  | returned answer hanswer hpoint =>
    have hmessages := hawaiting.returning _ hpoint
    simp [hpoint] at hopen
    cases answer with
    | throws error => exact absurd rfl (hanswer error)
    | message | done => simp [hpoint, verdict, hopen, hmessages]

theorem Awaiting.fed (hawaiting : Awaiting h log) (input : Input I E)
    (events : List (InputQueue.Event I (Thrown E))) :
    Awaiting { h with input } (log ++ events.map .input) := by
  obtain ⟨hsettlements, hmessages, hfailures, -⟩ := projections_fed log events
  refine ⟨hawaiting.queue, hawaiting.unopened, hawaiting.yielded, fun hpoint => ?_,
    fun message hpoint => ?_, fun hpoint => ?_⟩
  · rw [hsettlements, hmessages, hfailures]
    exact hawaiting.awaited hpoint
  · rw [hmessages]
    exact hawaiting.returning message hpoint
  · rw [verdict, hsettlements, hmessages, hfailures]
    exact hawaiting.finished hpoint

theorem Awaiting.step (hawaiting : Awaiting h log) (hkind : h.kind = .client)
    (hs : Stepped h h' out) : Awaiting h' (log ++ out) := by
  cases hs with
  | fed hstep hfail hcall => exact hawaiting.fed _ _
  | enqueued request hother hbusy
  | late request hother hpoint
  | started call hother hpoint
  | asked request hother hpoint
  | yielded message hother hpoint hqueue
  | resumed message hother hpoint hqueue
  | stopped message hother hpoint hqueue => exact absurd hkind hother
  | accepted closable hpoint =>
    have hopen := hawaiting.awaited (by simp [hpoint])
    simp [hpoint] at hopen
    constructor <;> simp [hopen, hawaiting.queue]
  | closing message hclient hpoint =>
    have hopen := hawaiting.awaited (by simp [hpoint])
    simp [hpoint] at hopen
    constructor <;> simp [hopen, hawaiting.queue]
  | ended hending =>
    obtain ⟨hpoint, hsettlements, hverdict⟩ := hending.client hkind hawaiting
    obtain ⟨hnone, -, -⟩ := hawaiting.awaited hpoint
    refine ⟨rfl, by simp, by simp, fun hne => absurd rfl hne, by simp, fun _ => ?_⟩
    rw [hawaiting.queue, hverdict]
    simp [hnone, hsettlements, verdict]

/-- `resolve()` is called once at most, for a generator after its first `next()`, and each call of
the transport is what it gave. -/
structure Resolving (h : Handle C I O E) (log : List (Event C I O E)) : Prop where
  once : (resolutions log).length ≤ 1
  unopened : h.point = .unopened → resolutions log = []
  called : calls log = (resolutions log).filterMap Except.toOption
  call : h.call = (calls log).head?
  requested : h.kind ≠ .client → resolutions log ≠ [] → .next ∈ requests log

theorem Resolving.keep (hresolving : Resolving h log) (hkind : h'.kind = h.kind)
    (hcall : h'.call = h.call) (hpoint : h'.point = .unopened → h.point = .unopened)
    (hresolutions : resolutions out = []) (hcalls : calls out = []) :
    Resolving h' (log ++ out) := by
  have hsame : resolutions (log ++ out) = resolutions log := by simp [hresolutions]
  have hsame' : calls (log ++ out) = calls log := by simp [hcalls]
  refine ⟨?_, fun hunopened => ?_, ?_, ?_, fun hgenerator hne => ?_⟩
  · rw [hsame]
    exact hresolving.once
  · rw [hsame]
    exact hresolving.unopened (hpoint hunopened)
  · rw [hsame, hsame']
    exact hresolving.called
  · rw [hsame', hcall]
    exact hresolving.call
  · rw [hsame] at hne
    rw [requests, project_append]
    exact List.mem_append_left _ (hresolving.requested (hkind ▸ hgenerator) hne)

/-- The body starts. -/
theorem Resolving.resolve (hresolving : Resolving h log) (hpoint : h.point = .unopened)
    (hpoint' : h'.point ≠ .unopened) (resolution : Except (Thrown E) C)
    (hresolutions : resolutions out = [resolution])
    (hcalls : calls out = resolution.toOption.toList)
    (hcall : h'.call = resolution.toOption) (hrequested : .next ∈ requests out) :
    Resolving h' (log ++ out) := by
  have hnone := hresolving.unopened hpoint
  have hempty := hresolving.called
  rw [hnone] at hempty
  have hresolved : resolutions (log ++ out) = [resolution] := by simp [hnone, hresolutions]
  have hcalled : calls (log ++ out) = resolution.toOption.toList := by simp [hempty, hcalls]
  refine ⟨by rw [hresolved]; rfl, fun hunopened => absurd hunopened hpoint', ?_, ?_, fun _ _ => ?_⟩
  · rw [hresolved, hcalled]
    cases resolution <;> rfl
  · rw [hcalled, hcall]
    cases resolution <;> rfl
  · rw [requests, project_append]
    exact List.mem_append_right _ hrequested

theorem Resolving.step (hresolving : Resolving h log) (hs : Stepped h h' out) :
    Resolving h' (log ++ out) := by
  cases hs with
  | fed hstep hfail hcall =>
    exact hresolving.keep rfl rfl id (project_map_eq_nil (fun _ => rfl) _)
      (project_map_eq_nil (fun _ => rfl) _)
  | started call hkind hpoint =>
    exact hresolving.resolve hpoint (by simp) (.ok call) rfl rfl rfl (by simp)
  | ended hending =>
    cases hending with
    | unresolved error hkind hpoint =>
      have hempty := hresolving.called
      have hcall := hresolving.call
      rw [hresolving.unopened hpoint] at hempty
      simp [hempty] at hcall
      refine hresolving.resolve hpoint (by simp) (.error error) ?_ ?_ hcall ?_ <;>
        simp [Except.toOption]
    | _ => refine hresolving.keep rfl rfl (by simp) ?_ ?_ <;> simp
  | enqueued | late => exact hresolving.keep rfl rfl id rfl rfl
  | accepted | asked | yielded | resumed | closing =>
    exact hresolving.keep rfl rfl (by simp) rfl rfl
  | stopped => refine hresolving.keep rfl rfl (by simp) ?_ ?_ <;> simp

/-- What a handle's inputs have seen, if they come from `origin`. -/
def Fed : (origin input : Input I E) → List (InputQueue.Event I (Thrown E)) → Prop
  | .fresh request, .fresh request', events => request' = request ∧ events = []
  | .fresh request, .yielded, events => events = [.received request]
  | .fresh request, .finished, events => events = [.received request, .ended]
  | .queue _, .queue q, events => InputQueue.Inv q events ∧ ∀ error, .failed error ∉ events
  | _, _, _ => False

/-- The consumer has taken something, or the end. -/
def Taken (e : InputQueue.Event I (Thrown E)) : Prop :=
  match e with
  | .received _ | .ended | .threw _ => True
  | .pushed _ | .closed | .failed _ => False

/-- Only a `fail` is logged as one, and only the consumer takes. -/
theorem queue_step_events {q q' : InputQueue I (Thrown E)}
    {action : InputQueue.Action I (Thrown E)} {events : List (InputQueue.Event I (Thrown E))}
    (hstep : InputQueue.step q action = some (q', events)) (hfail : ∀ error, action ≠ .fail error) :
    (∀ error, .failed error ∉ events) ∧
      (¬ (action = .next ∨ action = .resume) → ∀ e ∈ events, ¬ Taken e) := by
  cases action with
  | push value =>
    have hevents : events = [.pushed value] := by
      unfold InputQueue.step at hstep
      dsimp only at hstep
      split at hstep <;> cases hstep <;> rfl
    simp [hevents, Taken]
  | close =>
    cases hstep
    simp [Taken]
  | fail error => exact absurd rfl (hfail error)
  | next | resume =>
    refine ⟨fun error hmem => ?_, fun hother => absurd (by simp) hother⟩
    have hevents : events = q.advance.2 :=
      congrArg Prod.snd (InputQueue.step_consumer (by simp) hstep)
    rw [hevents] at hmem
    revert hmem
    unfold InputQueue.advance
    split
    · simp
    · split
      · simp
      · split <;> simp

theorem Fed.step {origin input input' : Input I E} {action : InputQueue.Action I (Thrown E)}
    {before events : List (InputQueue.Event I (Thrown E))} (h : Fed origin input before)
    (hstep : input.step action = some (input', events)) (hfail : ∀ error, action ≠ .fail error) :
    Fed origin input' (before ++ events) ∧
      (¬ (action = .next ∨ action = .resume) → ∀ e ∈ events, ¬ Taken e) := by
  cases input with
  | fresh request =>
    cases action <;> simp [Input.step] at hstep
    obtain ⟨rfl, rfl⟩ := hstep
    cases origin <;> simp [Fed] at h
    obtain ⟨rfl, rfl⟩ := h
    exact ⟨rfl, fun hother => absurd (.inl rfl) hother⟩
  | yielded =>
    cases action <;> simp [Input.step] at hstep
    obtain ⟨rfl, rfl⟩ := hstep
    cases origin <;> simp [Fed] at h
    rw [h]
    exact ⟨rfl, fun hother => absurd (.inl rfl) hother⟩
  | finished => cases action <;> simp [Input.step] at hstep
  | queue q =>
    obtain ⟨⟨q', events'⟩, hqueue, heq⟩ := Option.map_eq_some_iff.mp hstep
    obtain ⟨rfl, rfl⟩ := Prod.mk.inj heq
    obtain ⟨hnone, htaken⟩ := queue_step_events hqueue hfail
    cases origin with
    | queue =>
      refine ⟨⟨h.1.step hqueue, fun error hmem => ?_⟩, htaken⟩
      exact (List.mem_append.mp hmem).elim (h.2 error) (hnone error)
    | _ => exact absurd h (by simp [Fed])

/-- The transport takes inputs once it has been called. -/
structure Feeding (origin : Input I E) (h : Handle C I O E) (log : List (Event C I O E)) :
    Prop where
  fed : Fed origin h.input (inputs log)
  untaken : h.call = none → ∀ e ∈ inputs log, ¬ Taken e

theorem Feeding.keep {origin : Input I E} (hfeeding : Feeding origin h log)
    (hinput : h'.input = h.input) (hcall : h'.call = none → h.call = none)
    (hinputs : inputs out = []) : Feeding origin h' (log ++ out) := by
  have hsame : inputs (log ++ out) = inputs log := by simp [hinputs]
  constructor
  · rw [hsame, hinput]
    exact hfeeding.fed
  · rw [hsame]
    exact fun hnone => hfeeding.untaken (hcall hnone)

theorem Feeding.step {origin : Input I E} (hfeeding : Feeding origin h log)
    (hs : Stepped h h' out) : Feeding origin h' (log ++ out) := by
  cases hs with
  | @fed action input events hstep hfail hcall =>
    obtain ⟨hfed, htaken⟩ := hfeeding.fed.step hstep hfail
    have hinputs : inputs (events.map .input : List (Event C I O E)) = events := by
      rw [inputs, project, List.filterMap_map]
      exact List.filterMap_some
    constructor
    · rw [inputs, project_append, ← inputs, ← inputs, hinputs]
      exact hfed
    · intro hnone e he
      rw [inputs, project_append, ← inputs, ← inputs, hinputs] at he
      rcases List.mem_append.mp he with he | he
      · exact hfeeding.untaken hnone e he
      · refine htaken (fun haction => ?_) e he
        rw [hnone] at hcall
        exact absurd (hcall haction) (by simp)
  | ended hending => cases hending <;> exact hfeeding.keep rfl id (by simp)
  | started => exact hfeeding.keep rfl (by simp) rfl
  | stopped => exact hfeeding.keep rfl id (by simp)
  | _ => exact hfeeding.keep rfl id rfl

/-- A generator or a promise, in every run. -/
structure Inv (h₀ h : Handle C I O E) (log : List (Event C I O E)) : Prop where
  kind : h.kind = h₀.kind
  methodName : h.methodName = h₀.methodName
  serving : h.kind ≠ .client → Serving h log
  awaiting : h.kind = .client → Awaiting h log
  resolving : Resolving h log
  feeding : Feeding h₀.input h log

theorem Inv.step (hinv : Inv h₀ h log) (hs : step h a = some (h', out)) :
    Inv h₀ h' (log ++ out) := by
  have hrest : h.busy = false → h.queue = [] := by
    by_cases hkind : h.kind = .client
    · exact fun _ => (hinv.awaiting hkind).queue
    · exact (hinv.serving hkind).rested
  have hstepped := step_cases hrest hs
  have hkind : h'.kind = h.kind := by cases hstepped <;> rfl
  have hname : h'.methodName = h.methodName := by cases hstepped <;> rfl
  constructor
  · rw [hkind, hinv.kind]
  · rw [hname, hinv.methodName]
  · intro hgenerator
    rw [hkind] at hgenerator
    exact (hinv.serving hgenerator).step hgenerator hstepped
  · intro hclient
    rw [hkind] at hclient
    exact (hinv.awaiting hclient).step hclient hstepped
  · exact hinv.resolving.step hstepped
  · exact hinv.feeding.step hstepped

theorem Opened.inv (hopened : Opened h₀ log₀) : Inv h₀ h₀ log₀ := by
  have hunopened {h : Handle C I O E} (hkind : h.kind ≠ .client) (hpoint : h.point = .unopened)
      (hqueue : h.queue = []) (hcall : h.call = none) (hfed : Fed h.input h.input []) :
      Inv h h [] := by
    refine ⟨rfl, rfl, fun _ => ?_, fun hclient => absurd hclient hkind, ?_, ⟨hfed, by simp⟩⟩
    · constructor <;> simp [hpoint, hqueue, Handle.waiting, Handle.busy]
    · constructor <;> simp [hcall]
  cases hopened with
  | server methodName request =>
    exact hunopened (by simp [openServerStream]) rfl rfl rfl ⟨rfl, rfl⟩
  | bidi methodName =>
    exact hunopened (by simp [openBidiStream]) rfl rfl rfl ⟨InputQueue.inv_initial, by simp⟩
  | client methodName resolution =>
    have hfed : Fed (.queue {} : Input I E) (.queue {}) [] := ⟨InputQueue.inv_initial, by simp⟩
    cases resolution with
    | ok call =>
      refine ⟨rfl, rfl, fun hother => absurd rfl hother, fun _ => ?_, ?_, ⟨hfed, fun hnone => ?_⟩⟩
      · constructor <;> simp [openClientStream, Handle.start]
      · constructor <;> simp [openClientStream, Handle.start, Except.toOption]
      · cases hnone
    | error error =>
      refine ⟨rfl, rfl, fun hother => absurd rfl hother, fun _ => ?_, ?_, ⟨hfed, fun _ e he => ?_⟩⟩
      · constructor <;> simp [openClientStream, Handle.start, Handle.fail, Handle.finish, verdict]
      · constructor <;>
          simp [openClientStream, Handle.start, Handle.fail, Handle.finish, Except.toOption]
      · cases he

theorem inv_run (hopened : Opened h₀ log₀) {actions : List (Action C I O E)}
    (hrun : run Streams.step h₀ actions = some (h, rest)) : Inv h₀ h (log₀ ++ rest) :=
  run_invariant (fun _ _ _ _ _ => Inv.step) hopened.inv hrun

theorem clean_sanitizeCallError (error : Thrown E) : (sanitizeCallError error).Clean := by
  cases error with
  | connectError code message metadata =>
    intro e he hname
    simp only [nonTrailerHeaders, List.foldl_cons, List.foldl_nil, deleteName, List.mem_filter,
      decide_eq_true_eq] at he
    simp only [nonTrailerHeaders, List.mem_cons, List.not_mem_nil, or_false] at hname
    obtain ⟨⟨⟨-, hlength⟩, htype⟩, hencoding⟩ := he
    rcases hname with hname | hname | hname
    · exact hlength hname
    · exact htype hname
    · exact hencoding hname
  | other error => trivial

theorem exists_sanitized_of_ending {error : Thrown E}
    (h : (.throws error : Settlement O E) = ending log) :
    ∃ error', error = sanitizeCallError error' := by
  unfold ending at h
  split at h
  next => exact ⟨_, Settlement.throws.inj h⟩
  next => cases h

theorem exists_sanitized_of_verdict {methodName : JsString} {error : Thrown E}
    (h : (.throws error : Settlement O E) = verdict methodName log) :
    ∃ error', error = sanitizeCallError error' := by
  unfold verdict at h
  split at h
  next => exact ⟨_, Settlement.throws.inj h⟩
  next => cases h
  next => exact ⟨_, Settlement.throws.inj h⟩

/-- Whatever the caller sees thrown has been sanitized. -/
theorem Inv.exists_sanitized (hinv : Inv h₀ h log) {error : Thrown E}
    (herror : .throws error ∈ settlements log) : ∃ error', error = sanitizeCallError error' := by
  by_cases hkind : h.kind = .client
  · have hawaiting := hinv.awaiting hkind
    by_cases hpoint : h.point = .finished
    · rw [hawaiting.finished hpoint] at herror
      exact exists_sanitized_of_verdict (List.mem_singleton.mp herror)
    · rw [(hawaiting.awaited hpoint).1] at herror
      cases herror
  · have hserving := hinv.serving hkind
    by_cases hpoint : h.point = .finished
    · obtain ⟨k, hsettlements⟩ := hserving.finished hpoint
      rw [hsettlements] at herror
      rcases List.mem_append.mp herror with hvalue | htail
      · simp at hvalue
      · rcases List.mem_cons.mp htail with hending | hdone
        · exact exists_sanitized_of_ending hending
        · cases List.eq_of_mem_replicate hdone
    · rw [(hserving.delivered hpoint).2] at herror
      simp at herror

/-- The values that the transport may take. -/
def offered (origin : Input I E) (events : List (InputQueue.Event I (Thrown E))) : List I :=
  match origin with
  | .fresh request => [request]
  | .yielded | .finished => []
  | .queue _ => InputQueue.accepted events

/-- The transport takes what is offered, in its order, and sees the end only after all of it. -/
structure Taking (origin : Input I E) (events : List (InputQueue.Event I (Thrown E))) :
    Prop where
  taken : InputQueue.received events <+: offered origin events
  ended : .ended ∈ events → InputQueue.received events = offered origin events ∧
    ((∃ request, origin = .fresh request) ∨ .closed ∈ events)
  threw : ∀ error, .threw error ∉ events

/-- Nothing is received after the end of a queue. -/
theorem received_of_ended {q : InputQueue I (Thrown E)}
    {events : List (InputQueue.Event I (Thrown E))} (hinv : InputQueue.Inv q events)
    (hended : .ended ∈ events) :
    InputQueue.received events = InputQueue.accepted events ∧ InputQueue.Terminated events := by
  obtain ⟨before, after, rfl⟩ := List.append_of_mem hended
  obtain ⟨hall, hterminated, -⟩ := hinv.justified before .ended after rfl
  have haccepted : InputQueue.accepted (before ++ .ended :: after) = InputQueue.accepted before :=
    InputQueue.accepted_of_terminated hterminated
  have hprefix : InputQueue.received (before ++ .ended :: after) <+:
      InputQueue.accepted (before ++ .ended :: after) :=
    hinv.received ▸ List.prefix_append _ q.buffer
  have hgrown : InputQueue.received before <+: InputQueue.received (before ++ .ended :: after) := by
    rw [InputQueue.received, InputQueue.received, List.filterMap_append]
    exact List.prefix_append _ _
  refine ⟨?_, InputQueue.terminated_append.mpr (.inl hterminated)⟩
  rw [haccepted] at hprefix ⊢
  rw [hall] at hgrown
  exact hprefix.eq_of_length (Nat.le_antisymm hprefix.length_le hgrown.length_le)

theorem Fed.taking {origin input : Input I E} {events : List (InputQueue.Event I (Thrown E))}
    (h : Fed origin input events) : Taking origin events := by
  cases origin with
  | fresh request =>
    cases input with
    | fresh request' =>
      obtain ⟨-, rfl⟩ := h
      exact ⟨List.nil_prefix, by simp, by simp⟩
    | yielded =>
      obtain rfl := h
      exact ⟨List.prefix_rfl, by simp, by simp⟩
    | finished =>
      obtain rfl := h
      exact ⟨List.prefix_rfl, fun _ => ⟨rfl, .inl ⟨request, rfl⟩⟩, by simp⟩
    | queue q => exact absurd h (by simp [Fed])
  | queue q₀ =>
    cases input with
    | queue q =>
      obtain ⟨hinv, hnone⟩ := h
      refine ⟨?_, fun hended => ?_, fun error hthrew => ?_⟩
      · show InputQueue.received events <+: InputQueue.accepted events
        rw [← hinv.received]
        exact List.prefix_append _ q.buffer
      · obtain ⟨hall, e, he, hterminates⟩ := received_of_ended hinv hended
        refine ⟨hall, .inr ?_⟩
        cases e with
        | closed => exact he
        | failed error => exact absurd he (hnone error)
        | _ => cases hterminates
      · obtain ⟨before, after, rfl⟩ := List.append_of_mem hthrew
        obtain ⟨-, hfirst⟩ := hinv.justified before _ after rfl
        obtain ⟨e, he, hfailed⟩ := List.exists_of_findSome?_eq_some hfirst
        cases e with
        | failed error' => exact hnone error' (List.mem_append_left _ he)
        | _ => cases hfailed
    | _ => exact absurd h (by simp [Fed])
  | _ => exact absurd h (by simp [Fed])

/-- However the calls of the handle and the turns of the transport interleave: the requests of a
generator are settled in their order, with the messages of the response and then with what ends
it; the promise of a client stream is settled once; no error shows a framing header. `resolve()`
and the transport are called once at most, for a generator after its first `next()`, and only then
are the inputs taken: in the order in which they were sent, and all of them before the end. -/
theorem handle_delivers (hopened : Opened h₀ log₀) {actions : List (Action C I O E)}
    (hrun : run step h₀ actions = some (h, rest)) (hlog : log = log₀ ++ rest) :
    (h₀.kind ≠ .client → (requests log).length = (settlements log).length + h.waiting ∧
      (h.point ≠ .finished → settlements log = (messages log).map .value) ∧
      (h.point = .finished → ∃ k, settlements log =
        (messages log).map .value ++ ending log :: List.replicate k .done)) ∧
    (h₀.kind = .client → (h.point ≠ .finished → settlements log = []) ∧
      (h.point = .finished → settlements log = [verdict h₀.methodName log])) ∧
    (∀ error, .throws error ∈ settlements log → error.Clean) ∧
    (resolutions log).length ≤ 1 ∧
    calls log = (resolutions log).filterMap Except.toOption ∧
    (h₀.kind ≠ .client → resolutions log ≠ [] → .next ∈ requests log) ∧
    Taking h₀.input (inputs log) ∧
    (calls log = [] → ∀ e ∈ inputs log, ¬ Taken e) := by
  have hinv : Inv h₀ h log := hlog ▸ inv_run hopened hrun
  rw [← hinv.kind, ← hinv.methodName]
  refine ⟨fun hgenerator => ?_, fun hclient => ?_, fun error herror => ?_, hinv.resolving.once,
    hinv.resolving.called, hinv.resolving.requested, hinv.feeding.fed.taking, fun hcalls => ?_⟩
  · have hserving := hinv.serving hgenerator
    exact ⟨hserving.requests, fun hopen => (hserving.delivered hopen).2, hserving.finished⟩
  · have hawaiting := hinv.awaiting hclient
    exact ⟨fun hopen => (hawaiting.awaited hopen).1, hawaiting.finished⟩
  · obtain ⟨error', rfl⟩ := hinv.exists_sanitized herror
    exact clean_sanitizeCallError error'
  · refine hinv.feeding.untaken ?_
    rw [hinv.resolving.call, hcalls]
    rfl

/-- An error of a router transport, with what is left of its metadata. -/
def lost (init : List (JsString × JsString)) : Thrown Unit :=
  .connectError .unavailable (JsString.js "lost") ((HeaderList.fill init).getD [])

/-- Inputs are sent before the first `next()`, and a `return()` comes after the end. -/
def lostActions : List (Action ℕ ℕ ℕ Unit) :=
  [.send 1, .send 2, .request .next (.ok 7), .next, .accept true, .request .next (.ok 7),
    .answer (.message 10), .answer (.throws (lost [(JsString.js "content-type", JsString.js "a/b"),
      (JsString.js "x-id", JsString.js "5")])), .request .stop (.ok 7)]

theorem handle_delivers_lost : ∃ h log,
    run step (openBidiStream (JsString.js "Chat")).1 lostActions = some (h, log) ∧
      settlements log =
        [.value 10, .throws (lost [(JsString.js "x-id", JsString.js "5")]), .done] ∧
      InputQueue.received (inputs log) <+: InputQueue.accepted (inputs log) := by
  have h : (run step (openBidiStream (JsString.js "Chat")).1 lostActions).map
      (fun p => settlements p.2) =
      some [.value 10, .throws (lost [(JsString.js "x-id", JsString.js "5")]), .done] := by
    decide +kernel
  obtain ⟨⟨h, log⟩, hrun, hsettlements⟩ := Option.map_eq_some_iff.mp h
  exact ⟨h, log, hrun, hsettlements,
    (handle_delivers (.bidi _) hrun rfl).2.2.2.2.2.2.1.taken⟩

end Connectum.Core.Streams
