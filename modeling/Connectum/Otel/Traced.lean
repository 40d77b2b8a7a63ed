import Connectum.Otel.Span

/-! Functions and methods that are traced, and when their callers cannot tell. -/
namespace Connectum.Otel

/-- How a call of a function ends: at once, or through the promise that it returns. -/
inductive Completion (V : Type*) where
  | returns (value : V)
  | throws (error : Thrown)
  | resolves (value : V)
  | rejects (error : Thrown)

/-- A function of its receiver and its arguments. -/
abbrev Function (R V : Type*) := R → List V → Completion V

inductive RecordArgs where
  | off
  | all
  | only (names : List String)
  deriving DecidableEq, Repr

/-- What a filter returns, and what it leaves in the array that it was given. -/
structure Filtered (V : Type*) where
  result : List V
  array : List V

structure TracedOptions (V : Type*) where
  name : Option String := none
  recordArgs : RecordArgs := .off
  argsFilter : Option (List V → Filtered V) := none
  attributes : Attributes := []

structure TraceAllOptions (V : Type*) where
  spanPrefix : Option String := none
  included : Option (List String) := none
  exclude : Option (List String) := none
  recordArgs : RecordArgs := .off
  argsFilter : Option (String → List V → Filtered V) := none

/-- What a call through the instrumentation does: the calls of the original, the span (if one was
started) with its name and the calls on it, and how it ends. -/
structure Observed (R V : Type*) where
  invocations : List (R × List V)
  span : Option (String × List SpanCall)
  completion : Completion V

variable {R V : Type*}

/-- The arguments at the given positions. -/
def selectArgs (names : List String) (args : List V) : List V :=
  args.zipIdx.filterMap fun (arg, i) => if toString i ∈ names then some arg else none

/-- The error path of the wrappers, and the error that they throw. -/
def recordError (error : Thrown) : List SpanCall × Thrown :=
  match error.message with
  | .error thrown => ([.recordException error], thrown)
  | .ok message => ([.recordException error, .setStatus .error message, .ended], error)

/-- The span's calls after the original has completed. -/
def settleSpan : Completion V → List SpanCall × Completion V
  | .returns value => ([.setStatus .ok none, .ended], .returns value)
  | .resolves value => ([.setStatus .ok none, .ended], .resolves value)
  | .throws error => ((recordError error).1, .throws (recordError error).2)
  | .rejects error => ((recordError error).1, .rejects (recordError error).2)

/-- The wrapper's call, where `recorded` is what it stringifies, if it does, and `args` what it
passes on. -/
def observe (stringify : List V → Except Thrown String) (fn : Function R V) (name : String)
    (attributes : List SpanCall) (recorded : Option (List V)) (receiver : R) (args : List V) :
    Observed R V :=
  let invoke (calls : List SpanCall) : Observed R V :=
    let (settled, completion) := settleSpan (fn receiver args)
    ⟨[(receiver, args)], some (name, calls ++ settled), completion⟩
  match recorded with
  | none => invoke attributes
  | some recorded => match stringify recorded with
    | .error error =>
      ⟨[], some (name, attributes ++ (recordError error).1), .throws (recordError error).2⟩
    | .ok text => invoke (attributes ++ [.setAttribute "function.args" (.string text)])

/-- What `traced` records, and the array that it passes on: the very array that the filter gets,
unless positions were selected. -/
def TracedOptions.record (options : TracedOptions V) (args : List V) : Option (List V) × List V :=
  match options.recordArgs, options.argsFilter with
  | .off, _ => (none, args)
  | .all, none => (some args, args)
  | .all, some argsFilter => (some (argsFilter args).result, (argsFilter args).array)
  | .only names, none => (some (selectArgs names args), args)
  | .only names, some argsFilter => (some (argsFilter (selectArgs names args)).result, args)

/-- Functions are called through `Function.prototype.apply`. -/
def traced (stringify : List V → Except Thrown String) (fnName : String) (fn : Function R V)
    (options : TracedOptions V) (receiver : R) (args : List V) : Observed R V :=
  let name := options.name.getD (if fnName = "" then "anonymous" else fnName)
  let (recorded, args) := options.record args
  observe stringify fn name (options.attributes.map fun (key, value) => .setAttribute key value)
    recorded receiver args

/-- What `traceAll` records. The filter gets a copy of the array. -/
def TraceAllOptions.record (options : TraceAllOptions V) (methodName : String) (args : List V) :
    Option (List V) :=
  let filtered (argsToRecord : List V) : List V := match options.argsFilter with
    | none => argsToRecord
    | some argsFilter => (argsFilter methodName argsToRecord).result
  match options.recordArgs with
  | .off => none
  | .all => some (filtered args)
  | .only names => some (filtered (selectArgs names args))

inductive PropertyKey where
  | string (name : String)
  | symbol (description : String)
  deriving DecidableEq, Repr

/-- A property whose value is a function: data of the object itself or of its prototypes, or an
accessor, whose getter runs with the proxy as its receiver and may throw. -/
inductive Property where
  | data (own writable configurable : Bool)
  | accessor (got : Except Thrown Unit)

/-- A proxy may not report another value for such a property. -/
def Property.frozen : Property → Bool
  | .data own writable configurable => own && !writable && !configurable
  | .accessor _ => false

/-- The getter's error, if it throws. -/
def Property.getError : Property → Option Thrown
  | .data _ _ _ => none
  | .accessor (.ok ()) => none
  | .accessor (.error error) => some error

/-- The name that the `get` trap wraps the function under, if it does. -/
def TraceAllOptions.wraps (options : TraceAllOptions V) : PropertyKey → Option String
  | .symbol _ => none
  | .string name =>
    if name = "constructor" then none
    else if options.exclude.any (name ∈ ·) then none
    else if options.included.any (name ∉ ·) then none
    else some name

/-- The target of a proxy, as its options and its calls need it. -/
structure Target (R : Type*) where
  object : R
  proxy : R
  constructorName : Option String

def Target.spanPrefix (target : Target R) (options : TraceAllOptions V) : String :=
  options.spanPrefix.getD ((target.constructorName.filter (· ≠ "Object")).getD "Object")

/-- A wrapped method is called on the object itself rather than on the proxy. -/
def Target.receiver [DecidableEq R] (target : Target R) (options : TraceAllOptions V)
    (key : PropertyKey) (receiver : R) : R :=
  if (options.wraps key).isSome ∧ receiver = target.proxy then target.object else receiver

def frozenError (name : String) : Thrown :=
  .typeError ("\x27get\x27 on proxy: property \x27" ++ name ++
    "\x27 is a read-only and non-configurable data property on the proxy target " ++
    "but the proxy did not return its actual value")

/-- A method is looked up on the proxy and called with a receiver. -/
def traceAll [DecidableEq R] (stringify : List V → Except Thrown String) (target : Target R)
    (options : TraceAllOptions V) (key : PropertyKey) (property : Property) (value : Function R V)
    (receiver : R) (args : List V) : Observed R V :=
  match property.getError with
  | some error => ⟨[], none, .throws error⟩
  | none =>
    match options.wraps key with
    | none => ⟨[(receiver, args)], none, value receiver args⟩
    | some name =>
      if property.frozen then ⟨[], none, .throws (frozenError name)⟩
      else
        let thisArg := if receiver = target.proxy then target.object else receiver
        observe stringify value (target.spanPrefix options ++ "." ++ name) []
          (options.record name args) thisArg args

/-- The original is called once with the caller's arguments, the caller sees its completion, and
the span, if there is one, is ended. -/
def Observed.Transparent (observed : Observed R V) (fn : Function R V) (receiver : R)
    (args : List V) : Prop :=
  observed.invocations = [(receiver, args)] ∧ observed.completion = fn receiver args ∧
    ∀ name calls, observed.span = some (name, calls) → SpanCall.ends calls = 1

/-- A thrown or rejected error lets its message be read. -/
def Completion.Readable : Completion V → Prop
  | .throws error | .rejects error => ∃ message, error.message = .ok message
  | .returns _ | .resolves _ => True

/-- What is recorded, if anything is, can be stringified. -/
def Recordable (stringify : List V → Except Thrown String) (recorded : Option (List V)) : Prop :=
  ∀ args, recorded = some args → ∃ text, stringify args = .ok text

section
open SpanCall

variable {stringify : List V → Except Thrown String} {fn : Function R V} {name : String}
  {receiver : R} {args : List V}

theorem ends_recordError (error : Thrown) :
    ends (recordError error).1 = 1 ∧ (recordError error).2 = error ↔
      ∃ message, error.message = .ok message := by
  unfold recordError
  cases error.message with
  | error thrown =>
    refine iff_of_false ?_ (by simp)
    rintro ⟨hends, -⟩
    rw [(quiet_exception error).ends] at hends
    exact absurd hends (by decide)
  | ok message =>
    refine iff_of_true ⟨?_, rfl⟩ ⟨message, rfl⟩
    exact (ended_once .error message (quiet_exception error) quiet_nil quiet_nil).1

/-- The span is ended and the completion kept if and only if its error can be read. -/
theorem settleSpan_iff (completion : Completion V) :
    ends (settleSpan completion).1 = 1 ∧ (settleSpan completion).2 = completion ↔
      completion.Readable := by
  have hok : ends [.setStatus .ok none, .ended] = 1 :=
    (ended_once .ok none quiet_nil quiet_nil quiet_nil).1
  cases completion with
  | returns value => exact iff_of_true ⟨hok, rfl⟩ trivial
  | resolves value => exact iff_of_true ⟨hok, rfl⟩ trivial
  | throws error =>
    rw [Completion.Readable, ← ends_recordError]
    simp [settleSpan]
  | rejects error =>
    rw [Completion.Readable, ← ends_recordError]
    simp [settleSpan]

theorem observe_transparent_iff {attributes : List SpanCall} {recorded : Option (List V)}
    {passed : List V} (hattributes : Quiet attributes) :
    (observe stringify fn name attributes recorded receiver passed).Transparent fn receiver args ↔
      passed = args ∧ Recordable stringify recorded ∧ (fn receiver args).Readable := by
  have hinvoke {calls : List SpanCall} (hcalls : Quiet calls) :
      (⟨[(receiver, passed)], some (name, calls ++ (settleSpan (fn receiver passed)).1),
        (settleSpan (fn receiver passed)).2⟩ : Observed R V).Transparent fn receiver args ↔
        passed = args ∧ (fn receiver args).Readable := by
    unfold Observed.Transparent
    simp only [List.cons.injEq, Prod.mk.injEq, true_and, and_true, Option.some.injEq]
    refine and_congr_right ?_
    rintro rfl
    rw [← settleSpan_iff (fn receiver passed)]
    constructor
    · rintro ⟨hcompletion, hends⟩
      have hsum := hends name _ ⟨rfl, rfl⟩
      rw [ends_append, hcalls.ends, Nat.zero_add] at hsum
      exact ⟨hsum, hcompletion⟩
    · rintro ⟨hends, hcompletion⟩
      refine ⟨hcompletion, ?_⟩
      rintro _ _ ⟨-, rfl⟩
      rw [ends_append, hcalls.ends, hends]
  unfold observe Recordable
  cases recorded with
  | none => simpa using hinvoke hattributes
  | some recorded =>
    simp only [Option.some.injEq, forall_eq']
    cases hstringify : stringify recorded with
    | error error =>
      refine iff_of_false ?_ (by simp)
      rintro ⟨hinvocations, -⟩
      cases hinvocations
    | ok text =>
      have hquiet : Quiet (attributes ++ [.setAttribute "function.args" (.string text)]) :=
        hattributes.append (quiet_attributes [("function.args", .string text)])
      simpa using hinvoke hquiet

theorem traced_iff (fnName : String) (options : TracedOptions V) :
    (traced stringify fnName fn options receiver args).Transparent fn receiver args ↔
      (options.recordArgs = .all → ∀ argsFilter, options.argsFilter = some argsFilter →
        (argsFilter args).array = args) ∧
      Recordable stringify (options.record args).1 ∧ (fn receiver args).Readable := by
  refine (observe_transparent_iff (quiet_attributes _)).trans (and_congr_left fun _ => ?_)
  cases hrecord : options.recordArgs <;> cases hfilter : options.argsFilter <;> simp

theorem traceAll_iff [DecidableEq R] (target : Target R) (options : TraceAllOptions V)
    (key : PropertyKey) (property : Property) :
    (traceAll stringify target options key property fn receiver args).Transparent fn
        (target.receiver options key receiver) args ↔
      property.getError = none ∧ ∀ name, options.wraps key = some name →
        property.frozen = false ∧ Recordable stringify (options.record name args) ∧
          (fn (target.receiver options key receiver) args).Readable := by
  have hfails (error : Thrown) : ¬ (⟨[], none, .throws error⟩ : Observed R V).Transparent fn
      (target.receiver options key receiver) args := by
    rintro ⟨hinvocations, -⟩
    cases hinvocations
  unfold traceAll
  cases hget : property.getError with
  | some error => exact iff_of_false (hfails error) (by simp)
  | none =>
    cases hwraps : options.wraps key with
    | none =>
      refine iff_of_true ⟨?_, ?_, ?_⟩ ⟨rfl, by simp⟩
      · simp [Target.receiver, hwraps]
      · simp [Target.receiver, hwraps]
      · exact fun _ _ h => by cases h
    | some name =>
      simp only [Option.some.injEq, forall_eq', true_and]
      cases hfrozen : property.frozen with
      | true =>
        rw [if_pos rfl]
        exact iff_of_false (hfails _) (by simp)
      | false =>
        have hreceiver : target.receiver options key receiver =
            if receiver = target.proxy then target.object else receiver := by
          simp [Target.receiver, hwraps]
        rw [if_neg Bool.false_ne_true, hreceiver, observe_transparent_iff quiet_nil]
        simp

end

end Connectum.Otel
