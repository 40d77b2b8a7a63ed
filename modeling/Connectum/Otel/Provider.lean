import Connectum.Async
import Mathlib.Logic.Function.Basic

/-! The OpenTelemetry provider of a process, between its calls and through its shutdowns. -/
namespace Connectum.Otel.Provider

inductive ExporterType where
  | console
  | otlpHttp
  | otlpGrpc
  | none
  deriving DecidableEq, Repr

inductive Signal where
  | traces
  | metrics
  | logs
  deriving DecidableEq, Repr

/-- A variable that is not set leaves its exporter undefined, which is not `"none"`. -/
structure OTLPSettings where
  traces : Option ExporterType
  metrics : Option ExporterType
  logs : Option ExporterType

def OTLPSettings.exporter (settings : OTLPSettings) : Signal → Option ExporterType
  | .traces => settings.traces
  | .metrics => settings.metrics
  | .logs => settings.logs

/-- The settings that override those of the environment. -/
structure ProviderOptions where
  settings : OTLPSettings := ⟨.none, .none, .none⟩

/-- What a constructor reads, and what the SDK makes of the options that it is given. -/
structure Environment where
  env : String → Option String
  sdk : Signal → Except String Unit := fun _ => .ok ()

def asEnum (env : String → Option String) (name : String) : Except String (Option ExporterType) :=
  match env name with
  | none => .ok .none
  | some "console" => .ok (some .console)
  | some "otlp/http" => .ok (some .otlpHttp)
  | some "otlp/grpc" => .ok (some .otlpGrpc)
  | some "none" => .ok (some .none)
  | some _ => .error ("env-var: \"" ++ name ++
      "\" should be one of [console, otlp/http, otlp/grpc, none]")

def getOTLPSettings (env : String → Option String) : Except String OTLPSettings := do
  return {
    traces := ← asEnum env "OTEL_TRACES_EXPORTER"
    metrics := ← asEnum env "OTEL_METRICS_EXPORTER"
    logs := ← asEnum env "OTEL_LOGS_EXPORTER" }

def resolveSettings (options : Option ProviderOptions) (environment : Environment) :
    Except String OTLPSettings := do
  let envSettings ← getOTLPSettings environment.env
  return {
    traces := (options.bind (·.settings.traces)).or envSettings.traces
    metrics := (options.bind (·.settings.metrics)).or envSettings.metrics
    logs := (options.bind (·.settings.logs)).or envSettings.logs }

/-- The SDK's provider for a signal, made by one of the constructor's calls. -/
structure SdkProvider where
  signal : Signal
  owner : ℕ
  deriving DecidableEq, Repr

/-- A tracer, meter or logger: the SDK provider behind it, or the no-op of the API. -/
abbrev Handle := Option SdkProvider

structure OtelProvider where
  id : ℕ
  settings : OTLPSettings
  tracer : Handle
  meter : Handle
  logger : Handle
  traceProvider : Option SdkProvider
  meterProvider : Option SdkProvider
  loggerProvider : Option SdkProvider

namespace OtelProvider

def handle (p : OtelProvider) : Signal → Handle
  | .traces => p.tracer
  | .metrics => p.meter
  | .logs => p.logger

def sdkProvider (p : OtelProvider) : Signal → Option SdkProvider
  | .traces => p.traceProvider
  | .metrics => p.meterProvider
  | .logs => p.loggerProvider

end OtelProvider

/-- The module's variable, the global providers of the API, and what has happened to all the
providers so far. -/
structure Telemetry where
  provider : Option OtelProvider := none
  globals : Signal → Option SdkProvider := fun _ => none
  constructed : ℕ := 0
  created : List OtelProvider := []
  shutdownCalled : List ℕ := []
  shutDown : List SdkProvider := []

namespace Telemetry
variable {s t : Telemetry} {p q : OtelProvider}

/-- A second registration for a signal is refused. -/
def setGlobal (s : Telemetry) (sdk : SdkProvider) : Telemetry :=
  { s with
    globals := Function.update s.globals sdk.signal ((s.globals sdk.signal).or (some sdk)) }

/-- The result of a constructor's method, which may throw, and the process after it. -/
abbrev Created := Except String (Handle × Option SdkProvider) × Telemetry

def createTracer (settings : OTLPSettings) (environment : Environment) (id : ℕ) (s : Telemetry) :
    Created :=
  if settings.traces = some .none then (.ok (s.globals .traces, none), s)
  else match environment.sdk .traces with
    | .error error => (.error error, s)
    | .ok () => (.ok (some ⟨.traces, id⟩, some ⟨.traces, id⟩), s.setGlobal ⟨.traces, id⟩)

/-- The meter is that of the global provider, not of the one just made. -/
def createMeter (settings : OTLPSettings) (environment : Environment) (id : ℕ) (s : Telemetry) :
    Created :=
  if settings.metrics = some .none then (.ok (s.globals .metrics, none), s)
  else match environment.sdk .metrics with
    | .error error => (.error error, s)
    | .ok () =>
      let t := s.setGlobal ⟨.metrics, id⟩
      (.ok (t.globals .metrics, some ⟨.metrics, id⟩), t)

def createLogger (settings : OTLPSettings) (environment : Environment) (id : ℕ) (s : Telemetry) :
    Created :=
  if settings.logs = some .none then (.ok (s.globals .logs, none), s)
  else match environment.sdk .logs with
    | .error error => (.error error, s)
    | .ok () => (.ok (some ⟨.logs, id⟩, some ⟨.logs, id⟩), s.setGlobal ⟨.logs, id⟩)

/-- `new OtelProvider(options)`. What an abandoned construction has registered stays. -/
def construct (options : Option ProviderOptions) (environment : Environment) (s : Telemetry) :
    Except String OtelProvider × Telemetry :=
  let id := s.constructed
  let s := { s with constructed := id + 1 }
  match resolveSettings options environment with
  | .error error => (.error error, s)
  | .ok settings =>
    match createTracer settings environment id s with
    | (.error error, s) => (.error error, s)
    | (.ok (tracer, traceProvider), s) =>
      match createMeter settings environment id s with
      | (.error error, s) => (.error error, s)
      | (.ok (meter, meterProvider), s) =>
        match createLogger settings environment id s with
        | (.error error, s) => (.error error, s)
        | (.ok (logger, loggerProvider), s) =>
          (.ok { id, settings, tracer, meter, logger, traceProvider, meterProvider,
                 loggerProvider }, s)

/-- The provider of the module, which is created if there is none. -/
def getOrCreate (options : Option ProviderOptions) (environment : Environment) (s : Telemetry) :
    Except String OtelProvider × Telemetry :=
  match s.provider with
  | some p => (.ok p, s)
  | none =>
    match construct options environment s with
    | (.error error, t) => (.error error, t)
    | (.ok p, t) => (.ok p, { t with provider := some p, created := p :: t.created })

end Telemetry

/-- What a shutdown waits for: an SDK provider, an absent one, or the shutdown as a whole. -/
inductive Query where
  | microtask
  | shutdown (sdk : SdkProvider)
  | returned (outcome : Except String Unit)

def Query.Answer : Query → Type
  | .shutdown _ => Except String Unit
  | .microtask | .returned _ => Unit

abbrev Program := Async Query Query.Answer Telemetry

/-- `await this.traceProvider?.shutdown()`, and so on. An SDK provider is shut down from the
call on, however the call ends. -/
def shutDownAll : List (Option SdkProvider) → Program (Except String Unit)
  | [] => .done (.ok ())
  | none :: rest => .await .microtask fun _ => shutDownAll rest
  | some sdk :: rest =>
    .sync (fun s => { s with shutDown := sdk :: s.shutDown }) fun _ =>
      .await (.shutdown sdk) fun
        | .error error => .done (.error error)
        | .ok () => shutDownAll rest

def OtelProvider.shutdown (p : OtelProvider) : Program (Except String Unit) :=
  .sync (fun s => { s with shutdownCalled := p.id :: s.shutdownCalled }) fun _ =>
    shutDownAll [p.traceProvider, p.meterProvider, p.loggerProvider]

/-- How a call of the module ends: `getProvider` with the provider. -/
abbrev Outcome := Except String (Option OtelProvider)

def initProvider (options : Option ProviderOptions) (environment : Environment) :
    Program Outcome :=
  .sync (fun s => (s.getOrCreate options environment).2) fun s =>
    .done ((s.getOrCreate options environment).1.map fun _ => none)

def getProvider (environment : Environment) : Program Outcome :=
  .sync (fun s => (s.getOrCreate none environment).2) fun s =>
    .done ((s.getOrCreate none environment).1.map some)

/-- The continuation of `await provider.shutdown()`. -/
def returned (outcome : Except String Unit) : Program Outcome :=
  .await (.returned outcome) fun _ =>
    match outcome with
    | .error error => .done (.error error)
    | .ok () => .sync (fun s => { s with provider := none }) fun _ => .done (.ok none)

def shutdownProvider : Program Outcome :=
  .sync id fun s =>
    match s.provider with
    | none => .done (.ok none)
    | some p => p.shutdown >>= returned

inductive Call where
  | initProvider (options : Option ProviderOptions) (environment : Environment)
  | getProvider (environment : Environment)
  | shutdownProvider

def Call.program : Call → Program Outcome
  | .initProvider options environment => Provider.initProvider options environment
  | .getProvider environment => Provider.getProvider environment
  | .shutdownProvider => Provider.shutdownProvider

abbrev Process := Pool Query Query.Answer Telemetry Outcome

abbrev Action := Pool.Action Call Empty Query Query.Answer

abbrev Event := Pool.Event Call Query Query.Answer Telemetry Outcome

/-- Calls of the module, and the answers that their shutdowns get. -/
abbrev Process.step : Machine.Step Process Action Event :=
  Pool.step Call.program fun e _ => e.elim

/-- A created provider is held by the module until its shutdown is called. -/
def Telemetry.Remembers (s : Telemetry) : Prop :=
  ∀ p ∈ s.created, s.provider = some p ∨ p.id ∈ s.shutdownCalled

/-- The enabled signals of a provider record to SDK providers of its own, not shut down. -/
def OtelProvider.Live (p : OtelProvider) (s : Telemetry) : Prop :=
  ∀ signal, p.settings.exporter signal ≠ some .none →
    ∃ sdk, p.sdkProvider signal = some sdk ∧ p.handle signal = some sdk ∧ sdk ∉ s.shutDown

/-- No shutdown is in progress. -/
def Process.Quiet (process : Process) : Prop := ∀ task ∈ process.tasks, ∃ r, task = .done r

/-- A provider with metrics is created only while no global meter provider is registered. -/
def Telemetry.FirstMeter (s : Telemetry) (options : Option ProviderOptions)
    (environment : Environment) : Prop :=
  s.provider = none → ∀ settings, resolveSettings options environment = .ok settings →
    settings.metrics ≠ some .none → s.globals .metrics = none

/-- A provider of the module whose shutdown has ended is one whose shutdown was called; the last
shutdown does not reject while the module still holds its provider. -/
def Process.Settles (process : Process) (i : ℕ) : Except String Unit → Prop
  | .ok () => ∀ p, process.shared.provider = some p → p.id ∈ process.shared.shutdownCalled
  | .error _ => ∀ p, process.shared.provider = some p → p.id ∈ process.shared.shutdownCalled →
    ∃ j ≠ i, ∃ q resume, process.tasks[j]? = some (.await q resume)

def Process.Careful (process : Process) : Action → Prop
  | .call (.initProvider options environment) => process.shared.FirstMeter options environment
  | .call (.getProvider environment) => process.shared.FirstMeter none environment
  | .resume i _ => ∀ outcome resume,
    process.tasks[i]? = some (.await (.returned outcome) resume) → process.Settles i outcome
  | .call .shutdownProvider | .change _ => True

namespace OtelProvider

/-- What a constructor gives a provider of its own. -/
structure Own (p : OtelProvider) : Prop where
  owner : ∀ signal sdk, p.sdkProvider signal = some sdk → sdk.owner = p.id
  enabled : ∀ signal, p.settings.exporter signal ≠ some .none →
    ∃ sdk, p.sdkProvider signal = some sdk ∧ p.handle signal = some sdk

end OtelProvider

/-- A method's result is of the provider `id`: an SDK provider, and the handle if it is enabled. -/
def Makes (id : ℕ) (exporter : Option ExporterType)
    (r : Except String (Handle × Option SdkProvider)) : Prop :=
  ∀ handle sdk, r = .ok (handle, sdk) → (∀ x, sdk = some x → x.owner = id) ∧
    (exporter ≠ some .none → ∃ x, sdk = some x ∧ handle = some x)

namespace Makes
variable {id : ℕ} {exporter : Option ExporterType}

theorem disabled (handle : Handle) (h : exporter = some .none) :
    Makes id exporter (.ok (handle, none)) := by
  intro handle' sdk hr
  obtain ⟨-, rfl⟩ := Prod.mk.inj (Except.ok.inj hr)
  exact ⟨by simp, fun henabled => absurd h henabled⟩

theorem throws (error : String) : Makes id exporter (.error error) := fun _ _ hr => by cases hr

theorem enabled (signal : Signal) :
    Makes id exporter (.ok (some ⟨signal, id⟩, some ⟨signal, id⟩)) := by
  intro handle sdk hr
  obtain ⟨rfl, rfl⟩ := Prod.mk.inj (Except.ok.inj hr)
  exact ⟨fun x hx => Option.some.inj hx ▸ rfl, fun _ => ⟨_, rfl, rfl⟩⟩

end Makes

namespace Telemetry
variable {s t : Telemetry} {p : OtelProvider} {settings : OTLPSettings}
  {environment : Environment} {options : Option ProviderOptions} {id : ℕ}
  {r : Except String (Handle × Option SdkProvider)}

/-- The constructor only registers global providers. -/
def Registers (s t : Telemetry) : Prop := ∃ globals, t = { s with globals }

theorem Registers.refl (s : Telemetry) : Registers s s := ⟨s.globals, rfl⟩

theorem Registers.setGlobal (s : Telemetry) (sdk : SdkProvider) : Registers s (s.setGlobal sdk) :=
  ⟨_, rfl⟩

theorem Registers.trans {u : Telemetry} (h : Registers s t) (h' : Registers t u) :
    Registers s u := by
  obtain ⟨globals, rfl⟩ := h
  obtain ⟨globals', rfl⟩ := h'
  exact ⟨globals', rfl⟩

theorem createTracer_spec (h : createTracer settings environment id s = (r, t)) :
    Registers s t ∧ t.globals .metrics = s.globals .metrics ∧ Makes id settings.traces r := by
  unfold createTracer at h
  split at h
  next hnone =>
    obtain ⟨rfl, rfl⟩ := Prod.mk.inj h
    exact ⟨.refl _, rfl, .disabled _ hnone⟩
  next =>
    split at h
    next =>
      obtain ⟨rfl, rfl⟩ := Prod.mk.inj h
      exact ⟨.refl _, rfl, .throws _⟩
    next =>
      obtain ⟨rfl, rfl⟩ := Prod.mk.inj h
      exact ⟨.setGlobal _ _, rfl, .enabled .traces⟩

theorem createMeter_spec (h : createMeter settings environment id s = (r, t))
    (hfirst : settings.metrics ≠ some .none → s.globals .metrics = none) :
    Registers s t ∧ Makes id settings.metrics r := by
  unfold createMeter at h
  split at h
  next hnone =>
    obtain ⟨rfl, rfl⟩ := Prod.mk.inj h
    exact ⟨.refl _, .disabled _ hnone⟩
  next henabled =>
    split at h
    next =>
      obtain ⟨rfl, rfl⟩ := Prod.mk.inj h
      exact ⟨.refl _, .throws _⟩
    next =>
      -- the global provider is the one just made
      have hglobal : (s.setGlobal ⟨.metrics, id⟩).globals .metrics = some ⟨.metrics, id⟩ := by
        simp [Telemetry.setGlobal, hfirst henabled]
      dsimp only at h
      rw [hglobal] at h
      obtain ⟨rfl, rfl⟩ := Prod.mk.inj h
      exact ⟨.setGlobal _ _, .enabled .metrics⟩

theorem createLogger_spec (h : createLogger settings environment id s = (r, t)) :
    Registers s t ∧ Makes id settings.logs r := by
  unfold createLogger at h
  split at h
  next hnone =>
    obtain ⟨rfl, rfl⟩ := Prod.mk.inj h
    exact ⟨.refl _, .disabled _ hnone⟩
  next =>
    split at h
    next =>
      obtain ⟨rfl, rfl⟩ := Prod.mk.inj h
      exact ⟨.refl _, .throws _⟩
    next =>
      obtain ⟨rfl, rfl⟩ := Prod.mk.inj h
      exact ⟨.setGlobal _ _, .enabled .logs⟩

/-- A construction uses up an identity and registers global providers, and nothing else. -/
theorem construct_spec {r : Except String OtelProvider}
    (h : construct options environment s = (r, t))
    (hfirst : ∀ settings, resolveSettings options environment = .ok settings →
      settings.metrics ≠ some .none → s.globals .metrics = none) :
    Registers { s with constructed := s.constructed + 1 } t ∧
      ∀ p, r = .ok p → p.id = s.constructed ∧ p.Own := by
  have hthrows {u : Telemetry} {error : String}
      (hu : Registers { s with constructed := s.constructed + 1 } u)
      (h : (.error error, u) = (r, t)) :
      Registers { s with constructed := s.constructed + 1 } t ∧
        ∀ p, r = .ok p → p.id = s.constructed ∧ p.Own := by
    obtain ⟨rfl, rfl⟩ := Prod.mk.inj h
    exact ⟨hu, fun _ hr => by cases hr⟩
  unfold construct at h
  dsimp only at h
  split at h
  next => exact hthrows (.refl _) h
  next settings hsettings =>
    split at h
    next htracer => exact hthrows (createTracer_spec htracer).1 h
    next tracer traceProvider u htracer =>
      obtain ⟨hu, hglobal, htracer⟩ := createTracer_spec htracer
      have hmetrics : settings.metrics ≠ some .none → u.globals .metrics = none := by
        rw [hglobal]
        exact hfirst settings hsettings
      split at h
      next hmeter => exact hthrows (hu.trans (createMeter_spec hmeter hmetrics).1) h
      next meter meterProvider v hmeter =>
        obtain ⟨hv, hmeter⟩ := createMeter_spec hmeter hmetrics
        split at h
        next hlogger => exact hthrows (hu.trans (hv.trans (createLogger_spec hlogger).1)) h
        next logger loggerProvider w hlogger =>
          obtain ⟨hw, hlogger⟩ := createLogger_spec hlogger
          obtain ⟨rfl, rfl⟩ := Prod.mk.inj h
          refine ⟨hu.trans (hv.trans hw), fun p hp => ?_⟩
          obtain rfl := Except.ok.inj hp
          refine ⟨rfl, fun signal sdk => ?_, fun signal => ?_⟩
          · cases signal with
            | traces => exact (htracer _ _ rfl).1 sdk
            | metrics => exact (hmeter _ _ rfl).1 sdk
            | logs => exact (hlogger _ _ rfl).1 sdk
          · cases signal with
            | traces => exact (htracer _ _ rfl).2
            | metrics => exact (hmeter _ _ rfl).2
            | logs => exact (hlogger _ _ rfl).2

theorem getOrCreate_cases {r : Except String OtelProvider}
    (h : getOrCreate options environment s = (r, t)) (hfirst : s.FirstMeter options environment) :
    (∃ p, s.provider = some p ∧ r = .ok p ∧ t = s) ∨
      s.provider = none ∧ ∃ u, Registers { s with constructed := s.constructed + 1 } u ∧
        ((∃ error, r = .error error ∧ t = u) ∨ ∃ p, r = .ok p ∧ p.id = s.constructed ∧ p.Own ∧
          t = { u with provider := some p, created := p :: u.created }) := by
  unfold getOrCreate at h
  split at h
  next p hp =>
    obtain ⟨rfl, rfl⟩ := Prod.mk.inj h
    exact .inl ⟨p, hp, rfl, rfl⟩
  next hnone =>
    split at h
    next error u hu =>
      obtain ⟨rfl, rfl⟩ := Prod.mk.inj h
      exact .inr ⟨hnone, u, (construct_spec hu (hfirst hnone)).1, .inl ⟨error, rfl, rfl⟩⟩
    next p u hu =>
      obtain ⟨rfl, rfl⟩ := Prod.mk.inj h
      obtain ⟨hregisters, hown⟩ := construct_spec hu (hfirst hnone)
      exact .inr ⟨hnone, u, hregisters, .inr ⟨p, rfl, (hown p rfl).1, (hown p rfl).2, rfl⟩⟩

structure Consistent (s : Telemetry) : Prop where
  known : ∀ id ∈ s.shutdownCalled, id < s.constructed
  shutDown : ∀ sdk ∈ s.shutDown, sdk.owner ∈ s.shutdownCalled
  provider : ∀ p, s.provider = some p → p.id < s.constructed ∧ p.Own
  remembers : s.Remembers

theorem consistent_initial : Consistent {} := by
  refine ⟨?_, ?_, ?_, ?_⟩
  · exact fun _ h => absurd h List.not_mem_nil
  · exact fun _ h => absurd h List.not_mem_nil
  · exact fun _ h => by cases h
  · exact fun _ h => absurd h List.not_mem_nil

/-- An SDK provider is shut down through its owner only. -/
theorem Consistent.live (h : Consistent s) (hp : s.provider = some p)
    (hcalled : p.id ∉ s.shutdownCalled) : p.Live s := by
  intro signal henabled
  obtain ⟨-, hown⟩ := h.provider p hp
  obtain ⟨sdk, hsdk, hhandle⟩ := hown.enabled signal henabled
  refine ⟨sdk, hsdk, hhandle, fun hmem => hcalled ?_⟩
  rw [← hown.owner signal sdk hsdk]
  exact h.shutDown sdk hmem

theorem Consistent.getOrCreate {r : Except String OtelProvider} (h : Consistent s)
    (hget : s.getOrCreate options environment = (r, t))
    (hfirst : s.FirstMeter options environment) : Consistent t := by
  rcases getOrCreate_cases hget hfirst with ⟨p, -, -, rfl⟩ | ⟨hnone, u, ⟨globals, rfl⟩, hr⟩
  · exact h
  · have hknown : ∀ id ∈ s.shutdownCalled, id < s.constructed + 1 :=
      fun id hid => Nat.lt_succ_of_lt (h.known id hid)
    rcases hr with ⟨error, -, rfl⟩ | ⟨p, -, hid, hown, rfl⟩
    · refine ⟨hknown, h.shutDown, fun p hp => ?_, h.remembers⟩
      exact absurd (hnone.symm.trans hp) (by simp)
    · refine ⟨hknown, h.shutDown, fun q hq => ?_, fun q hq => ?_⟩
      · obtain rfl := Option.some.inj hq
        exact ⟨by rw [hid]; exact Nat.lt_succ_self _, hown⟩
      · rcases List.mem_cons.mp hq with rfl | hq
        · exact .inl rfl
        · rcases h.remembers q hq with hq | hq
          · exact absurd (hnone.symm.trans hq) (by simp)
          · exact .inr hq

theorem Consistent.callShutdown (h : Consistent s) (hp : s.provider = some p) :
    Consistent { s with shutdownCalled := p.id :: s.shutdownCalled } := by
  refine ⟨?_, fun sdk hsdk => List.mem_cons_of_mem _ (h.shutDown sdk hsdk), h.provider, ?_⟩
  · exact List.forall_mem_cons.mpr ⟨(h.provider p hp).1, h.known⟩
  · exact fun q hq => (h.remembers q hq).imp_right (List.mem_cons_of_mem _)

theorem Consistent.shutDownSdk (h : Consistent s) {sdk : SdkProvider}
    (hsdk : sdk.owner ∈ s.shutdownCalled) :
    Consistent { s with shutDown := sdk :: s.shutDown } :=
  ⟨h.known, List.forall_mem_cons.mpr ⟨hsdk, h.shutDown⟩, h.provider, h.remembers⟩

theorem Consistent.clear (h : Consistent s)
    (hcalled : ∀ p, s.provider = some p → p.id ∈ s.shutdownCalled) :
    Consistent { s with provider := none } := by
  refine ⟨h.known, h.shutDown, ?_, fun p hp => .inr ?_⟩
  · exact fun _ hp => by cases hp
  · rcases h.remembers p hp with hp | hp
    · exact hcalled p hp
    · exact hp

end Telemetry

/-- A task has ended, or it is somewhere in `provider.shutdown()`. -/
inductive Stage (called : List ℕ) : Program Outcome → Prop where
  | done (r : Outcome) : Stage called (.done r)
  | absent (rest : List (Option SdkProvider))
      (h : ∀ sdk, some sdk ∈ rest → sdk.owner ∈ called) :
      Stage called (.await .microtask fun _ => shutDownAll rest >>= returned)
  | shutdown (sdk : SdkProvider) (rest : List (Option SdkProvider))
      (h : ∀ sdk, some sdk ∈ rest → sdk.owner ∈ called) :
      Stage called (.await (.shutdown sdk) fun outcome => (match outcome with
        | .error error => .done (.error error)
        | .ok () => shutDownAll rest) >>= returned)
  | returned (outcome : Except String Unit) : Stage called (returned outcome)

theorem Stage.mono {called more : List ℕ} {task : Program Outcome} (h : Stage called task)
    (hmore : called ⊆ more) : Stage more task := by
  cases h with
  | done r => exact .done r
  | absent rest h => exact .absent rest fun sdk hsdk => hmore (h sdk hsdk)
  | shutdown sdk rest h => exact .shutdown sdk rest fun sdk hsdk => hmore (h sdk hsdk)
  | returned outcome => exact .returned outcome

/-- A shutdown runs to its next await, calling the next SDK provider's `shutdown` if there is
one. -/
theorem settle_shutDownAll {s : Telemetry} (rest : List (Option SdkProvider))
    (h : ∀ sdk, some sdk ∈ rest → sdk.owner ∈ s.shutdownCalled) (hs : s.Consistent) :
    ∃ q resume t, (shutDownAll rest >>= returned).settle s = (.await q resume, t) ∧
      Stage s.shutdownCalled (.await q resume) ∧ t.Consistent ∧ t.provider = s.provider ∧
      t.shutdownCalled = s.shutdownCalled := by
  match rest with
  | [] => exact ⟨_, _, s, rfl, .returned _, hs, rfl, rfl⟩
  | none :: rest =>
    exact ⟨_, _, s, rfl, .absent rest fun sdk hsdk => h sdk (List.mem_cons_of_mem _ hsdk), hs,
      rfl, rfl⟩
  | some sdk :: rest =>
    exact ⟨_, _, _, rfl, .shutdown sdk rest fun sdk hsdk => h sdk (List.mem_cons_of_mem _ hsdk),
      hs.shutDownSdk (h sdk List.mem_cons_self), rfl, rfl⟩

namespace Process
variable {process process' : Process} {action : Action} {actions : List Action}
  {out log : List Event} {task : Program Outcome} {i : ℕ}

structure Inv (process : Process) : Prop where
  shared : process.shared.Consistent
  tasks : ∀ task ∈ process.tasks, Stage process.shared.shutdownCalled task
  busy : ∀ p, process.shared.provider = some p → p.id ∈ process.shared.shutdownCalled →
    ∃ (i : ℕ) (q : Query) (resume : _), process.tasks[i]? = some (.await q resume)

theorem inv_initial : Inv ⟨{}, []⟩ :=
  ⟨Telemetry.consistent_initial, fun _ h => absurd h List.not_mem_nil, fun _ h => by cases h⟩

/-- A call that ends at once. -/
theorem Inv.ended {r : Except String OtelProvider} {options : Option ProviderOptions}
    {environment : Environment} {t : Telemetry} (h : Inv process) (outcome : Outcome)
    (hget : process.shared.getOrCreate options environment = (r, t))
    (hfirst : process.shared.FirstMeter options environment) :
    Inv ⟨t, process.tasks ++ [.done outcome]⟩ := by
  have hcases := Telemetry.getOrCreate_cases hget hfirst
  refine ⟨h.shared.getOrCreate hget hfirst, fun task htask => ?_, fun p hp hcalled => ?_⟩
  · rcases List.mem_append.mp htask with htask | htask
    · refine (h.tasks task htask).mono ?_
      rcases hcases with ⟨_, -, -, rfl⟩ | ⟨-, u, ⟨_, rfl⟩, ⟨_, -, rfl⟩ | ⟨_, -, -, -, rfl⟩⟩ <;>
        exact List.Subset.refl _
    · rw [List.mem_singleton.mp htask]
      exact .done outcome
  · have hold : process.shared.provider = some p ∧ p.id ∈ process.shared.shutdownCalled := by
      rcases hcases with ⟨_, -, -, rfl⟩ | ⟨hnone, u, ⟨_, rfl⟩, ⟨_, -, rfl⟩ | ⟨q, -, hid, -, rfl⟩⟩
      · exact ⟨hp, hcalled⟩
      · exact ⟨hp, hcalled⟩
      · -- the identity of a new provider is fresh
        obtain rfl := Option.some.inj hp
        exact absurd (h.shared.known _ hcalled) (by rw [hid]; exact Nat.lt_irrefl _)
    obtain ⟨i, q, resume, hi⟩ := h.busy p hold.1 hold.2
    exact ⟨i, q, resume, List.getElem?_append_left (List.getElem?_eq_some_iff.mp hi).1 ▸ hi⟩

/-- A task that comes to its next await, after `shutdownCalled` may have grown. -/
theorem Inv.waits {t : Telemetry} {q : Query} {resume : q.Answer → Program Outcome}
    {tasks : List (Program Outcome)} (h : Inv process) (ht : t.Consistent)
    (hmore : process.shared.shutdownCalled ⊆ t.shutdownCalled)
    (hstage : Stage t.shutdownCalled (.await q resume)) (hi : tasks[i]? = some (.await q resume))
    (htasks : ∀ task ∈ tasks, task ∈ process.tasks ∨ task = .await q resume) :
    Inv ⟨t, tasks⟩ := by
  refine ⟨ht, fun task htask => ?_, fun _ _ _ => ⟨i, q, resume, hi⟩⟩
  rcases htasks task htask with htask | rfl
  · exact (h.tasks task htask).mono hmore
  · exact hstage

theorem Inv.callShutdown (h : Inv process) :
    Inv ⟨(shutdownProvider.settle process.shared).2,
      process.tasks ++ [(shutdownProvider.settle process.shared).1]⟩ := by
  cases hp : process.shared.provider with
  | none =>
    have hsettle : shutdownProvider.settle process.shared = (.done (.ok none), process.shared) := by
      simp only [shutdownProvider, Async.settle, hp, id]
    rw [hsettle]
    refine ⟨h.shared, fun task htask => ?_, fun p hsome => ?_⟩
    · rcases List.mem_append.mp htask with htask | htask
      · exact h.tasks task htask
      · rw [List.mem_singleton.mp htask]
        exact .done _
    · exact absurd (hp.symm.trans hsome) (by simp)
  | some p =>
    have howner := (h.shared.provider p hp).2.owner
    obtain ⟨q, resume, t, hsettle, hstage, ht, -, hcalled⟩ := settle_shutDownAll
      (s := { process.shared with shutdownCalled := p.id :: process.shared.shutdownCalled })
      [p.traceProvider, p.meterProvider, p.loggerProvider] (by
        intro sdk hsdk
        have hid : sdk.owner = p.id := by
          simp only [List.mem_cons, List.not_mem_nil, or_false] at hsdk
          rcases hsdk with hsdk | hsdk | hsdk
          · exact howner .traces sdk hsdk.symm
          · exact howner .metrics sdk hsdk.symm
          · exact howner .logs sdk hsdk.symm
        rw [hid]
        exact List.mem_cons_self) (h.shared.callShutdown hp)
    have hsettle : shutdownProvider.settle process.shared = (.await q resume, t) := by
      simp only [shutdownProvider, Async.settle, hp, id]
      exact hsettle
    rw [hsettle]
    refine h.waits (i := process.tasks.length) ht ?_ (hcalled ▸ hstage) (by simp) (by simp)
    rw [hcalled]
    exact List.subset_cons_self _ _

/-- The task that has run on, and the others. -/
theorem Inv.set {t : Telemetry} {q : Query} {resume : q.Answer → Program Outcome}
    {old : Program Outcome} (h : Inv process) (hi : process.tasks[i]? = some old)
    (ht : t.Consistent) (hcalled : t.shutdownCalled = process.shared.shutdownCalled)
    (hstage : Stage t.shutdownCalled (.await q resume)) :
    Inv ⟨t, process.tasks.set i (.await q resume)⟩ := by
  refine h.waits (i := i) ht (hcalled ▸ List.Subset.refl _) hstage ?_
    fun _ => List.mem_or_eq_of_mem_set
  exact List.getElem?_set_self (List.getElem?_eq_some_iff.mp hi).1

theorem Inv.step (h : Inv process) (hcareful : process.Careful action)
    (hstep : process.step action = some (process', out)) : Inv process' := by
  cases action with
  | call c =>
    obtain ⟨rfl, -⟩ := Prod.mk.inj (Option.some.inj hstep)
    cases c with
    | initProvider options environment => exact h.ended _ rfl hcareful
    | getProvider environment => exact h.ended _ rfl hcareful
    | shutdownProvider => exact h.callShutdown
  | change e => exact e.elim
  | resume i answer =>
    simp only [Process.step, Pool.step] at hstep
    split at hstep
    next q resume hi =>
      obtain ⟨rfl, -⟩ := Prod.mk.inj (Option.some.inj hstep)
      have hstage := h.tasks _ (List.mem_of_getElem? hi)
      cases hstage with
      | absent rest hrest =>
        obtain ⟨q, resume, t, hsettle, hstage, ht, -, hcalled⟩ :=
          settle_shutDownAll _ hrest h.shared
        simp only [hsettle]
        exact h.set hi ht hcalled (hcalled ▸ hstage)
      | shutdown sdk rest hrest =>
        cases hanswer : answer (.shutdown sdk) with
        | error error => exact h.set hi h.shared rfl (.returned (.error error))
        | ok u =>
          obtain ⟨q, resume, t, hsettle, hstage, ht, -, hcalled⟩ :=
            settle_shutDownAll _ hrest h.shared
          simp only [hsettle]
          exact h.set hi ht hcalled (hcalled ▸ hstage)
      | returned outcome =>
        have hsettles := hcareful outcome _ hi
        cases outcome with
        | ok u =>
          refine ⟨h.shared.clear hsettles, fun task htask => ?_, fun p hp => by cases hp⟩
          rcases List.mem_or_eq_of_mem_set htask with htask | rfl
          · exact h.tasks task htask
          · exact .done _
        | error error =>
          refine ⟨h.shared, fun task htask => ?_, fun p hp hcalled => ?_⟩
          · rcases List.mem_or_eq_of_mem_set htask with htask | rfl
            · exact h.tasks task htask
            · exact .done _
          · obtain ⟨j, hji, q, resume, hj⟩ := hsettles p hp hcalled
            exact ⟨j, q, resume, (List.getElem?_set_ne hji.symm).trans hj⟩
    next => cases hstep

theorem Inv.run (hmeets : Machine.Meets Process.step Careful ⟨{}, []⟩ actions)
    (hrun : Machine.run Process.step ⟨{}, []⟩ actions = some (process, log)) : Inv process :=
  Machine.run_preserves_of_meets (fun _ _ _ _ h hcareful hstep => h.step hcareful hstep)
    inv_initial hmeets hrun

/-- Between shutdowns the module's provider is one whose shutdown has not been called. -/
theorem Inv.not_called {p : OtelProvider} (h : Inv process) (hquiet : process.Quiet)
    (hp : process.shared.provider = some p) : p.id ∉ process.shared.shutdownCalled := by
  intro hcalled
  obtain ⟨i, q, resume, hi⟩ := h.busy p hp hcalled
  obtain ⟨r, hr⟩ := hquiet _ (List.mem_of_getElem? hi)
  cases hr

/-- In a run of careful steps no provider is forgotten before its shutdown was called, and between
shutdowns `getProvider` gives a provider that records to live SDK providers of its own. -/
theorem exposed_of_careful (hmeets : Machine.Meets Process.step Careful ⟨{}, []⟩ actions)
    (hrun : Machine.run Process.step ⟨{}, []⟩ actions = some (process, log)) :
    process.shared.Remembers ∧ (process.Quiet → ∀ environment p t,
      process.shared.FirstMeter none environment →
      process.shared.getOrCreate none environment = (.ok p, t) → p.Live t) := by
  have hinv := Inv.run hmeets hrun
  refine ⟨hinv.shared.remembers, fun hquiet environment p t hfirst hget => ?_⟩
  have ht := hinv.shared.getOrCreate hget hfirst
  rcases Telemetry.getOrCreate_cases hget hfirst with
    ⟨q, hq, hr, rfl⟩ | ⟨-, u, ⟨_, rfl⟩, ⟨error, hr, -⟩ | ⟨q, hr, hid, -, rfl⟩⟩
  · obtain rfl := Except.ok.inj hr
    exact ht.live hq (hinv.not_called hquiet hq)
  · cases hr
  · obtain rfl := Except.ok.inj hr
    refine ht.live rfl fun hcalled => ?_
    exact absurd (hinv.shared.known _ hcalled) (by rw [hid]; exact Nat.lt_irrefl _)

/-- Only metrics are exported. -/
def metricsOnly : ProviderOptions := ⟨⟨some .none, some .console, some .none⟩⟩

def disabled : ProviderOptions := ⟨⟨some .none, some .none, some .none⟩⟩

def emptyEnvironment : Environment := { env := fun _ => none }

def succeeds : (q : Query) → q.Answer
  | .microtask => ()
  | .shutdown _ => .ok ()
  | .returned _ => ()

/-- An init, a shutdown that succeeds, and an init without metrics. -/
def reinitialised : List Action :=
  [.call (.initProvider (some metricsOnly) emptyEnvironment), .call .shutdownProvider,
    .resume 1 succeeds, .resume 1 succeeds, .resume 1 succeeds, .resume 1 succeeds,
    .call (.initProvider (some disabled) emptyEnvironment)]

theorem exposed_of_careful_reinitialised :
    ∃ process log, Machine.run Process.step ⟨{}, []⟩ reinitialised = some (process, log) ∧
      process.shared.Remembers ∧ (process.Quiet → ∀ environment p t,
        process.shared.FirstMeter none environment →
        process.shared.getOrCreate none environment = (.ok p, t) → p.Live t) := by
  obtain ⟨process, log, hrun⟩ :
      ∃ process log, Machine.run Process.step ⟨{}, []⟩ reinitialised = some (process, log) :=
    ⟨_, _, rfl⟩
  refine ⟨process, log, hrun, exposed_of_careful ?_ hrun⟩
  refine (Machine.meets_cons_of_step rfl _).mpr ⟨fun _ _ _ _ => rfl, ?_⟩
  refine (Machine.meets_cons_of_step rfl _).mpr ⟨trivial, ?_⟩
  refine (Machine.meets_cons_of_step rfl _).mpr ⟨(fun _ _ h => by cases h), ?_⟩
  refine (Machine.meets_cons_of_step rfl _).mpr ⟨(fun _ _ h => by cases h), ?_⟩
  refine (Machine.meets_cons_of_step rfl _).mpr ⟨(fun _ _ h => by cases h), ?_⟩
  refine (Machine.meets_cons_of_step rfl _).mpr ⟨fun outcome _ h => ?_, ?_⟩
  · cases h
    intro p hp
    cases hp
    exact List.mem_cons_self
  · refine (Machine.meets_cons_of_step rfl _).mpr ⟨fun _ settings h hmetrics => ?_, trivial⟩
    cases h
    exact absurd rfl hmetrics

/-- The meter after a shutdown is that of the provider that was shut down. -/
theorem meter_of_shut_down_provider :
    ¬ ∀ actions process log, Machine.run Process.step ⟨{}, []⟩ actions = some (process, log) →
      process.shared.Remembers ∧ (process.Quiet → ∀ environment p t,
        process.shared.getOrCreate none environment = (.ok p, t) → p.Live t) := by
  intro hexposed
  have hquiet := (hexposed
    [.call (.initProvider (some metricsOnly) emptyEnvironment), .call .shutdownProvider,
      .resume 1 succeeds, .resume 1 succeeds, .resume 1 succeeds, .resume 1 succeeds]
    _ _ rfl).2
  have hlive := hquiet (List.forall_mem_cons.mpr ⟨⟨_, rfl⟩, List.forall_mem_cons.mpr ⟨⟨_, rfl⟩,
    fun _ h => absurd h List.not_mem_nil⟩⟩) emptyEnvironment _ _ rfl
  obtain ⟨sdk, -, hhandle, hsdk⟩ := hlive .metrics (by simp [OTLPSettings.exporter])
  cases hhandle
  exact hsdk List.mem_cons_self

end Process
end Connectum.Otel.Provider
