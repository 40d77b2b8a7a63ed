import Connectum.Core.BuildRoutes

/-! The startup check of the user's bidi-streaming methods against the transport. -/
namespace Connectum.Core
open Healthcheck

def transportValidationErrorCode : String := "CONNECTUM_UNSUPPORTED_STREAMING_TRANSPORT"

inductive TransportValidationMode where
  | error
  | warn
  | off
  deriving DecidableEq, Repr

inductive EffectiveTransport where
  | plaintextH1
  | h2c
  | tlsH1Negotiable
  | tlsH2Only
  deriving DecidableEq, Repr

def resolveEffectiveTransport (hasTls : Bool) (allowHTTP1 : Option Bool) : EffectiveTransport :=
  match hasTls, allowHTTP1.getD true with
  | true, true => .tlsH1Negotiable
  | true, false => .tlsH2Only
  | false, true => .plaintextH1
  | false, false => .h2c

structure StreamingMethodInfo where
  service : String
  method : String
  kind : String
  deriving DecidableEq, Repr

def MethodKind.name : MethodKind → String
  | .unary => "unary"
  | .serverStreaming => "server_streaming"
  | .clientStreaming => "client_streaming"
  | .bidiStreaming => "bidi_streaming"

def ServiceType.streamingMethods (service : ServiceType) : List StreamingMethodInfo :=
  (service.methods.filter fun method => method.methodKind = .bidiStreaming).map fun method =>
    ⟨service.typeName, method.name, method.methodKind.name⟩

def collectStreamingMethods (registry : List DescFile) : List StreamingMethodInfo :=
  registry.flatMap fun file => file.services.flatMap ServiceType.streamingMethods

def formatMethodList (methods : List StreamingMethodInfo) : String :=
  "\n".intercalate (methods.map fun m =>
    "  - " ++ m.service ++ "." ++ m.method ++ " (" ++ m.kind ++ ")")

def formatTransportValidationMessage (methods : List StreamingMethodInfo) : String :=
  "[" ++ transportValidationErrorCode ++
    "] The following bidi-streaming methods require HTTP/2, " ++
    "but the effective transport is plaintext HTTP/1.1 " ++
    "(no TLS, allowHTTP1: true — the default):\n" ++
    formatMethodList methods ++ "\n" ++
    "Without HTTP/2 these calls fail silently at runtime: the first send hangs forever " ++
    "(or the client receives HTTP 505).\n" ++
    "Fix one of:\n" ++
    "  1. allowHTTP1: false — plaintext h2c (recommended for internal services);\n" ++
    "  2. configure TLS — HTTP/2 via ALPN.\n" ++
    "Or downgrade this check: transportValidation: \"warn\" | \"off\"."

def formatTlsHttp1WarningMessage (methods : List StreamingMethodInfo) : String :=
  "[" ++ transportValidationErrorCode ++
    "] The TLS server allows HTTP/1.1 (allowHTTP1: true), so ALPN may " ++
    "negotiate HTTP/1.1 with some clients or proxies. " ++
    "The following bidi-streaming methods require HTTP/2 " ++
    "and will hang for any client that negotiates HTTP/1.1:\n" ++
    formatMethodList methods ++ "\n" ++
    "If you do not need to serve HTTP/1.1 clients, set allowHTTP1: false " ++
    "so the server refuses HTTP/1.1 at " ++
    "ALPN (HTTP/1.1 clients then fail the TLS handshake explicitly instead of hanging on bidi).\n" ++
    "Silence this warning with transportValidation: \"off\"."

/-- A text and the methods that it names: a `TransportValidationError`, or a logged warning. -/
structure Diagnostic where
  message : String
  methods : List StreamingMethodInfo
  deriving DecidableEq, Repr

/-- The error that is returned and the warning that is logged. -/
structure TransportReport where
  error : Option Diagnostic := none
  warning : Option Diagnostic := none
  deriving DecidableEq, Repr

def TransportReport.methods (report : TransportReport) : List StreamingMethodInfo :=
  ((report.error.or report.warning).map Diagnostic.methods).getD []

def validateTransport (registry : List DescFile) (transport : EffectiveTransport)
    (mode : TransportValidationMode) : TransportReport :=
  if mode = .off then {}
  else if transport = .h2c ∨ transport = .tlsH2Only then {}
  else
    let methods := collectStreamingMethods registry
    if methods = [] then {}
    else if transport = .tlsH1Negotiable then
      { warning := some ⟨formatTlsHttp1WarningMessage methods, methods⟩ }
    else if mode = .warn then
      { warning := some ⟨formatTransportValidationMessage methods, methods⟩ }
    else { error := some ⟨formatTransportValidationMessage methods, methods⟩ }

namespace RoutesState
variable {Manager : Type*} {s : RoutesState Manager} {services : List DescService}
  {options : BuildRoutesOptions Manager} {info : StreamingMethodInfo}

/-- The user services that are mounted here. -/
def mounted (options : BuildRoutesOptions Manager) : List DescService :=
  options.services.filter fun definition => match options.enabledServices with
    | none => true
    | some enabled => definition.typeName ∈ enabled

theorem mem_registry_service {d : DescService} {file : DescFile} :
    file ∈ (s.service d).registry ↔ file ∈ s.registry ∨ file = d.file := by
  unfold service
  dsimp only
  split
  next h =>
    constructor
    · exact .inl
    · rintro (hold | rfl)
      · exact hold
      · exact h
  next => simp

theorem mem_registry_foldl_service {file : DescFile} :
    file ∈ (services.foldl service s).registry ↔
      file ∈ s.registry ∨ ∃ d ∈ services, d.file = file := by
  induction services generalizing s with
  | nil => simp
  | cons d services ih =>
    rw [List.foldl_cons, ih, mem_registry_service, List.exists_mem_cons_iff, or_assoc]
    simp only [eq_comm]

theorem userFileCount_foldl_service :
    (services.foldl service s).userFileCount = s.userFileCount := by
  induction services generalizing s with
  | nil => rfl
  | cons d services ih => exact ih

section
variable [DecidableEq Manager]

/-- `registry.slice(0, userFileCount)` after `routes` has been called for the handler. -/
def userRegistry (options : BuildRoutesOptions Manager) (managers : Manager → HealthcheckManager) :
    List DescFile :=
  (routes options { managers }).registry.take (routes options { managers }).userFileCount

theorem userFileCount_foldl_register (protocols : List (ProtocolRegistration Manager))
    (s : RoutesState Manager) : (protocols.foldl register s).userFileCount = s.userFileCount := by
  induction protocols generalizing s with
  | nil => rfl
  | cons p protocols ih =>
    rw [List.foldl_cons, ih]
    cases p with
    | healthcheck manager => rfl
    | other services => exact userFileCount_foldl_service

/-- The user slice is what the user services have registered. -/
theorem userRegistry_eq (options : BuildRoutesOptions Manager)
    (managers : Manager → HealthcheckManager) :
    userRegistry options managers = (registerServices options { managers }).registry := by
  have hgrows := grows_foldl_register options.protocols (registerServices options { managers })
  have hcount : (routes options { managers }).userFileCount =
      (registerServices options { managers }).registry.length :=
    userFileCount_foldl_register _ _
  rw [userRegistry, hcount]
  exact (List.prefix_iff_eq_take.mp hgrows.registry).symm

theorem mem_userRegistry {managers : Manager → HealthcheckManager} {file : DescFile} :
    file ∈ userRegistry options managers ↔ ∃ d ∈ mounted options, d.file = file := by
  rw [userRegistry_eq]
  have hfold : file ∈ ((mounted options).foldl service { managers }).registry ↔ _ :=
    mem_registry_foldl_service
  exact hfold.trans (or_iff_right List.not_mem_nil)

/-- On plaintext HTTP/1.1 all collected methods are reported, whatever the severity. -/
theorem methods_validateTransport (registry : List DescFile) {mode : TransportValidationMode}
    (hmode : mode ≠ .off) :
    (validateTransport registry .plaintextH1 mode).methods = collectStreamingMethods registry := by
  unfold validateTransport
  rw [if_neg hmode, if_neg (by decide)]
  dsimp only
  split
  next hnone =>
    rw [hnone]
    rfl
  next =>
    rw [if_neg (by decide)]
    split <;> rfl

/-- The methods reported on plaintext HTTP/1.1 are exactly the bidi-streaming methods of the
mounted user services if and only if those of the other services in their files are among them. -/
theorem reported_iff_mounted (options : BuildRoutesOptions Manager)
    (managers : Manager → HealthcheckManager) {mode : TransportValidationMode}
    (hmode : mode ≠ .off) :
    (∀ info, info ∈
        (validateTransport (userRegistry options managers) .plaintextH1 mode).methods ↔
      ∃ d ∈ mounted options, info ∈ d.type.streamingMethods) ↔
    ∀ d ∈ mounted options, ∀ type ∈ d.file.services, ∀ info ∈ type.streamingMethods,
      ∃ d' ∈ mounted options, info ∈ d'.type.streamingMethods := by
  have hreported (info : StreamingMethodInfo) :
      info ∈ (validateTransport (userRegistry options managers) .plaintextH1 mode).methods ↔
        ∃ d ∈ mounted options, ∃ type ∈ d.file.services, info ∈ type.streamingMethods := by
    rw [methods_validateTransport _ hmode, collectStreamingMethods, List.mem_flatMap]
    simp only [List.mem_flatMap, mem_userRegistry]
    constructor
    · rintro ⟨file, ⟨d, hd, rfl⟩, htype⟩
      exact ⟨d, hd, htype⟩
    · rintro ⟨d, hd, htype⟩
      exact ⟨d.file, ⟨d, hd, rfl⟩, htype⟩
  constructor
  · intro hexact d hd type htype info hinfo
    exact (hexact info).mp ((hreported info).mpr ⟨d, hd, type, htype, hinfo⟩)
  · intro hall info
    rw [hreported]
    constructor
    · rintro ⟨d, hd, type, htype, hinfo⟩
      exact hall d hd type htype info hinfo
    · rintro ⟨d, hd, hinfo⟩
      exact ⟨d, hd, d.type, d.mem, hinfo⟩

def acmeFile : DescFile where
  ref := 1
  services := [⟨"acme.v1.InventoryService", [⟨"GetItem", .unary⟩]⟩,
    ⟨"acme.v1.ScannerService", [⟨"StreamCodes", .bidiStreaming⟩]⟩]

def InventoryService : DescService where
  file := acmeFile
  type := ⟨"acme.v1.InventoryService", [⟨"GetItem", .unary⟩]⟩
  mem := List.mem_cons_self

def ScannerService : DescService where
  file := acmeFile
  type := ⟨"acme.v1.ScannerService", [⟨"StreamCodes", .bidiStreaming⟩]⟩
  mem := List.mem_cons_of_mem _ List.mem_cons_self

theorem reported_iff_mounted_scanner :
    ⟨"acme.v1.ScannerService", "StreamCodes", "bidi_streaming"⟩ ∈
        (validateTransport (userRegistry
          ({ services := [InventoryService, ScannerService], protocols := [] } :
            BuildRoutesOptions Unit) fun _ => {}) .plaintextH1 .error).methods ↔
      ∃ d ∈ mounted ({ services := [InventoryService, ScannerService], protocols := [] } :
        BuildRoutesOptions Unit),
        ⟨"acme.v1.ScannerService", "StreamCodes", "bidi_streaming"⟩ ∈
          d.type.streamingMethods := by
  refine (reported_iff_mounted _ _ (by decide)).mpr (fun d hd type htype info hinfo => ?_) _
  have hfile : d.file = acmeFile := by
    rcases List.mem_pair.mp hd with rfl | rfl <;> rfl
  rw [hfile] at htype
  rcases List.mem_pair.mp htype with rfl | rfl
  · exact ⟨InventoryService, List.mem_cons_self, hinfo⟩
  · exact ⟨ScannerService, List.mem_cons_of_mem _ List.mem_cons_self, hinfo⟩

/-- The method of an unmounted service in the file of a mounted one is reported. -/
theorem unmounted_method_reported :
    ¬ ∀ (options : BuildRoutesOptions Unit) (managers : Unit → HealthcheckManager)
      (mode : TransportValidationMode), mode ≠ .off → ∀ info, info ∈
        (validateTransport (userRegistry options managers) .plaintextH1 mode).methods ↔
      ∃ d ∈ mounted options, info ∈ d.type.streamingMethods := by
  intro hexact
  have hreported := (hexact
    { services := [InventoryService, ScannerService]
      protocols := []
      enabledServices := some ["acme.v1.InventoryService"] } (fun _ => {}) .error (by decide)
    ⟨"acme.v1.ScannerService", "StreamCodes", "bidi_streaming"⟩).mp (by decide)
  exact absurd hreported (by decide)

end
end RoutesState
end Connectum.Core
