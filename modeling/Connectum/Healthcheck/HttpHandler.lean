import Connectum.Healthcheck.HealthcheckManager
import Connectum.Url
import Connectum.Urlencoded

/-! The health of a service over gRPC and over HTTP. -/
namespace Connectum.Healthcheck

/-- The code is that of the protocol. -/
structure ConnectError where
  code : ℕ
  message : String
  deriving DecidableEq, Repr

/-- `Code.NotFound`. -/
def notFound : ℕ := 5

def resolveServiceStatus (manager : HealthcheckManager) (service : String) : ServingStatus :=
  if service = "" then if manager.areAllHealthy then .serving else .notServing
  else match manager.getStatus service with
    | some status => status
    | none => .serviceUnknown

def check (manager : HealthcheckManager) (service : String) : Except ConnectError ServingStatus :=
  let status := resolveServiceStatus manager service
  if status = .serviceUnknown then .error ⟨notFound, "Service '" ++ service ++ "' not found"⟩
  else .ok status

/-- `STATUS_TO_HTTP`. -/
def statusToHttp : List (ServingStatus × ℕ) :=
  [(.serving, 200), (.notServing, 503), (.serviceUnknown, 404), (.unknown, 503)]

/-- `STATUS_NAMES`. -/
def statusNames : List (ServingStatus × String) :=
  [(.unknown, "UNKNOWN"), (.serving, "SERVING"), (.notServing, "NOT_SERVING"),
    (.serviceUnknown, "SERVICE_UNKNOWN")]

structure NodeRequest where
  url : Option String := none
  host : Option String := none
  deriving DecidableEq, Repr

structure HttpHealthResponse where
  status : String
  service : String
  timestamp : String
  deriving DecidableEq, Repr

/-- The body is written as JSON. -/
structure NodeResponse where
  statusCode : ℕ
  headers : List (String × String)
  body : HttpHealthResponse
  deriving DecidableEq, Repr

def defaultHttpPaths : List String := ["/healthz", "/health", "/readyz"]

variable (parseHost : Bool → List Char → Bool)

/-- `new URL(url, base)` with the base of a host. -/
def parsedUrl (url : String) (host : Option String) : Option Url :=
  Url.ofReference parseHost url.toList ("http://" ++ host.getD "localhost").toList

/-- `searchParams.get("service")`. -/
def serviceParam (query : Option (List Char)) : Option String :=
  (Urlencoded.get (query.getD []) "service".toList).map String.ofList

def parseServiceFromUrl (url host : Option String) : Option String :=
  match url with
  | none => none
  | some url =>
    if url = "" then none
    else match parsedUrl parseHost url host with
      | some parsed => serviceParam parsed.query
      | none => none

namespace NodeRequest

/-- `req.url ?? ""`. -/
def urlText (req : NodeRequest) : String := req.url.getD ""

/-- `url.split("?")[0]`. -/
def pathname (req : NodeRequest) : String :=
  String.ofList (req.urlText.toList.takeWhile (· ≠ '?'))

end NodeRequest

/-- The status that the handler reports; an empty service is falsy. -/
def effectiveStatus (manager : HealthcheckManager) (service : Option String) : ServingStatus :=
  match service.filter (· ≠ "") with
  | none => if manager.areAllHealthy then .serving else .notServing
  | some service =>
    match manager.getStatus service with
    | none => .serviceUnknown
    | some status => status

def httpResponse (status : ServingStatus) (service : Option String) (now : String) : NodeResponse :=
  { statusCode := (statusToHttp.lookup status).getD 503
    headers := [("Content-Type", "application/json")]
    body :=
      { status := (statusNames.lookup status).getD "UNKNOWN"
        service := service.getD "overall"
        timestamp := now } }

/-- `none` where the handler leaves the request to others. -/
def httpHealthHandler (manager : HealthcheckManager) (healthPaths : List String) (now : String)
    (req : NodeRequest) : Option NodeResponse :=
  if req.pathname ∉ healthPaths then none
  else
    let service := parseServiceFromUrl parseHost (some req.urlText) req.host
    some (httpResponse (effectiveStatus manager service) service now)

/-- The service that the query of a request names, whatever its host is. -/
def NodeRequest.requestedService (req : NodeRequest) : Option String :=
  (Url.queryOf (Url.clean req.urlText.toList)).bind fun query => serviceParam (some query)

/-- The status in an answer over gRPC. -/
def answered : Except ConnectError ServingStatus → ServingStatus
  | .ok status => status
  | .error _ => .serviceUnknown

/-- A response over HTTP says what an answer over gRPC does. -/
structure Agrees (response : NodeResponse) (answer : Except ConnectError ServingStatus) : Prop where
  notFound_iff : response.statusCode = 404 ↔ ∃ message, answer = .error ⟨notFound, message⟩
  serving_iff : response.statusCode = 200 ↔ answer = .ok .serving
  status_eq : statusNames.lookup (answered answer) = some response.body.status

variable {parseHost : Bool → List Char → Bool} {manager : HealthcheckManager}
  {healthPaths : List String} {now service : String} {req : NodeRequest}

theorem effectiveStatus_eq (service : Option String) :
    effectiveStatus manager service = resolveServiceStatus manager (service.getD "") := by
  rw [effectiveStatus, resolveServiceStatus]
  cases service with
  | none => rfl
  | some service =>
    by_cases h : service = ""
    · rw [Option.filter_some_neg (by simpa using h), Option.getD_some, if_pos h]
    · rw [Option.filter_some_pos (by simpa using h), Option.getD_some, if_neg h]
      dsimp only
      split <;> simp_all

theorem check_eq_error_iff : (∃ message, check manager service = .error ⟨notFound, message⟩) ↔
    resolveServiceStatus manager service = .serviceUnknown := by
  rw [check]
  split
  next h => exact ⟨fun _ => h, fun _ => ⟨_, rfl⟩⟩
  next h =>
    refine ⟨?_, fun hunknown => absurd hunknown h⟩
    rintro ⟨message, hmessage⟩
    cases hmessage

theorem check_eq_serving_iff : check manager service = .ok .serving ↔
    resolveServiceStatus manager service = .serving := by
  rw [check]
  split
  next h =>
    rw [h]
    constructor
    · rintro ⟨⟩
    · rintro ⟨⟩
  next => rw [Except.ok.injEq]

theorem answered_check :
    answered (check manager service) = resolveServiceStatus manager service := by
  rw [check]
  split
  next h => exact h.symm
  next => rfl

/-- Every status has a name. -/
theorem lookup_statusNames (status : ServingStatus) :
    statusNames.lookup status = some ((statusNames.lookup status).getD "UNKNOWN") := by
  cases status <;> rfl

theorem statusNames_injective {status status' : ServingStatus}
    (h : statusNames.lookup status = statusNames.lookup status') : status = status' := by
  cases status <;> cases status' <;> first | rfl | exact absurd h (by decide)

theorem agrees_httpResponse {status : ServingStatus} {asked : Option String} :
    Agrees (httpResponse status asked now) (check manager service) ↔
      status = resolveServiceStatus manager service := by
  constructor
  · intro h
    have hname := h.status_eq
    rw [answered_check] at hname
    exact statusNames_injective ((lookup_statusNames status).trans hname.symm)
  · rintro rfl
    constructor
    · rw [check_eq_error_iff]
      change (statusToHttp.lookup _).getD 503 = 404 ↔ _
      cases resolveServiceStatus manager service <;> decide
    · rw [check_eq_serving_iff]
      change (statusToHttp.lookup _).getD 503 = 200 ↔ _
      cases resolveServiceStatus manager service <;> decide
    · rw [answered_check]
      exact lookup_statusNames _

/-- Whether the request's URL is parsed decides what the handler asks for. -/
theorem parseServiceFromUrl_of_requestedService (h : req.requestedService = some service) :
    parseServiceFromUrl parseHost (some req.urlText) req.host =
      if (parsedUrl parseHost req.urlText req.host).isSome then some service else none := by
  obtain ⟨query, hquery, hparam⟩ := Option.bind_eq_some_iff.mp h
  have hne : req.urlText ≠ "" := by
    intro hempty
    rw [hempty] at hquery
    cases hquery
  rw [parseServiceFromUrl, if_neg hne]
  cases hparsed : parsedUrl parseHost req.urlText req.host with
  | none => rfl
  | some parsed =>
    obtain ⟨base, -, hurl⟩ := Option.bind_eq_some_iff.mp hparsed
    change serviceParam parsed.query = some service
    rw [Url.query_parse hurl hquery, hparam]

/-- HTTP and gRPC agree on a service exactly when the URL can be parsed with the host, or the
service has the overall status. -/
theorem httpHealthHandler_agrees_iff (hpath : req.pathname ∈ healthPaths)
    (hservice : req.requestedService = some service) :
    (∃ response, httpHealthHandler parseHost manager healthPaths now req = some response ∧
        Agrees response (check manager service)) ↔
      (parsedUrl parseHost req.urlText req.host).isSome = true ∨
        resolveServiceStatus manager service = resolveServiceStatus manager "" := by
  have hhandled : httpHealthHandler parseHost manager healthPaths now req = some (httpResponse
      (effectiveStatus manager (parseServiceFromUrl parseHost (some req.urlText) req.host))
      (parseServiceFromUrl parseHost (some req.urlText) req.host) now) := by
    rw [httpHealthHandler, if_neg (not_not_intro hpath)]
  rw [hhandled]
  simp only [Option.some.injEq, exists_eq_left', agrees_httpResponse, effectiveStatus_eq,
    parseServiceFromUrl_of_requestedService hservice]
  cases (parsedUrl parseHost req.urlText req.host).isSome with
  | true => simp
  | false => simp [eq_comm]

theorem encodeURIComponent_kept {c : Char} {s : List Char}
    (h : c ∈ Urlencoded.encodeURIComponent s) : Url.isC0ControlOrSpace c = false ∧ c ≠ '#' := by
  have hall : ∀ byte < 128, Urlencoded.isUnreserved byte = true ∨ byte = 0x25 →
      Url.isC0ControlOrSpace (Char.ofNat byte) = false ∧ Char.ofNat byte ≠ '#' := by
    decide
  obtain ⟨byte, hbyte, rfl⟩ := Urlencoded.mem_encodeURIComponent h
  refine hall byte ?_ hbyte
  rcases hbyte with hbyte | rfl
  · exact Urlencoded.lt_of_isUnreserved hbyte
  · decide

/-- Every service can be asked for, its name encoded. -/
theorem requestedService_encoded {path : List Char} (hquery : '?' ∉ path) (hfragment : '#' ∉ path)
    {host : Option String} :
    NodeRequest.requestedService ⟨some (String.ofList (path ++ '?' :: ("service".toList ++
      '=' :: Urlencoded.encodeURIComponent service.toList))), host⟩ = some service := by
  have hname : Urlencoded.encodeURIComponent "service".toList = "service".toList := by decide
  have hkept : ∀ c ∈ "service".toList ++ '=' :: Urlencoded.encodeURIComponent service.toList,
      Url.isC0ControlOrSpace c = false ∧ c ≠ '#' := by
    intro c hc
    rw [← hname, List.mem_append, List.mem_cons] at hc
    rcases hc with hc | rfl | hc
    · exact encodeURIComponent_kept hc
    · decide
    · exact encodeURIComponent_kept hc
  have hget := Urlencoded.get_encodeURIComponent "service".toList service.toList
  rw [hname] at hget
  rw [NodeRequest.requestedService, NodeRequest.urlText, Option.getD_some, String.toList_ofList,
    Url.queryOf_clean hquery hfragment hkept, Option.bind_some, serviceParam, Option.getD_some,
    hget, Option.map_some, String.ofList_toList]

/-- On the usual paths the authority after `http://` decides whether the URL can be parsed. -/
theorem isSome_parsedUrl {c : Char} {rest : List Char} (hc : Url.isSlash true c = false)
    (hclean : Url.clean req.urlText.toList = '/' :: c :: rest) :
    (parsedUrl parseHost req.urlText req.host).isSome =
      Url.isAuthority parseHost true (Url.httpAuthority (req.host.getD "localhost").toList) := by
  rw [parsedUrl, String.toList_append]
  exact Url.isSome_ofReference_path hc hclean

theorem httpHealthHandler_agrees_iff_inventory :
    (∃ response, httpHealthHandler (fun _ host => host.all Char.isAlpha)
        { entries := [("acme.v1.InventoryService", ⟨.serving, .service⟩),
          ("acme.v1.ScannerService", ⟨.notServing, .service⟩)] }
        defaultHttpPaths "2026-01-01T00:00:00.000Z"
        { url := some "/healthz?service=acme.v1.InventoryService" } = some response ∧
      Agrees response (check { entries := [("acme.v1.InventoryService", ⟨.serving, .service⟩),
        ("acme.v1.ScannerService", ⟨.notServing, .service⟩)] } "acme.v1.InventoryService")) :=
  (httpHealthHandler_agrees_iff (by decide) (by decide)).mpr (.inl (by decide))

/-- With an empty `Host` header an unknown service is healthy over HTTP. -/
theorem unknown_service_healthy_without_host :
    ∃ response, httpHealthHandler (fun _ host => host.all Char.isAlpha)
        { entries := [("acme.v1.InventoryService", ⟨.serving, .service⟩)] }
        defaultHttpPaths "2026-01-01T00:00:00.000Z"
        { url := some "/healthz?service=acme.v1.ScannerService", host := some "" } =
          some response ∧
      response.statusCode = 200 ∧ response.body.service = "overall" ∧
      check { entries := [("acme.v1.InventoryService", ⟨.serving, .service⟩)] }
        "acme.v1.ScannerService" =
          .error ⟨notFound, "Service 'acme.v1.ScannerService' not found"⟩ := by
  refine ⟨_, rfl, ?_, ?_, ?_⟩
  all_goals decide

end Connectum.Healthcheck
