import Connectum.Auth.GatewayAuthInterceptor
import Connectum.Auth.HeaderLegality

/-! A call between services behind a gateway: what the caller's interceptor writes, and what the
callee's makes of it. -/
namespace Connectum.Auth
open JsString

structure ClientGatewayInterceptorOptions where
  secret : JsString
  subject : JsString
  roles : Option (List JsString) := none

/-- `GATEWAY_SECRET_HEADER`. -/
def gatewaySecretHeader : HeaderName := ⟨js "x-gateway-secret", by decide⟩

namespace ClientGateway

/-- The roles that are sent: there are some, and their text is not too long. -/
def sentRoles (json : Json) (client : ClientGatewayInterceptorOptions) : Option (List JsString) :=
  client.roles.filter fun roles =>
    roles.length > 0 && (json.stringify (.array (roles.map .string))).length ≤ maxHeaderBytes

def writes (json : Json) (client : ClientGatewayInterceptorOptions) :
    List (HeaderName × JsString) :=
  [(gatewaySecretHeader, client.secret),
    (AuthHeader.subject.headerName, sanitizeHeaderValue client.subject 512)] ++
    (sentRoles json client).toList.map fun roles =>
      (AuthHeader.roles.headerName, json.stringify (.array (roles.map .string)))

end ClientGateway

/-- The headers of the outgoing request; `none` is a `TypeError`. -/
def createClientGatewayInterceptor (json : Json) (client : ClientGatewayInterceptorOptions)
    (headers : Headers) : Option Headers := headers.setEach (ClientGateway.writes json client)

namespace GatewayAuth

/-- The callee reads what the interceptor of the caller writes. -/
structure ReadsClient (options : GatewayAuthInterceptorOptions) : Prop where
  secret : HeaderName.ofJs options.trustSource.header = some gatewaySecretHeader
  subject : HeaderName.ofJs options.headerMapping.subject = some AuthHeader.subject.headerName
  roles : (truthy options.headerMapping.roles).bind HeaderName.ofJs =
    some AuthHeader.roles.headerName

/-- None of the configured names is a `TypeError`. -/
def ValidNames (options : GatewayAuthInterceptorOptions) : Prop :=
  ∀ s ∈ headersToStrip options, ∃ n, HeaderName.ofJs s = some n

/-- The roles that the callee gives: those that are sent, or else what is in the header that the
request came with. -/
def calleeRoles (json : Json) (client : ClientGatewayInterceptorOptions) (headers : Headers) :
    List JsString :=
  (ClientGateway.sentRoles json client).getD
    (parseRoles json (headers.get AuthHeader.roles.headerName))

variable {json : Json} {client : ClientGatewayInterceptorOptions} {headers out : Headers}
  {options : GatewayAuthInterceptorOptions} {req : Request} {fwd : Forwarded}
  {context : AuthContext}

theorem nodup_writes : ((ClientGateway.writes json client).map Prod.fst).Nodup := by
  unfold ClientGateway.writes
  cases ClientGateway.sentRoles json client with
  | none =>
    show [gatewaySecretHeader, AuthHeader.subject.headerName].Nodup
    decide
  | some roles =>
    show [gatewaySecretHeader, AuthHeader.subject.headerName, AuthHeader.roles.headerName].Nodup
    decide

theorem sentRoles_eq_some {roles : List JsString} :
    ClientGateway.sentRoles json client = some roles ↔ client.roles = some roles ∧
      0 < roles.length ∧ (json.stringify (.array (roles.map .string))).length ≤ maxHeaderBytes := by
  simp [ClientGateway.sentRoles, Option.filter_eq_some_iff]

/-- JSON that is written is not trimmed. -/
theorem normalizeValue_array (items : List JsonValue) :
    normalizeValue (JsonValue.array items).stringify = (JsonValue.array items).stringify := by
  apply normalizeValue_of_ends
  · intro c hc
    have hopen : c = unit '[' := by
      simpa [JsonValue.stringify, js, codeUnits, unit, eq_comm] using hc
    rw [hopen]
    decide
  · intro c hc
    have hclose : js "]" = [unit ']'] := rfl
    rw [JsonValue.stringify, hclose, List.getLast?_concat] at hc
    rw [← Option.some.inj hc]
    decide

/-- A header that is written holds the text, trimmed. -/
theorem get_written (hset : createClientGatewayInterceptor json client headers = some out)
    {n : HeaderName} {text : JsString} (hmem : (n, text) ∈ ClientGateway.writes json client) :
    out.get n = some (normalizeValue text) := by
  have hvalue := Headers.setEach_of_mem hset nodup_writes hmem
  cases hofJs : HeaderValue.ofJs text with
  | none =>
    have hfailed : createClientGatewayInterceptor json client headers = none :=
      Headers.setEach_eq_none.mpr ⟨_, hmem, hofJs⟩
    rw [hset] at hfailed
    cases hfailed
  | some value =>
    rw [Headers.get, hvalue, hofJs]
    exact congrArg some (HeaderValue.val_ofJs hofJs)

theorem get_secret (hset : createClientGatewayInterceptor json client headers = some out) :
    out.get gatewaySecretHeader = some (normalizeValue client.secret) :=
  get_written hset (by simp [ClientGateway.writes])

theorem get_subject (hset : createClientGatewayInterceptor json client headers = some out) :
    out.get AuthHeader.subject.headerName =
      some (normalizeValue (sanitizeHeaderValue client.subject 512)) :=
  get_written hset (by simp [ClientGateway.writes])

/-- Other headers stay, also that of the roles if none are sent. -/
theorem get_of_notMem (hset : createClientGatewayInterceptor json client headers = some out)
    {n : HeaderName} (hn : n ∉ (ClientGateway.writes json client).map Prod.fst) :
    out.get n = headers.get n := by
  rw [Headers.get, Headers.get, Headers.setEach_of_notMem hset hn]

/-- The roles arrive as they were sent. -/
theorem parseRoles_received (hjson : json.stringify = JsonValue.stringify)
    (hparse : ∀ roles, ClientGateway.sentRoles json client = some roles →
      json.parse (json.stringify (.array (roles.map .string))) =
        some (.array (roles.map .string)))
    (hset : createClientGatewayInterceptor json client headers = some out) :
    parseRoles json (out.get AuthHeader.roles.headerName) = calleeRoles json client headers := by
  unfold calleeRoles
  cases hsent : ClientGateway.sentRoles json client with
  | none =>
    have hn : AuthHeader.roles.headerName ∉ (ClientGateway.writes json client).map Prod.fst := by
      rw [ClientGateway.writes, hsent]
      show AuthHeader.roles.headerName ∉ [gatewaySecretHeader, AuthHeader.subject.headerName]
      decide
    rw [get_of_notMem hset hn, Option.getD_none]
  | some roles =>
    have hmem : (AuthHeader.roles.headerName, json.stringify (.array (roles.map .string))) ∈
        ClientGateway.writes json client := by
      simp [ClientGateway.writes, hsent]
    have hne : json.stringify (.array (roles.map .string)) ≠ [] := by
      rw [hjson]
      simp [JsonValue.stringify, js, codeUnits]
    rw [get_written hset hmem, hjson, normalizeValue_array, ← hjson, parseRoles,
      truthy_of_ne_nil hne, Option.getD_some]
    dsimp only
    rw [hparse roles hsent]
    show (roles.map JsonValue.string).filterMap JsonValue.string? = roles
    rw [List.filterMap_map]
    exact List.filterMap_some

/-- When the caller's request is sent at all. -/
theorem exists_createClientGatewayInterceptor_iff (hjson : json.stringify = JsonValue.stringify) :
    (∃ out, createClientGatewayInterceptor json client headers = some out) ↔
      Sendable client.secret ∧ Sendable (leading client.subject 512) ∧
        ∀ roles, ClientGateway.sentRoles json client = some roles →
          ∀ role ∈ roles, Narrow role := by
  have hroles (roles : List JsString) :
      HeaderValue.ofJs (json.stringify (.array (roles.map .string))) ≠ none ↔
        ∀ role ∈ roles, Narrow role := by
    rw [hjson, ofJs_ne_none_iff, sendable_stringify_iff, JsonValue.strings,
      JsonValue.itemStrings_map_string]
  rw [← Option.ne_none_iff_exists', createClientGatewayInterceptor, Ne, Headers.setEach_eq_none]
  simp only [not_exists, not_and]
  have hforall : (∀ write ∈ ClientGateway.writes json client,
        ¬ HeaderValue.ofJs write.2 = none) ↔
      HeaderValue.ofJs client.secret ≠ none ∧
        HeaderValue.ofJs (sanitizeHeaderValue client.subject 512) ≠ none ∧
        ∀ roles, ClientGateway.sentRoles json client = some roles →
          HeaderValue.ofJs (json.stringify (.array (roles.map .string))) ≠ none := by
    simp [ClientGateway.writes, or_imp, forall_and]
  rw [hforall, ofJs_ne_none_iff, ofJs_ne_none_iff]
  simp only [hroles]
  rfl

theorem verifyTrust_eq_ok_iff {n : HeaderName}
    (hn : HeaderName.ofJs options.trustSource.header = some n) :
    verifyTrust options headers = .ok () ↔ ∃ value, headers.get n = some value ∧ value ≠ [] ∧
      isTrusted value options.trustSource.expectedValues = true := by
  have hget : getHeader headers options.trustSource.header = .ok (headers.get n) :=
    getHeader_eq_ok.mpr ⟨n, hn, rfl⟩
  rw [verifyTrust, hget]
  dsimp only [bind, Except.bind]
  split
  next hnone =>
    refine iff_of_false (by simp) ?_
    rintro ⟨value, hvalue, hne, -⟩
    rw [truthy_eq_some.mpr ⟨hvalue, hne⟩] at hnone
    cases hnone
  next value hsome =>
    obtain ⟨hvalue, hne⟩ := truthy_eq_some.mp hsome
    simp [hvalue, hne]

/-- The fields of a context that the callee makes. -/
theorem authContext_fields {n : HeaderName}
    (hn : HeaderName.ofJs options.headerMapping.subject = some n)
    (hcontext : authContext json options headers = .ok context) :
    headers.get n = some context.subject ∧ context.subject ≠ [] ∧
      context.roles = parseRoles json (mappedValue headers options.headerMapping.roles) := by
  simp only [authContext, bind_ok_iff] at hcontext
  obtain ⟨subject, hsubject, hcontext⟩ := hcontext
  obtain ⟨m, hm, rfl⟩ := getHeader_eq_ok.mp hsubject
  obtain rfl := Option.some.inj (hn.symm.trans hm)
  split at hcontext
  next => simp at hcontext
  next subject htruthy =>
    simp only [bind_ok_iff] at hcontext
    obtain ⟨name, -, type, -, roles, hroles, scopes, -, claims, -, hcontext⟩ := hcontext
    obtain rfl := Except.ok.inj hcontext
    obtain ⟨hget, hne⟩ := truthy_eq_some.mp htruthy
    exact ⟨hget, hne, by rw [mappedValue_of_getMapped hroles]⟩

theorem exists_getMapped (hvalid : ValidNames options) {mapped : Option JsString}
    (hmapped : ∀ s, truthy mapped = some s → s ∈ gatewayHeaders options) :
    ∃ value, getMapped headers mapped = .ok value := by
  unfold getMapped
  cases hs : truthy mapped with
  | none => exact ⟨none, rfl⟩
  | some s =>
    obtain ⟨n, hn⟩ := hvalid s (List.mem_append_left _ (hmapped s hs))
    exact ⟨headers.get n, getHeader_eq_ok.mpr ⟨n, hn, rfl⟩⟩

/-- Under valid names only an empty subject is refused. -/
theorem exists_authContext_iff (hvalid : ValidNames options) {n : HeaderName}
    (hn : HeaderName.ofJs options.headerMapping.subject = some n) :
    (∃ context, authContext json options headers = .ok context) ↔
      ∃ subject, headers.get n = some subject ∧ subject ≠ [] := by
  constructor
  · rintro ⟨context, hcontext⟩
    obtain ⟨hget, hne, -⟩ := authContext_fields hn hcontext
    exact ⟨context.subject, hget, hne⟩
  · rintro ⟨subject, hget, hne⟩
    have hmapped (mapped : Option JsString) (hmem : mapped ∈ [options.headerMapping.name,
        options.headerMapping.roles, options.headerMapping.scopes, options.headerMapping.type,
        options.headerMapping.claims]) : ∃ value, getMapped headers mapped = .ok value := by
      apply exists_getMapped hvalid
      intro s hs
      refine List.mem_filterMap.mpr ⟨mapped, ?_, hs⟩
      exact List.mem_cons_of_mem _ (List.mem_append_left [some options.trustSource.header] hmem)
    obtain ⟨name, hname⟩ := hmapped options.headerMapping.name (by simp)
    obtain ⟨type, htype⟩ := hmapped options.headerMapping.type (by simp)
    obtain ⟨roles, hroles⟩ := hmapped options.headerMapping.roles (by simp)
    obtain ⟨scopes, hscopes⟩ := hmapped options.headerMapping.scopes (by simp)
    obtain ⟨claims, hclaims⟩ := hmapped options.headerMapping.claims (by simp)
    have hsubject : getHeader headers options.headerMapping.subject = .ok (some subject) :=
      getHeader_eq_ok.mpr ⟨n, hn, hget⟩
    simp [authContext, bind, Except.bind, hsubject, truthy_of_ne_nil hne, hname, htype, hroles,
      hscopes, hclaims, pure, Except.pure]

theorem exists_deleteEach {names : List JsString}
    (h : ∀ s ∈ names, ∃ n, HeaderName.ofJs s = some n) (headers : Headers) :
    ∃ out, headers.deleteEach names = some out := by
  induction names generalizing headers with
  | nil => exact ⟨headers, rfl⟩
  | cons s names ih =>
    obtain ⟨⟨n, hn⟩, hnames⟩ := List.forall_mem_cons.mp h
    obtain ⟨out, hout⟩ := ih hnames (headers.delete n)
    exact ⟨out, Headers.deleteEach_cons.mpr ⟨n, hn, hout⟩⟩

/-- What an accepted request has passed. -/
theorem intercept_accepted (hskip : req.skipped options.skipMethods = false)
    (hfwd : intercept json options req = .ok fwd) :
    verifyTrust options req.header = .ok () ∧
      ∃ context stripped, authContext json options req.header = .ok context ∧
        fwd.stored = some context ∧
        req.header.deleteEach (headersToStrip options) = some stripped ∧
        (fwd.header = stripped ∨ setAuthHeaders json stripped context none = some fwd.header) := by
  simp only [intercept, hskip, Bool.false_eq_true, if_false, stripGatewayHeaders, bind_ok_iff,
    orTypeError_eq_ok] at hfwd
  obtain ⟨⟨⟩, htrust, context, hcontext, stripped, hstrip, hfwd⟩ := hfwd
  split at hfwd
  next =>
    simp only [bind_ok_iff, orTypeError_eq_ok] at hfwd
    obtain ⟨header, hset, hfwd⟩ := hfwd
    obtain rfl := Except.ok.inj hfwd
    exact ⟨htrust, context, stripped, hcontext, rfl, hstrip, .inr hset⟩
  next =>
    obtain rfl := Except.ok.inj hfwd
    exact ⟨htrust, context, stripped, hcontext, rfl, hstrip, .inl rfl⟩

theorem exists_intercept_iff (hskip : req.skipped options.skipMethods = false) :
    (∃ fwd, intercept json options req = .ok fwd) ↔
      verifyTrust options req.header = .ok () ∧
        ∃ context, authContext json options req.header = .ok context ∧
        ∃ stripped, req.header.deleteEach (headersToStrip options) = some stripped ∧
          (options.propagateHeaders = true →
            (setAuthHeaders json stripped context none).isSome = true) := by
  constructor
  · intro ⟨fwd, hfwd⟩
    cases hpropagate : options.propagateHeaders with
    | false =>
      obtain ⟨htrust, context, stripped, hcontext, -, hstrip, -⟩ := intercept_accepted hskip hfwd
      exact ⟨htrust, context, hcontext, stripped, hstrip, by simp⟩
    | true =>
      obtain ⟨htrust, context, hcontext, stripped, hstrip, hset, -⟩ :=
        (intercept_propagated hskip hpropagate).mp hfwd
      exact ⟨htrust, context, hcontext, stripped, hstrip, by simp [hset]⟩
  · intro ⟨htrust, context, hcontext, stripped, hstrip, hset⟩
    cases hpropagate : options.propagateHeaders with
    | false =>
      exact ⟨⟨stripped, some context⟩, by
        simp [intercept, hskip, htrust, hcontext, stripGatewayHeaders, hstrip, hpropagate,
          orTypeError, bind, Except.bind, pure, Except.pure]⟩
    | true =>
      obtain ⟨out, hset⟩ := Option.isSome_iff_exists.mp (hset hpropagate)
      exact ⟨⟨out, some context⟩, (intercept_propagated hskip hpropagate).mpr
        ⟨htrust, context, hcontext, stripped, hstrip, hset, rfl⟩⟩

/-- The secret does not leave the interceptor. -/
theorem gatewaySecret_removed
    (hsecret : HeaderName.ofJs options.trustSource.header = some gatewaySecretHeader)
    (hskip : req.skipped options.skipMethods = false)
    (hfwd : intercept json options req = .ok fwd) : fwd.header gatewaySecretHeader = none := by
  obtain ⟨-, context, stripped, -, -, hstrip, hheader⟩ := intercept_accepted hskip hfwd
  have hne : options.trustSource.header ≠ [] := by
    intro hnil
    rw [hnil] at hsecret
    simp [HeaderName.ofJs, isHeaderName] at hsecret
  have hmem : options.trustSource.header ∈ headersToStrip options := by
    simp [headersToStrip, gatewayHeaders, truthy_eq_some, hne]
  have hnone : stripped gatewaySecretHeader = none :=
    Headers.deleteEach_of_mem hstrip hmem hsecret
  rcases hheader with hheader | hset
  · rw [hheader, hnone]
  · rw [Headers.setEach_of_notMem hset, hnone]
    intro hwritten
    obtain ⟨write, hwrite, hname⟩ := List.mem_map.mp hwritten
    simp only [authWrites, List.mem_filterMap, Option.map_eq_some_iff] at hwrite
    obtain ⟨h, -, text, -, rfl⟩ := hwrite
    have hother : h.headerName ≠ gatewaySecretHeader := by cases h <;> decide
    exact hother hname

def orderService : ClientGatewayInterceptorOptions where
  secret := js "s3cret "
  subject := js "order-service"
  roles := some [js "service"]

/-- `JSON`, as far as the call below parses. -/
def serviceJson : Json where
  parse text := if text = js "[\"service\"]" then some (.array [.string (js "service")]) else none
  stringify := JsonValue.stringify

def meshGateway : GatewayAuthInterceptorOptions where
  headerMapping := { subject := js "X-Auth-Subject", roles := some (js "x-auth-roles") }
  trustSource := ⟨js "x-gateway-secret", [js "s3cret"]⟩

def ordersRequest : Option Request :=
  (createClientGatewayInterceptor serviceJson orderService fun _ => none).map fun header =>
    ⟨js "user.v1.UserService", js "GetUser", header⟩

end GatewayAuth
end Connectum.Auth
