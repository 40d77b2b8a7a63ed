import Connectum.Auth.Interceptor
import Connectum.Auth.TrustSource
import Mathlib.Data.Set.Function

/-! The gateway authentication interceptor, and when its identity headers can be forged. -/
namespace Connectum.Auth
open JsString

structure GatewayHeaderMapping where
  subject : JsString
  name : Option JsString := none
  roles : Option JsString := none
  scopes : Option JsString := none
  type : Option JsString := none
  claims : Option JsString := none

structure TrustSource where
  header : JsString
  expectedValues : List JsString

structure GatewayAuthInterceptorOptions where
  headerMapping : GatewayHeaderMapping
  trustSource : TrustSource
  stripHeaders : List JsString := []
  skipMethods : List JsString := []
  propagateHeaders : Bool := false
  defaultType : JsString := js "gateway"

namespace GatewayAuth

/-- The headers that the gateway is trusted for. -/
def gatewayHeaders (options : GatewayAuthInterceptorOptions) : List JsString :=
  let mapping := options.headerMapping
  [some mapping.subject, mapping.name, mapping.roles, mapping.scopes, mapping.type,
    mapping.claims, some options.trustSource.header].filterMap truthy

def headersToStrip (options : GatewayAuthInterceptorOptions) : List JsString :=
  gatewayHeaders options ++ (options.stripHeaders.map some).filterMap truthy

def stripGatewayHeaders (options : GatewayAuthInterceptorOptions) (headers : Headers) :
    Except Failure Headers :=
  orTypeError (headers.deleteEach (headersToStrip options))

/-- `headers.get`. -/
def getHeader (headers : Headers) (name : JsString) : Except Failure (Option JsString) :=
  orTypeError ((HeaderName.ofJs name).map headers.get)

/-- The value of an optional mapped header. -/
def getMapped (headers : Headers) (mapped : Option JsString) :
    Except Failure (Option JsString) :=
  match truthy mapped with
  | some name => getHeader headers name
  | none => .ok none

/-- A JSON array, or a comma-separated list where that is no JSON. -/
def parseRoles (json : Json) (rolesRaw : Option JsString) : List JsString :=
  match truthy rolesRaw with
  | none => []
  | some raw =>
    match json.parse raw with
    | some parsed => parsed.stringItems
    | none => ((raw.splitOn (unit ',')).map trim).filter (· ≠ [])

def parseScopes (scopesRaw : Option JsString) : List JsString :=
  match truthy scopesRaw with
  | none => []
  | some raw => splitScopes raw

def verifyTrust (options : GatewayAuthInterceptorOptions) (headers : Headers) :
    Except Failure Unit := do
  let trustHeaderValue ← getHeader headers options.trustSource.header
  match truthy trustHeaderValue with
  | none => .error (.connectError .unauthenticated "Untrusted request source")
  | some value =>
    if isTrusted value options.trustSource.expectedValues then .ok ()
    else .error (.connectError .unauthenticated "Untrusted request source")

def authContext (json : Json) (options : GatewayAuthInterceptorOptions) (headers : Headers) :
    Except Failure AuthContext := do
  let mapping := options.headerMapping
  let subject ← getHeader headers mapping.subject
  match truthy subject with
  | none => .error (.connectError .unauthenticated "Missing subject header from gateway")
  | some subject =>
    let name ← getMapped headers mapping.name
    let type ← getMapped headers mapping.type
    let rolesRaw ← getMapped headers mapping.roles
    let scopesRaw ← getMapped headers mapping.scopes
    let claimsRaw ← getMapped headers mapping.claims
    return {
      subject, name
      roles := parseRoles json rolesRaw
      scopes := parseScopes scopesRaw
      claims := parseClaims json claimsRaw
      type := type.getD options.defaultType }

def intercept (json : Json) (options : GatewayAuthInterceptorOptions) : Interceptor := fun req => do
  if req.skipped options.skipMethods then
    let header ← stripGatewayHeaders options req.header
    return ⟨header, none⟩
  else
    verifyTrust options req.header
    let context ← authContext json options req.header
    let header ← stripGatewayHeaders options req.header
    if options.propagateHeaders then
      let header ← orTypeError (setAuthHeaders json header context none)
      return ⟨header, some context⟩
    else
      return ⟨header, some context⟩

/-- The names of the headers that the gateway is trusted for. -/
def gatewayNames (options : GatewayAuthInterceptorOptions) : Set HeaderName :=
  { n | ∃ s ∈ gatewayHeaders options, HeaderName.ofJs s = some n }

/-- The interceptor deletes the header before it writes its own. -/
def Stripped (options : GatewayAuthInterceptorOptions) (h : AuthHeader) : Prop :=
  ∃ s ∈ headersToStrip options, HeaderName.ofJs s = some h.headerName

instance (options : GatewayAuthInterceptorOptions) (h : AuthHeader) :
    Decidable (Stripped options h) :=
  inferInstanceAs (Decidable (∃ s ∈ headersToStrip options, _))

/-- The value of an optional mapped header of an accepted request. -/
def mappedValue (headers : Headers) (mapped : Option JsString) : Option JsString :=
  (truthy mapped).bind fun name => (HeaderName.ofJs name).bind headers.get

/-- The gateway supplies the field of the header, in a form that `setAuthHeaders` writes. -/
def Supplied (json : Json) (options : GatewayAuthInterceptorOptions) (headers : Headers) :
    AuthHeader → Prop
  | .subject | .type => True
  | .name => ∃ name, mappedValue headers options.headerMapping.name = some name ∧ name ≠ []
  | .roles =>
    let roles := parseRoles json (mappedValue headers options.headerMapping.roles)
    roles ≠ [] ∧ (json.stringify (.array (roles.map .string))).length ≤ maxHeaderBytes
  | .scopes =>
    let scopes := parseScopes (mappedValue headers options.headerMapping.scopes)
    scopes ≠ [] ∧ ((js " ").intercalate scopes).length ≤ maxHeaderBytes
  | .claims =>
    let claims := parseClaims json (mappedValue headers options.headerMapping.claims)
    claims ≠ [] ∧ (json.stringify (.object claims)).length ≤ maxHeaderBytes

/-- The interceptor deletes or overwrites the header. A request to a method of `skipMethods` has
no context to write. -/
def Covered (json : Json) (options : GatewayAuthInterceptorOptions) (req : Request)
    (h : AuthHeader) : Prop :=
  Stripped options h ∨
    (req.skipped options.skipMethods = false ∧ Supplied json options req.header h)

/-- The requests carry the same trust header and the same mapped headers. -/
structure SameGateway (options : GatewayAuthInterceptorOptions) (req req' : Request) : Prop where
  skipped : req'.skipped options.skipMethods = req.skipped options.skipMethods
  header : Set.EqOn req'.header req.header (gatewayNames options)

/-- Nothing but the gateway's headers shows in the context stored, in the identity headers passed
on, or in the context that these are parsed to. -/
def Unforgeable (json : Json) (options : GatewayAuthInterceptorOptions) (intercept : Interceptor)
    (req : Request) (fwd : Forwarded) : Prop :=
  ∀ req' fwd', SameGateway options req req' → intercept req' = .ok fwd' →
    fwd'.stored = fwd.stored ∧
    parseAuthHeaders json fwd'.header = parseAuthHeaders json fwd.header ∧
    ∀ h : AuthHeader, fwd'.header h.headerName = fwd.header h.headerName

variable {json : Json} {options : GatewayAuthInterceptorOptions} {headers headers' out : Headers}
  {req req' : Request} {fwd fwd' : Forwarded} {context : AuthContext} {h : AuthHeader}

theorem getHeader_eq_ok {name : JsString} {value : Option JsString} :
    getHeader headers name = .ok value ↔
      ∃ n, HeaderName.ofJs name = some n ∧ headers.get n = value := by
  simp [getHeader]

theorem mappedValue_of_getMapped {mapped value : Option JsString}
    (h : getMapped headers mapped = .ok value) : value = mappedValue headers mapped := by
  simp only [getMapped] at h
  simp only [mappedValue]
  split at h
  next name hname =>
    obtain ⟨n, hn, rfl⟩ := getHeader_eq_ok.mp h
    simp [hname, hn]
  next hnone =>
    obtain rfl := Except.ok.inj h
    simp [hnone]

theorem getHeader_congr (hsame : Set.EqOn headers' headers (gatewayNames options)) {name : JsString}
    (hname : name ≠ [] → name ∈ gatewayHeaders options) :
    getHeader headers' name = getHeader headers name := by
  simp only [getHeader]
  cases hn : HeaderName.ofJs name with
  | none => rfl
  | some n =>
    have hne : name ≠ [] := by
      rintro rfl
      simp [HeaderName.ofJs, isHeaderName] at hn
    have hvalue : headers' n = headers n := hsame ⟨name, hname hne, hn⟩
    simp only [Option.map_some, Headers.get, hvalue]

theorem getMapped_congr (hsame : Set.EqOn headers' headers (gatewayNames options))
    {mapped : Option JsString}
    (hmapped : ∀ s, truthy mapped = some s → s ∈ gatewayHeaders options) :
    getMapped headers' mapped = getMapped headers mapped := by
  simp only [getMapped]
  cases hs : truthy mapped with
  | none => rfl
  | some s => exact getHeader_congr hsame fun _ => hmapped s hs

theorem verifyTrust_congr (hsame : Set.EqOn headers' headers (gatewayNames options)) :
    verifyTrust options headers' = verifyTrust options headers := by
  simp only [verifyTrust]
  rw [getHeader_congr hsame]
  intro hne
  simp [gatewayHeaders, truthy_eq_some, hne]

/-- The context is made from the gateway's headers only. -/
theorem authContext_congr (hsame : Set.EqOn headers' headers (gatewayNames options)) :
    authContext json options headers' = authContext json options headers := by
  have hmapped (mapped : Option JsString) (hmem : mapped ∈ [options.headerMapping.name,
      options.headerMapping.roles, options.headerMapping.scopes, options.headerMapping.type,
      options.headerMapping.claims]) : getMapped headers' mapped = getMapped headers mapped := by
    apply getMapped_congr hsame
    intro s hs
    refine List.mem_filterMap.mpr ⟨mapped, ?_, hs⟩
    exact List.mem_cons_of_mem _ (List.mem_append_left [some options.trustSource.header] hmem)
  simp only [authContext]
  rw [getHeader_congr hsame, hmapped _ (by simp), hmapped _ (by simp), hmapped _ (by simp),
    hmapped _ (by simp), hmapped _ (by simp)]
  intro hne
  simp [gatewayHeaders, truthy_eq_some, hne]

theorem intercept_skipped (hskip : req.skipped options.skipMethods = true) :
    intercept json options req = .ok fwd ↔
      req.header.deleteEach (headersToStrip options) = some fwd.header ∧ fwd.stored = none := by
  simp only [intercept, hskip, if_true, stripGatewayHeaders, bind_ok_iff, orTypeError_eq_ok, pure,
    Except.pure, Except.ok.injEq]
  constructor
  · rintro ⟨header, hstrip, rfl⟩
    exact ⟨hstrip, rfl⟩
  · rintro ⟨hstrip, hstored⟩
    exact ⟨fwd.header, hstrip, by rw [← hstored]⟩

theorem intercept_propagated (hskip : req.skipped options.skipMethods = false)
    (hpropagate : options.propagateHeaders = true) :
    intercept json options req = .ok fwd ↔
      verifyTrust options req.header = .ok () ∧
      ∃ context, authContext json options req.header = .ok context ∧
      ∃ header, req.header.deleteEach (headersToStrip options) = some header ∧
        setAuthHeaders json header context none = some fwd.header ∧ fwd.stored = some context := by
  simp only [intercept, hskip, Bool.false_eq_true, if_false, hpropagate, if_true,
    stripGatewayHeaders, bind_ok_iff, orTypeError_eq_ok, pure, Except.pure, Except.ok.injEq]
  constructor
  · rintro ⟨⟨⟩, htrust, context, hcontext, header, hstrip, out, hset, rfl⟩
    exact ⟨htrust, context, hcontext, header, hstrip, hset, rfl⟩
  · rintro ⟨htrust, context, hcontext, header, hstrip, hset, hstored⟩
    exact ⟨(), htrust, context, hcontext, header, hstrip, fwd.header, hset, by rw [← hstored]⟩

/-- Of the gateway's context, the supplied fields are written. -/
theorem headerText_isSome_iff (hcontext : authContext json options headers = .ok context)
    (h : AuthHeader) :
    (headerText json context none h).isSome = true ↔ Supplied json options headers h := by
  simp only [authContext, bind_ok_iff] at hcontext
  obtain ⟨subject, -, hcontext⟩ := hcontext
  split at hcontext
  next => simp at hcontext
  next subject _ =>
    simp only [bind_ok_iff] at hcontext
    obtain ⟨name, hname, type, -, roles, hroles, scopes, hscopes, claims, hclaims, hcontext⟩ :=
      hcontext
    obtain rfl := Except.ok.inj hcontext
    obtain rfl := mappedValue_of_getMapped hname
    obtain rfl := mappedValue_of_getMapped hroles
    obtain rfl := mappedValue_of_getMapped hscopes
    obtain rfl := mappedValue_of_getMapped hclaims
    cases h with
    | subject | type => simp [headerText, Supplied]
    | name => simp [headerText, Supplied, Option.isSome_iff_exists, truthy_eq_some]
    | roles | scopes =>
      simp only [headerText, Supplied]
      split
      next hnil => simp [hnil]
      next hne => simp [hne, limited_isSome]
    | claims =>
      simp only [headerText, Supplied, propagated, List.isEmpty_iff]
      split
      next hnil => simp [hnil]
      next hne => simp [hne, limited_isSome]

theorem strip_apply (hstrip : headers.deleteEach (headersToStrip options) = some out)
    (h : AuthHeader) :
    out h.headerName = if Stripped options h then none else headers h.headerName := by
  split
  next hstripped =>
    obtain ⟨s, hs, hn⟩ := hstripped
    exact Headers.deleteEach_of_mem hstrip hs hn
  next hstripped =>
    exact Headers.deleteEach_of_notMem hstrip fun s hs hn => hstripped ⟨s, hs, hn⟩

/-- The identity headers passed on: written from the stored context, else deleted, else what the
client sent. -/
theorem intercept_header (hpropagate : options.propagateHeaders = true)
    (hfwd : intercept json options req = .ok fwd) (h : AuthHeader) :
    fwd.header h.headerName =
      match fwd.stored.bind fun context => headerText json context none h with
      | some text => HeaderValue.ofJs text
      | none => if Stripped options h then none else req.header h.headerName := by
  cases hskip : req.skipped options.skipMethods with
  | true =>
    obtain ⟨hstrip, hstored⟩ := (intercept_skipped hskip).mp hfwd
    rw [hstored]
    exact strip_apply hstrip h
  | false =>
    obtain ⟨-, context, -, header, hstrip, hset, hstored⟩ :=
      (intercept_propagated hskip hpropagate).mp hfwd
    rw [hstored, setAuthHeaders_apply hset h, strip_apply hstrip h]
    rfl

/-- A request with the same gateway headers is accepted too, and under the same context. -/
theorem exists_forwarded (hpropagate : options.propagateHeaders = true)
    (hsame : SameGateway options req req') (hfwd : intercept json options req = .ok fwd) :
    ∃ fwd', intercept json options req' = .ok fwd' ∧ fwd'.stored = fwd.stored := by
  cases hskip : req.skipped options.skipMethods with
  | true =>
    obtain ⟨hstrip, hstored⟩ := (intercept_skipped hskip).mp hfwd
    obtain ⟨header, hstrip⟩ := Headers.deleteEach_of_deleteEach req'.header hstrip
    exact ⟨⟨header, none⟩, (intercept_skipped (hsame.skipped.trans hskip)).mpr ⟨hstrip, rfl⟩,
      hstored.symm⟩
  | false =>
    obtain ⟨htrust, context, hcontext, header, hstrip, hset, hstored⟩ :=
      (intercept_propagated hskip hpropagate).mp hfwd
    obtain ⟨header', hstrip'⟩ := Headers.deleteEach_of_deleteEach req'.header hstrip
    obtain ⟨out, hset'⟩ := Headers.setEach_of_setEach header' hset
    refine ⟨⟨out, some context⟩, ?_, hstored.symm⟩
    rw [intercept_propagated (hsame.skipped.trans hskip) hpropagate, verifyTrust_congr hsame.header,
      authContext_congr hsame.header]
    exact ⟨htrust, context, hcontext, header', hstrip', hset', rfl⟩

theorem covered_iff (hpropagate : options.propagateHeaders = true)
    (hfwd : intercept json options req = .ok fwd) (h : AuthHeader) :
    Covered json options req h ↔ Stripped options h ∨
      (fwd.stored.bind fun context => headerText json context none h).isSome = true := by
  cases hskip : req.skipped options.skipMethods with
  | true =>
    obtain ⟨-, hstored⟩ := (intercept_skipped hskip).mp hfwd
    simp [Covered, hskip, hstored]
  | false =>
    obtain ⟨-, context, hcontext, -, -, -, hstored⟩ :=
      (intercept_propagated hskip hpropagate).mp hfwd
    simp [Covered, hskip, hstored, headerText_isSome_iff hcontext]

/-- What the client sends in a header that is not stripped does not change the gateway's. -/
theorem sameGateway_update (hstripped : ¬ Stripped options h) (value : Option HeaderValue) :
    SameGateway options req
      { req with header := Function.update req.header h.headerName value } := by
  refine ⟨rfl, fun n hn => Function.update_of_ne ?_ ..⟩
  rintro rfl
  obtain ⟨s, hs, hname⟩ := hn
  exact hstripped ⟨s, List.mem_append_left _ hs, hname⟩

end GatewayAuth

/-- Fail-closed on options without a subject mapping or without expected values. -/
def createGatewayAuthInterceptor (json : Json) (options : GatewayAuthInterceptorOptions) :
    Except String Interceptor :=
  if options.headerMapping.subject = [] then
    .error "@connectum/auth: Gateway auth requires headerMapping.subject"
  else if options.trustSource.expectedValues = [] then
    .error "@connectum/auth: Gateway auth requires non-empty trustSource.expectedValues"
  else .ok (GatewayAuth.intercept json options)

namespace GatewayAuth
variable {json : Json} {options : GatewayAuthInterceptorOptions} {req : Request} {fwd : Forwarded}

theorem intercept_of_create {interceptor : Interceptor}
    (hcreate : createGatewayAuthInterceptor json options = .ok interceptor) :
    interceptor = intercept json options := by
  simp only [createGatewayAuthInterceptor] at hcreate
  split at hcreate
  next => simp at hcreate
  next =>
    split at hcreate
    next => simp at hcreate
    next => exact (Except.ok.inj hcreate).symm

/-- The identity that an accepted request is given depends on the gateway's headers only if and
only if each identity header is stripped or supplied by the gateway. -/
theorem unforgeable_iff_covered {interceptor : Interceptor}
    (hcreate : createGatewayAuthInterceptor json options = .ok interceptor)
    (hpropagate : options.propagateHeaders = true) (hfwd : interceptor req = .ok fwd) :
    Unforgeable json options interceptor req fwd ↔ ∀ h, Covered json options req h := by
  obtain rfl := intercept_of_create hcreate
  constructor
  · intro hunforgeable h
    by_contra hcovered
    rw [covered_iff hpropagate hfwd, not_or, Option.not_isSome_iff_eq_none] at hcovered
    obtain ⟨hstripped, hwritten⟩ := hcovered
    -- the client changes the header from present to absent or back
    let forged : Option HeaderValue :=
      if req.header h.headerName = none then some ⟨js "forged", by decide⟩ else none
    have hforged : forged ≠ req.header h.headerName := by
      by_cases habsent : req.header h.headerName = none
      · simp [forged, habsent]
      · simp [forged, habsent, Ne.symm habsent]
    have hsame : SameGateway options req _ := sameGateway_update hstripped forged
    obtain ⟨fwd', hfwd', hstored⟩ := exists_forwarded hpropagate hsame hfwd
    have hpassed := (hunforgeable _ fwd' hsame hfwd').2.2 h
    rw [intercept_header hpropagate hfwd h, intercept_header hpropagate hfwd' h, hstored,
      hwritten] at hpassed
    simp only [hstripped, if_false, Function.update_self] at hpassed
    exact hforged hpassed
  · intro hcovered req' fwd' hsame hfwd'
    obtain ⟨fwd'', hfwd'', hstored⟩ := exists_forwarded hpropagate hsame hfwd
    obtain rfl := Except.ok.inj (hfwd'.symm.trans hfwd'')
    have hheaders (h : AuthHeader) : fwd'.header h.headerName = fwd.header h.headerName := by
      rw [intercept_header hpropagate hfwd h, intercept_header hpropagate hfwd' h, hstored]
      rcases (covered_iff hpropagate hfwd h).mp (hcovered h) with hstripped | hwritten
      · simp only [hstripped, if_true]
      · obtain ⟨text, htext⟩ := Option.isSome_iff_exists.mp hwritten
        simp only [htext]
    exact ⟨hstored, parseAuthHeaders_congr hheaders, hheaders⟩

/-- A gateway that sends the subject and possibly roles. -/
def userGateway (stripHeaders : List JsString) : GatewayAuthInterceptorOptions where
  headerMapping := { subject := js "x-user-id", roles := some (js "x-user-roles") }
  trustSource := ⟨js "x-gateway-secret", [js "s3cret"]⟩
  stripHeaders := stripHeaders
  propagateHeaders := true

/-- The text of the only JSON value that the requests below contain. -/
def adminJson : Json where
  parse text := if text = js "[\"admin\"]" then some (.array [.string (js "admin")]) else none
  stringify _ := js "[\"admin\"]"

def userRequest (header : List (JsString × HeaderValue)) : Request :=
  ⟨js "user.v1.UserService", js "GetUser", fun n => header.lookup n.val⟩

def userHeaders : List (JsString × HeaderValue) :=
  [(js "x-gateway-secret", ⟨js "s3cret", by decide⟩), (js "x-user-id", ⟨js "alice", by decide⟩)]

def adminValue : HeaderValue := ⟨js "[\"admin\"]", by decide⟩

def strippingGateway : GatewayAuthInterceptorOptions :=
  userGateway [js "X-Auth-Name", js "X-Auth-Scopes", js "X-Auth-Claims"]

theorem unforgeable_iff_covered_admin :
    ∃ fwd, intercept adminJson strippingGateway
        (userRequest ((js "x-user-roles", adminValue) :: userHeaders)) = .ok fwd ∧
      Unforgeable adminJson strippingGateway (intercept adminJson strippingGateway)
        (userRequest ((js "x-user-roles", adminValue) :: userHeaders)) fwd := by
  refine ⟨_, rfl, (unforgeable_iff_covered rfl rfl rfl).mpr ?_⟩
  intro h
  cases h with
  | subject | type => exact .inr ⟨by decide, trivial⟩
  | roles => exact .inr ⟨by decide, by decide, by decide⟩
  | name | scopes | claims => exact .inl (by decide)

/-- The gateway sends no roles, and the roles that the client sends are passed on as its own. -/
theorem client_roles_survive :
    ¬ ∀ (json : Json) (options : GatewayAuthInterceptorOptions) (interceptor : Interceptor),
      createGatewayAuthInterceptor json options = .ok interceptor →
      options.propagateHeaders = true →
      ∀ (req req' : Request) (fwd fwd' : Forwarded), SameGateway options req req' →
        interceptor req = .ok fwd → interceptor req' = .ok fwd' →
        fwd'.stored = fwd.stored ∧
          parseAuthHeaders json fwd'.header = parseAuthHeaders json fwd.header := by
  intro h
  have hstripped : ¬ Stripped (userGateway []) .roles := by decide
  have hsame : SameGateway _ (userRequest userHeaders) _ :=
    sameGateway_update hstripped (some adminValue)
  have hroles := (h adminJson (userGateway []) _ rfl rfl _ _ _ _ hsame rfl rfl).2
  exact absurd (congrArg (Option.map AuthContext.roles) hroles) (by decide)

end GatewayAuth
end Connectum.Auth
