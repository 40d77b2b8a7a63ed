import Connectum.Headers
import Connectum.Json
import Mathlib.Data.List.Nodup

/-! The authentication context and its propagation in the `x-auth-*` headers. -/
namespace Connectum.Auth
open JsString

/-- `expiresAt` is in milliseconds since the epoch. -/
structure AuthContext where
  subject : JsString
  name : Option JsString
  roles : List JsString
  scopes : List JsString
  claims : List (JsString × JsonValue)
  type : JsString
  expiresAt : Option ℤ := none
  deriving Repr

/-- `AUTH_HEADERS`. -/
inductive AuthHeader where
  | subject
  | roles
  | scopes
  | claims
  | name
  | type
  deriving DecidableEq, Repr

def AuthHeader.headerName : AuthHeader → HeaderName
  | .subject => ⟨js "x-auth-subject", by decide⟩
  | .roles => ⟨js "x-auth-roles", by decide⟩
  | .scopes => ⟨js "x-auth-scopes", by decide⟩
  | .claims => ⟨js "x-auth-claims", by decide⟩
  | .name => ⟨js "x-auth-name", by decide⟩
  | .type => ⟨js "x-auth-type", by decide⟩

/-- `Object.values(AUTH_HEADERS)`. -/
def AuthHeader.values : List AuthHeader := [.subject, .roles, .scopes, .claims, .name, .type]

/-- The loop that deletes every `x-auth-*` header. -/
def stripAuthHeaders (headers : Headers) : Headers :=
  AuthHeader.values.foldl (fun headers h => headers.delete h.headerName) headers

theorem AuthHeader.headerName_injective : Function.Injective headerName := by
  intro h h' heq
  cases h <;> cases h' <;> first | rfl | exact absurd heq (by decide)

/-- The maximum length of a header value. -/
def maxHeaderBytes : ℕ := 8192

/-- The control characters other than tab, LF and CR. -/
def isRemovedControl (c : UInt16) : Bool :=
  c ≤ 0x08 || c == 0x0B || c == 0x0C || (0x0E ≤ c && c ≤ 0x1F) || c == 0x7F

def sanitizeHeaderValue (value : JsString) (maxLength : ℕ) : JsString :=
  (value.filter fun c => !isRemovedControl c).take maxLength

/-- The value of a truthy string. -/
def truthy (value : Option JsString) : Option JsString := value.filter fun s => decide (s ≠ [])

theorem truthy_eq_some {value : Option JsString} {s : JsString} :
    truthy value = some s ↔ value = some s ∧ s ≠ [] := by
  simp [truthy, Option.filter_eq_some_iff]

def limited (value : JsString) : Option JsString :=
  if value.length ≤ maxHeaderBytes then some value else none

theorem limited_isSome {text : JsString} :
    (limited text).isSome = true ↔ text.length ≤ maxHeaderBytes := by
  simp [limited]

def propagated (context : AuthContext) :
    Option (List JsString) → List (JsString × JsonValue)
  | some propagatedClaims => context.claims.filter fun claim => decide (claim.1 ∈ propagatedClaims)
  | none => context.claims

/-- What `setAuthHeaders` passes to `headers.set` for a header, if it does. -/
def headerText (json : Json) (context : AuthContext) (propagatedClaims : Option (List JsString)) :
    AuthHeader → Option JsString
  | .subject => some (sanitizeHeaderValue context.subject 512)
  | .type => some (sanitizeHeaderValue context.type 128)
  | .name => (truthy context.name).map (sanitizeHeaderValue · 256)
  | .roles =>
    if context.roles = [] then none
    else limited (json.stringify (.array (context.roles.map .string)))
  | .scopes =>
    if context.scopes = [] then none else limited ((js " ").intercalate context.scopes)
  | .claims =>
    if context.claims.isEmpty then none
    else if (propagated context propagatedClaims).isEmpty then none
    else limited (json.stringify (.object (propagated context propagatedClaims)))

/-- The order in which `setAuthHeaders` writes. -/
def writeOrder : List AuthHeader := [.subject, .type, .name, .roles, .scopes, .claims]

def authWrites (json : Json) (context : AuthContext) (propagatedClaims : Option (List JsString)) :
    List (HeaderName × JsString) :=
  writeOrder.filterMap fun h =>
    (headerText json context propagatedClaims h).map fun text => (h.headerName, text)

/-- `none` is the `TypeError` of a `headers.set`. -/
def setAuthHeaders (json : Json) (headers : Headers) (context : AuthContext)
    (propagatedClaims : Option (List JsString)) : Option Headers :=
  headers.setEach (authWrites json context propagatedClaims)

/-- Roles, as `parseAuthHeaders` reads them. -/
def parseRoles (json : Json) (rolesRaw : Option JsString) : List JsString :=
  match (truthy rolesRaw).bind limited with
  | none => []
  | some raw => ((json.parse raw).map JsonValue.stringItems).getD []

/-- `split(" ").filter(Boolean)`. -/
def splitScopes (raw : JsString) : List JsString := (raw.splitOn (unit ' ')).filter (· ≠ [])

def parseScopes (scopesRaw : Option JsString) : List JsString :=
  match (truthy scopesRaw).bind limited with
  | none => []
  | some raw => splitScopes raw

def parseClaims (json : Json) (claimsRaw : Option JsString) : List (JsString × JsonValue) :=
  match (truthy claimsRaw).bind limited with
  | none => []
  | some raw => ((json.parse raw).map JsonValue.properties).getD []

def parseAuthHeaders (json : Json) (headers : Headers) : Option AuthContext :=
  (truthy (headers.get AuthHeader.subject.headerName)).map fun subjectHeader =>
    { subject := sanitizeHeaderValue subjectHeader 512
      name := (truthy (headers.get AuthHeader.name.headerName)).map (sanitizeHeaderValue · 256)
      type := match truthy (headers.get AuthHeader.type.headerName) with
        | some typeHeader => sanitizeHeaderValue typeHeader 128
        | none => js "unknown"
      roles := parseRoles json (headers.get AuthHeader.roles.headerName)
      scopes := parseScopes (headers.get AuthHeader.scopes.headerName)
      claims := parseClaims json (headers.get AuthHeader.claims.headerName) }

variable {json : Json} {headers headers' out : Headers} {context : AuthContext}
  {propagatedClaims : Option (List JsString)} {h : AuthHeader}

theorem mem_writeOrder (h : AuthHeader) : h ∈ writeOrder := by cases h <;> decide

theorem mem_authWrites {text : JsString} :
    (h.headerName, text) ∈ authWrites json context propagatedClaims ↔
      headerText json context propagatedClaims h = some text := by
  constructor
  · intro hmem
    obtain ⟨h', -, hwrite⟩ := List.mem_filterMap.mp hmem
    obtain ⟨text', htext, heq⟩ := Option.map_eq_some_iff.mp hwrite
    obtain ⟨hname, rfl⟩ := Prod.mk.inj heq
    rw [← AuthHeader.headerName_injective hname, htext]
  · intro htext
    exact List.mem_filterMap.mpr ⟨h, mem_writeOrder h, by rw [htext]; rfl⟩

theorem exists_of_mem_authWrites {write : HeaderName × JsString}
    (hmem : write ∈ authWrites json context propagatedClaims) :
    ∃ h, headerText json context propagatedClaims h = some write.2 := by
  obtain ⟨h, -, hwrite⟩ := List.mem_filterMap.mp hmem
  obtain ⟨text, htext, rfl⟩ := Option.map_eq_some_iff.mp hwrite
  exact ⟨h, htext⟩

theorem map_fst_filterMap_sublist {α β γ : Type*} (g : α → β) (f : α → Option γ) (l : List α) :
    ((l.filterMap fun a => (f a).map fun c => (g a, c)).map Prod.fst).Sublist (l.map g) := by
  induction l with
  | nil => exact .slnil
  | cons a l ih =>
    cases hf : f a with
    | none =>
      rw [List.filterMap_cons_none (by rw [hf]; rfl), List.map_cons]
      exact ih.cons _
    | some c =>
      rw [List.filterMap_cons_some (by rw [hf]; rfl), List.map_cons, List.map_cons]
      exact ih.cons_cons _

theorem authWrites_names_nodup (json : Json) (context : AuthContext)
    (propagatedClaims : Option (List JsString)) :
    ((authWrites json context propagatedClaims).map Prod.fst).Nodup := by
  have horder : (writeOrder.map AuthHeader.headerName).Nodup :=
    List.Nodup.map AuthHeader.headerName_injective (by decide)
  exact horder.sublist (map_fst_filterMap_sublist _ _ _)

/-- A header that is written has the value written, and the others are left as they were. -/
theorem setAuthHeaders_apply
    (hset : setAuthHeaders json headers context propagatedClaims = some out) (h : AuthHeader) :
    out h.headerName = match headerText json context propagatedClaims h with
      | some text => HeaderValue.ofJs text
      | none => headers h.headerName := by
  cases htext : headerText json context propagatedClaims h with
  | some text =>
    exact Headers.setEach_of_mem hset (authWrites_names_nodup ..) (mem_authWrites.mpr htext)
  | none =>
    apply Headers.setEach_of_notMem hset
    intro hmem
    obtain ⟨⟨n, text⟩, hwrite, rfl⟩ := List.mem_map.mp hmem
    exact absurd (mem_authWrites.mp hwrite) (by simp [htext])

theorem stripAuthHeaders_headerName : stripAuthHeaders headers h.headerName = none := by
  cases h <;> simp [stripAuthHeaders, AuthHeader.values, Headers.delete, Function.update_apply]

theorem stripAuthHeaders_of_ne {n : HeaderName} (hn : ∀ h : AuthHeader, n ≠ h.headerName) :
    stripAuthHeaders headers n = headers n := by
  simp [stripAuthHeaders, AuthHeader.values, Headers.delete_of_ne, hn]

/-- The parsed context depends on the identity headers only. -/
theorem parseAuthHeaders_congr
    (h : ∀ h : AuthHeader, headers h.headerName = headers' h.headerName) :
    parseAuthHeaders json headers = parseAuthHeaders json headers' := by
  simp only [parseAuthHeaders, Headers.get, h]

end Connectum.Auth
