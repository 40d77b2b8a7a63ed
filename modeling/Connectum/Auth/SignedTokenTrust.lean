import Connectum.Auth.Interceptor
import Connectum.JsNumber

/-! The trust source for signed service tokens, and what a stolen key can forge. -/
namespace Connectum.Auth
open JsString

abbrev Claims := List (JsString × JsonValue)

inductive MaxTokenAge where
  | seconds (value : ℚ)
  | text (value : JsString)

structure ClaimsMapping where
  subject : Option JsString := none
  name : Option JsString := none
  roles : Option JsString := none
  scopes : Option JsString := none

/-- A single audience is a list of one. -/
structure SignedTokenIssuer where
  jwksUri : JsString
  audience : Option (List JsString) := none
  algorithms : Option (List JsString) := none
  maxTokenAge : Option MaxTokenAge := none
  claimsMapping : Option ClaimsMapping := none

structure SignedTokenTrustOptions where
  issuers : List (JsString × SignedTokenIssuer)
  header : JsString := js "x-internal-token"
  type : JsString := js "service"

structure JwtVerifyOptions where
  issuer : JsString
  algorithms : List JsString
  audience : Option (List JsString)
  maxTokenAge : Option MaxTokenAge

/-- The functions of the token library; `none` is an exception. -/
structure Jose (Keyset : Type) where
  createRemoteJwkSet : JsString → Option Keyset
  decodeJwt : JsString → Option Claims
  jwtVerify : JsString → Keyset → JwtVerifyOptions → Option Claims

/-- The value at a path with dots. -/
def getNestedValue (claims : Claims) (path : JsString) : Option JsonValue :=
  (JsonValue.object claims).getNested (path.splitOn (unit '.'))

structure MappedClaims where
  name : Option JsString := none
  roles : List JsString := []
  scopes : List JsString := []
  subjectClaim : Option JsString := none

/-- The string at a path that is mapped. -/
def mappedString (claims : Claims) (path : Option JsString) : Option JsString :=
  (truthy path).bind fun path => (getNestedValue claims path).bind JsonValue.string?

/-- The scopes of the `scope` claim. -/
def defaultScopes (claims : Claims) : List JsString :=
  match (claims.lookup (js "scope")).bind JsonValue.string? with
  | some scope => splitScopes scope
  | none => []

def mappedScopes (claims : Claims) (path : JsString) : List JsString :=
  match getNestedValue claims path with
  | some (.string scopes) => splitScopes scopes
  | some value => value.stringItems
  | none => []

def mapTokenClaims (claims : Claims) : Option ClaimsMapping → MappedClaims
  | none => { scopes := defaultScopes claims }
  | some mapping =>
    { subjectClaim := mappedString claims mapping.subject
      name := mappedString claims mapping.name
      roles := match (truthy mapping.roles).bind (getNestedValue claims) with
        | some value => value.stringItems
        | none => []
      scopes := match truthy mapping.scopes with
        | some path => mappedScopes claims path
        | none => defaultScopes claims }

def stripBearer (value : JsString) : JsString :=
  let trimmed := value.trim
  if (trimmed.take 7).map toLower = js "bearer " then trim (trimmed.drop 7) else trimmed

/-- The context of a service. The subject is the claim as it stands, which need not be a string,
and `expiresAt` is the time value of the `Date`. -/
structure ServiceContext where
  subject : JsonValue
  name : Option JsString
  roles : List JsString
  scopes : List JsString
  claims : Claims
  type : JsString
  expiresAt : Option JsNumber

/-- `payload.exp`, which is a number if it is there and the token was accepted. -/
def tokenExpiresAt (claims : Claims) : Option JsNumber :=
  match claims.lookup (js "exp") with
  | some (.number bits) =>
    if JsNumber.ofBits bits = .finite 0 then none else some (JsNumber.ofBits bits).secondsToDate
  | _ => none

/-- `??`: neither `undefined` nor `null`. -/
def nonNullish : Option JsonValue → Option JsonValue
  | some .null => none
  | value => value

namespace SignedToken
variable {Keyset : Type} (jose : Jose Keyset) (options : SignedTokenTrustOptions)

def serviceContext (cfg : SignedTokenIssuer) (claimedIssuer : JsString) (payload : Claims) :
    ServiceContext :=
  let mapped := mapTokenClaims payload cfg.claimsMapping
  { subject := match mapped.subjectClaim with
      | some subject => .string subject
      | none => (nonNullish (payload.lookup (js "sub"))).getD (.string claimedIssuer)
    name := mapped.name
    roles := mapped.roles
    scopes := mapped.scopes
    claims := payload
    type := options.type
    expiresAt := tokenExpiresAt payload }

def verifyOptions (cfg : SignedTokenIssuer) (issuer : JsString) : JwtVerifyOptions :=
  ⟨issuer, cfg.algorithms.getD [js "RS256"], cfg.audience, cfg.maxTokenAge⟩

/-- One keyset for each issuer. -/
def createKeysets : List (JsString × SignedTokenIssuer) → Option (List (JsString × Keyset))
  | [] => some []
  | (issuer, cfg) :: issuers => do
    let keyset ← jose.createRemoteJwkSet cfg.jwksUri
    let keysets ← createKeysets issuers
    return (issuer, keyset) :: keysets

/-- The context that a header value is accepted with. -/
def accept (keysets : List (JsString × Keyset)) (raw : Option JsString) :
    Option ServiceContext := do
  let raw ← truthy raw
  let token ← truthy (some (stripBearer raw))
  let unverified ← jose.decodeJwt token
  let claimedIssuer ← (unverified.lookup (js "iss")).bind JsonValue.string?
  let cfg ← options.issuers.lookup claimedIssuer
  let keyset ← keysets.lookup claimedIssuer
  let payload ← jose.jwtVerify token keyset (verifyOptions cfg claimedIssuer)
  return serviceContext options cfg claimedIssuer payload

def trust (keysets : List (JsString × Keyset)) (headers : Headers) :
    Headers × Except Failure (Option ServiceContext) :=
  match HeaderName.ofJs options.header with
  | none => (headers, .error .typeError)
  | some name => (headers.delete name, .ok (accept jose options keysets (headers.get name)))

end SignedToken

open SignedToken in
def signedTokenTrust {Keyset : Type} (jose : Jose Keyset) (options : SignedTokenTrustOptions) :
    Except Failure (Headers → Headers × Except Failure (Option ServiceContext)) :=
  if options.issuers = [] then
    .error (.thrown "@connectum/auth: signedTokenTrust requires at least one issuer")
  else (orTypeError (createKeysets jose options.issuers)).map (trust jose options)

end Connectum.Auth
