import Connectum.Auth.SignedTokenTrust
import Connectum.JsMap
import Mathlib.Logic.Equiv.List

/-! What the trust source for signed tokens grants to the holder of one issuer's key. -/
namespace Connectum.Auth
open JsString

/-- One of the expected audiences is the `aud` claim or among its items. -/
def AudienceMet (expected : Option (List JsString)) (aud : Option JsonValue) : Prop :=
  match expected, aud with
  | none, _ => True
  | some expected, some (.string audience) => audience ∈ expected
  | some expected, some (.array items) => ∃ audience ∈ expected, .string audience ∈ items
  | some _, _ => False

/-- Whether a token is signed by a key of a keyset with one of the algorithms. -/
abbrev SignedBy (Keyset : Type) := JsString → Keyset → List JsString → Prop

/-- Whether the claims `exp`, `nbf` and `iat` are in order at the time, for a maximum age. -/
abbrev Timely := Option MaxTokenAge → Option JsonValue → Option JsonValue → Option JsonValue → Prop

/-- Exactly the tokens signed by a key of the keyset are accepted whose issuer, audience and time
claims satisfy the options. Time claims are numbers. -/
structure Jose.Documented {Keyset : Type} (jose : Jose Keyset) (signedBy : SignedBy Keyset)
    (timely : Timely) : Prop where
  jwtVerify_iff : ∀ token keyset options payload,
    jose.jwtVerify token keyset options = some payload ↔
      jose.decodeJwt token = some payload ∧ signedBy token keyset options.algorithms ∧
        payload.lookup (js "iss") = some (.string options.issuer) ∧
        AudienceMet options.audience (payload.lookup (js "aud")) ∧
        timely options.maxTokenAge (payload.lookup (js "exp")) (payload.lookup (js "nbf"))
          (payload.lookup (js "iat"))
  timely_number : ∀ age exp nbf iat, timely age exp nbf iat →
    ∀ value, some value ∈ [exp, nbf, iat] → ∃ bits, value = .number bits

namespace SignedToken
variable {Keyset : Type}

/-- The token is signed by a key of the issuer's keyset. -/
def SignedFor (jose : Jose Keyset) (signedBy : SignedBy Keyset) (options : SignedTokenTrustOptions)
    (token issuer : JsString) : Prop :=
  ∃ cfg keyset, options.issuers.lookup issuer = some cfg ∧
    jose.createRemoteJwkSet cfg.jwksUri = some keyset ∧
      signedBy token keyset (cfg.algorithms.getD [js "RS256"])

/-- The token that a request carries. -/
def presentedToken (options : SignedTokenTrustOptions) (headers : Headers) : Option JsString :=
  (HeaderName.ofJs options.header).bind fun name => (headers.get name).map stripBearer

/-- No request whose token is signed by the issuer's keys at most is accepted under the name of
another configured issuer. -/
def Contained (jose : Jose Keyset) (signedBy : SignedBy Keyset) (options : SignedTokenTrustOptions)
    (source : Headers → Headers × Except Failure (Option ServiceContext)) (issuer : JsString) :
    Prop :=
  ∀ headers headers' context,
    (∀ token, presentedToken options headers = some token →
      ∀ signer, SignedFor jose signedBy options token signer → signer = issuer) →
    source headers = (headers', .ok (some context)) →
      ∀ other, other ≠ issuer → (options.issuers.lookup other).isSome = true →
        context.subject ≠ .string other

/-- The claims of a token: those that are there. -/
def tokenClaims (issuer subject : JsString) (audience : List JsString)
    (exp nbf iat : Option JsonValue) : Claims :=
  [(js "iss", some (.string issuer)), (js "sub", some (.string subject)),
    (js "aud", if audience = [] then none else some (.array (audience.map .string))),
    (js "exp", exp), (js "nbf", nbf), (js "iat", iat)].filterMap fun claim =>
      claim.2.map fun value => (claim.1, value)

/-- The holder of the issuer's keys, and of no others', can sign any subject and audience with
time claims that are in order. -/
def CanSign (jose : Jose Keyset) (signedBy : SignedBy Keyset) (timely : Timely)
    (options : SignedTokenTrustOptions) (cfg : SignedTokenIssuer) (issuer : JsString) : Prop :=
  ∀ subject audience exp nbf iat, timely cfg.maxTokenAge exp nbf iat →
    ∃ raw : HeaderValue, stripBearer raw.val ≠ [] ∧
      jose.decodeJwt (stripBearer raw.val) =
        some (tokenClaims issuer subject audience exp nbf iat) ∧
      ∀ signer, SignedFor jose signedBy options (stripBearer raw.val) signer ↔ signer = issuer

/-- Some token of the issuer can be accepted: there is a header for it, some time claims are in
order, and there is an audience to name. -/
def Accepting (timely : Timely) (options : SignedTokenTrustOptions) (cfg : SignedTokenIssuer) :
    Prop :=
  (HeaderName.ofJs options.header).isSome = true ∧
    (∃ exp nbf iat, timely cfg.maxTokenAge exp nbf iat) ∧ cfg.audience ≠ some []

/-- The subject is read from the claim that the verification pins. -/
def SubjectPinned (cfg : SignedTokenIssuer) : Prop :=
  (cfg.claimsMapping.bind ClaimsMapping.subject) = some (js "iss")

variable {jose : Jose Keyset} {signedBy : SignedBy Keyset} {timely : Timely}
  {options : SignedTokenTrustOptions} {cfg : SignedTokenIssuer} {issuer subject : JsString}
  {audience : List JsString} {exp nbf iat : Option JsonValue}
  {source : Headers → Headers × Except Failure (Option ServiceContext)}

theorem lookup_cons_ite {V : Type} (key name : JsString) (value : V)
    (entries : List (JsString × V)) :
    ((name, value) :: entries).lookup key =
      if key = name then some value else entries.lookup key := by
  by_cases hkey : key = name
  · simp [hkey]
  · simp [List.lookup_cons, hkey, beq_false_of_ne hkey]

/-- A lookup among the values that are there. -/
theorem lookup_present {V : Type} (entries : List (JsString × Option V))
    (hnodup : (entries.map Prod.fst).Nodup) (key : JsString) :
    (entries.filterMap fun entry => entry.2.map fun value => (entry.1, value)).lookup key =
      (entries.lookup key).join := by
  induction entries with
  | nil => rfl
  | cons entry entries ih =>
    obtain ⟨name, value⟩ := entry
    obtain ⟨hnew, hnodup⟩ := List.nodup_cons.mp hnodup
    have ih := ih hnodup
    by_cases hkey : key = name
    · subst hkey
      cases value with
      | some value => simp
      | none =>
        have habsent : entries.lookup key = none := JsMap.lookup_eq_none hnew
        rw [List.filterMap_cons_none rfl, ih, habsent]
        simp
    · have hbeq : (key == name) = false := beq_false_of_ne hkey
      rw [List.lookup_cons, hbeq, ← ih]
      cases value with
      | none => rfl
      | some value => simp [List.lookup_cons, hbeq]

theorem lookup_tokenClaims (key : JsString) :
    (tokenClaims issuer subject audience exp nbf iat).lookup key =
      if key = js "iss" then some (.string issuer)
      else if key = js "sub" then some (.string subject)
      else if key = js "aud" then
        if audience = [] then none else some (.array (audience.map .string))
      else if key = js "exp" then exp
      else if key = js "nbf" then nbf
      else if key = js "iat" then iat
      else none := by
  rw [tokenClaims, lookup_present _ (by simp only [List.map_cons, List.map_nil]; decide)]
  simp only [lookup_cons_ite, List.lookup_nil]
  split_ifs <;> rfl

@[simp] theorem lookup_iss_tokenClaims :
    (tokenClaims issuer subject audience exp nbf iat).lookup (js "iss") =
      some (.string issuer) := by
  rw [lookup_tokenClaims, if_pos rfl]

@[simp] theorem lookup_sub_tokenClaims :
    (tokenClaims issuer subject audience exp nbf iat).lookup (js "sub") =
      some (.string subject) := by
  rw [lookup_tokenClaims, if_neg (by decide), if_pos rfl]

@[simp] theorem lookup_aud_tokenClaims :
    (tokenClaims issuer subject audience exp nbf iat).lookup (js "aud") =
      if audience = [] then none else some (.array (audience.map .string)) := by
  rw [lookup_tokenClaims, if_neg (by decide), if_neg (by decide), if_pos rfl]

@[simp] theorem lookup_exp_tokenClaims :
    (tokenClaims issuer subject audience exp nbf iat).lookup (js "exp") = exp := by
  rw [lookup_tokenClaims, if_neg (by decide), if_neg (by decide), if_neg (by decide), if_pos rfl]

@[simp] theorem lookup_nbf_tokenClaims :
    (tokenClaims issuer subject audience exp nbf iat).lookup (js "nbf") = nbf := by
  rw [lookup_tokenClaims, if_neg (by decide), if_neg (by decide), if_neg (by decide),
    if_neg (by decide), if_pos rfl]

@[simp] theorem lookup_iat_tokenClaims :
    (tokenClaims issuer subject audience exp nbf iat).lookup (js "iat") = iat := by
  rw [lookup_tokenClaims, if_neg (by decide), if_neg (by decide), if_neg (by decide),
    if_neg (by decide), if_neg (by decide), if_pos rfl]

/-- An audience that is accepted, with the forged subject where the path leads to its first item. -/
def forgedAudience (expected : Option (List JsString)) (subject : JsString)
    (keys : List JsString) : List JsString :=
  match expected with
  | none | some [] => []
  | some (audience :: _) =>
    if keys[1]?.bind JsonValue.arrayIndex = some 0 then [subject, audience] else [audience]

theorem not_audienceMet_nil {aud : Option JsonValue} : ¬ AudienceMet (some []) aud := by
  intro h
  unfold AudienceMet at h
  split at h
  next heq => cases heq
  next heq =>
    cases heq
    exact List.not_mem_nil h
  next heq =>
    cases heq
    obtain ⟨audience, haudience, -⟩ := h
    exact List.not_mem_nil haudience
  next => exact h

theorem audienceMet_forged {expected : Option (List JsString)} (h : expected ≠ some [])
    (keys : List JsString) (hforged : audience = forgedAudience expected subject keys) :
    AudienceMet expected
      (if audience = [] then none else some (.array (audience.map .string))) := by
  subst hforged
  cases expected with
  | none => exact trivial
  | some expected =>
    cases expected with
    | nil => exact absurd rfl h
    | cons audience expected =>
      simp only [forgedAudience]
      split
      next => exact ⟨audience, List.mem_cons_self, by simp⟩
      next => exact ⟨audience, List.mem_cons_self, by simp⟩

/-- The strings that the value at a path may be. -/
def StringsOnly (value : Option JsonValue) (subject : JsString) : Prop :=
  value.bind JsonValue.string? = none ∨ value.bind JsonValue.string? = some subject

/-- Nothing but the issuer can be read from a string or a number. -/
theorem stringsOnly_number (value : Option JsonValue)
    (hnumber : ∀ v, value = some v → ∃ bits, v = .number bits) (keys : List JsString) :
    StringsOnly (value.bind fun v => v.getNested keys) subject := by
  left
  cases value with
  | none => rfl
  | some v =>
    obtain ⟨bits, rfl⟩ := hnumber v rfl
    cases keys with
    | nil => rfl
    | cons key keys => rfl

theorem stringsOnly_subject (keys : List JsString) :
    StringsOnly ((JsonValue.string subject).getNested keys) subject := by
  cases keys with
  | nil => exact .inr rfl
  | cons key keys => exact .inl rfl

/-- The item that a path points to is the forged subject. -/
theorem forgedAudience_getElem? {expected : Option (List JsString)} {key index item : JsString}
    {keys : List JsString} {i : ℕ} (hindex : JsonValue.arrayIndex index = some i)
    (hitem : (forgedAudience expected subject (key :: index :: keys))[i]? = some item) :
    item = subject := by
  unfold forgedAudience at hitem
  split at hitem
  next => simp at hitem
  next => simp at hitem
  next =>
    simp only [List.getElem?_cons_succ, List.getElem?_cons_zero, Option.bind_some, hindex,
      Option.some.injEq] at hitem
    split at hitem
    next hzero =>
      subst hzero
      exact (Option.some.inj hitem).symm
    next hzero =>
      obtain ⟨i, rfl⟩ := Nat.exists_eq_succ_of_ne_zero hzero
      simp at hitem

theorem stringsOnly_audience {expected : Option (List JsString)} (key : JsString)
    (keys : List JsString) (hforged : audience = forgedAudience expected subject (key :: keys)) :
    StringsOnly ((JsonValue.array (audience.map .string)).getNested keys) subject := by
  cases keys with
  | nil => exact .inl rfl
  | cons index keys =>
    simp only [JsonValue.getNested, JsonValue.property]
    cases hindex : JsonValue.arrayIndex index with
    | none => exact .inl rfl
    | some i =>
      simp only [Option.bind_some, List.getElem?_map]
      cases hitem : audience[i]? with
      | none => exact .inl rfl
      | some item =>
        obtain rfl : item = subject := forgedAudience_getElem? hindex (hforged ▸ hitem)
        exact stringsOnly_subject keys

theorem stringsOnly_forged (htimely : ∀ value, some value ∈ [exp, nbf, iat] →
      ∃ bits, value = .number bits) {keys : List JsString} (hne : keys ≠ [])
    (hpinned : keys ≠ [js "iss"]) {expected : Option (List JsString)}
    (hforged : audience = forgedAudience expected subject keys) :
    StringsOnly
      ((JsonValue.object (tokenClaims issuer subject audience exp nbf iat)).getNested keys)
      subject := by
  cases keys with
  | nil => exact absurd rfl hne
  | cons key keys =>
    simp only [JsonValue.getNested, JsonValue.property, lookup_tokenClaims]
    split_ifs with hiss hsub haud hempty hexp hnbf hiat
    · cases keys with
      | nil => exact absurd (by rw [hiss]) hpinned
      | cons key keys => exact .inl rfl
    · exact stringsOnly_subject keys
    · exact .inl rfl
    · exact stringsOnly_audience key keys hforged
    · exact stringsOnly_number exp (fun v hv => htimely v (by simp [hv])) keys
    · exact stringsOnly_number nbf (fun v hv => htimely v (by simp [hv])) keys
    · exact stringsOnly_number iat (fun v hv => htimely v (by simp [hv])) keys
    · exact .inl rfl

theorem lookup_createKeysets {issuers : List (JsString × SignedTokenIssuer)}
    {keysets : List (JsString × Keyset)} (h : createKeysets jose issuers = some keysets)
    (name : JsString) :
    keysets.lookup name =
      (issuers.lookup name).bind fun cfg => jose.createRemoteJwkSet cfg.jwksUri := by
  induction issuers generalizing keysets with
  | nil =>
    obtain rfl := Option.some.inj h
    rfl
  | cons entry issuers ih =>
    obtain ⟨first, cfg⟩ := entry
    obtain ⟨keyset, hkeyset, h⟩ := Option.bind_eq_some_iff.mp h
    obtain ⟨rest, hrest, h⟩ := Option.bind_eq_some_iff.mp h
    obtain rfl := Option.some.inj h
    rw [lookup_cons_ite, lookup_cons_ite]
    split
    next => simp [hkeyset]
    next => exact ih hrest

theorem source_of_signedTokenTrust (h : signedTokenTrust jose options = .ok source) :
    ∃ keysets, createKeysets jose options.issuers = some keysets ∧
      source = trust jose options keysets := by
  unfold signedTokenTrust at h
  split at h
  next => cases h
  next =>
    cases hkeysets : createKeysets jose options.issuers with
    | none =>
      rw [hkeysets] at h
      cases h
    | some keysets =>
      rw [hkeysets] at h
      exact ⟨keysets, rfl, (Except.ok.inj h).symm⟩

/-- What a token that is accepted has passed. -/
structure Accepted (jose : Jose Keyset) (options : SignedTokenTrustOptions) (token : JsString)
    (issuer : JsString) (cfg : SignedTokenIssuer) (payload : Claims) : Prop where
  decoded : ∃ unverified, jose.decodeJwt token = some unverified ∧
    unverified.lookup (js "iss") = some (.string issuer)
  configured : options.issuers.lookup issuer = some cfg
  verified : ∃ keyset, jose.createRemoteJwkSet cfg.jwksUri = some keyset ∧
    jose.jwtVerify token keyset (verifyOptions cfg issuer) = some payload

theorem string?_eq_some {value : JsonValue} {s : JsString} :
    value.string? = some s ↔ value = .string s := by
  cases value <;> simp [JsonValue.string?]

theorem source_eq_some {headers headers' : Headers} {context : ServiceContext}
    (hsource : signedTokenTrust jose options = .ok source)
    (h : source headers = (headers', .ok (some context))) :
    (HeaderName.ofJs options.header).isSome = true ∧ ∃ token issuer cfg payload,
      presentedToken options headers = some token ∧
        Accepted jose options token issuer cfg payload ∧
          context = serviceContext options cfg issuer payload := by
  obtain ⟨keysets, hkeysets, rfl⟩ := source_of_signedTokenTrust hsource
  unfold trust at h
  split at h
  next => cases h
  next name hname =>
    have haccept := Except.ok.inj (Prod.mk.inj h).2
    simp only [accept, Option.bind_eq_bind, Option.bind_eq_some_iff, truthy_eq_some,
      string?_eq_some, lookup_createKeysets hkeysets] at haccept
    obtain ⟨raw, ⟨hraw, -⟩, _, ⟨heq, -⟩, unverified, hdecoded, issuer, ⟨_, hiss, rfl⟩, cfg, hcfg,
      keyset, ⟨cfg', hcfg', hkeyset⟩, payload, hverified, hcontext⟩ := haccept
    obtain rfl := Option.some.inj heq
    obtain rfl := Option.some.inj (hcfg.symm.trans hcfg')
    refine ⟨by rw [hname]; rfl, stripBearer raw, issuer, cfg, payload, ?_,
      ⟨⟨unverified, hdecoded, hiss⟩, hcfg, keyset, hkeyset, hverified⟩,
      (Option.some.inj hcontext).symm⟩
    simp [presentedToken, hname, hraw]

theorem source_of_accepted {headers : Headers} {name : HeaderName} {raw : JsString}
    {payload : Claims} (hsource : signedTokenTrust jose options = .ok source)
    (hname : HeaderName.ofJs options.header = some name) (hraw : headers.get name = some raw)
    (htoken : stripBearer raw ≠ [])
    (haccepted : Accepted jose options (stripBearer raw) issuer cfg payload) :
    source headers =
      (headers.delete name, .ok (some (serviceContext options cfg issuer payload))) := by
  obtain ⟨keysets, hkeysets, rfl⟩ := source_of_signedTokenTrust hsource
  obtain ⟨⟨unverified, hdecoded, hiss⟩, hcfg, keyset, hkeyset, hverified⟩ := haccepted
  have hne : raw ≠ [] := by
    rintro rfl
    exact htoken rfl
  have htruthyRaw : truthy (some raw) = some raw := truthy_eq_some.mpr ⟨rfl, hne⟩
  have htruthyToken : truthy (some (stripBearer raw)) = some (stripBearer raw) :=
    truthy_eq_some.mpr ⟨rfl, htoken⟩
  have haccept : accept jose options keysets (some raw) =
      some (serviceContext options cfg issuer payload) := by
    simp [accept, htruthyRaw, htruthyToken, hdecoded, hiss, JsonValue.string?, hcfg,
      lookup_createKeysets hkeysets, hkeyset, hverified]
  simp only [trust, hname, hraw, haccept]

theorem subjectClaim_mapTokenClaims (claims : Claims) (mapping : Option ClaimsMapping) :
    (mapTokenClaims claims mapping).subjectClaim =
      mappedString claims (mapping.bind ClaimsMapping.subject) := by
  cases mapping <;> rfl

/-- A pinned subject is the issuer of the keys that verified the token. -/
theorem subject_of_pinned {payload : Claims} (hpinned : SubjectPinned cfg)
    (hiss : payload.lookup (js "iss") = some (.string issuer)) :
    (serviceContext options cfg issuer payload).subject = .string issuer := by
  have hpath : (js "iss").splitOn (unit '.') = [js "iss"] := by decide
  have hclaim : mappedString payload (some (js "iss")) = some issuer := by
    have htruthy : truthy (some (js "iss")) = some (js "iss") := by decide
    simp [mappedString, htruthy, getNestedValue, hpath, JsonValue.getNested, JsonValue.property,
      hiss, JsonValue.string?]
  simp only [serviceContext, subjectClaim_mapTokenClaims]
  rw [hpinned, hclaim]

/-- The keys of the path that the subject is read from. -/
def subjectKeys (cfg : SignedTokenIssuer) : List JsString :=
  match truthy (cfg.claimsMapping.bind ClaimsMapping.subject) with
  | some path => path.splitOn (unit '.')
  | none => []

/-- A subject that is not pinned is what the signer of the token chooses. -/
theorem subject_of_forged (hpinned : ¬ SubjectPinned cfg)
    (htimely : ∀ value, some value ∈ [exp, nbf, iat] → ∃ bits, value = .number bits)
    {expected : Option (List JsString)}
    (hforged : audience = forgedAudience expected subject (subjectKeys cfg)) :
    (serviceContext options cfg issuer (tokenClaims issuer subject audience exp nbf iat)).subject =
      .string subject := by
  have hclaim : mappedString (tokenClaims issuer subject audience exp nbf iat)
        (cfg.claimsMapping.bind ClaimsMapping.subject) = none ∨
      mappedString (tokenClaims issuer subject audience exp nbf iat)
        (cfg.claimsMapping.bind ClaimsMapping.subject) = some subject := by
    unfold mappedString
    cases hpath : truthy (cfg.claimsMapping.bind ClaimsMapping.subject) with
    | none => exact .inl rfl
    | some path =>
      have hkeys : subjectKeys cfg = path.splitOn (unit '.') := by rw [subjectKeys, hpath]
      refine stringsOnly_forged htimely (List.splitOn_ne_nil _ _) ?_ (hkeys ▸ hforged)
      intro heq
      have hpathEq : path = js "iss" := by
        calc path = [unit '.'].intercalate (path.splitOn (unit '.')) :=
              (List.intercalate_splitOn (unit '.')).symm
          _ = js "iss" := by
              rw [heq]
              rfl
      rw [hpathEq] at hpath
      exact hpinned (truthy_eq_some.mp hpath).1
  simp only [serviceContext, subjectClaim_mapTokenClaims]
  rcases hclaim with hclaim | hclaim
  · rw [hclaim, lookup_sub_tokenClaims]
    rfl
  · rw [hclaim]

theorem contained_of_pinned (hjose : jose.Documented signedBy timely)
    (hsource : signedTokenTrust jose options = .ok source)
    (hcfg : options.issuers.lookup issuer = some cfg)
    (h : SubjectPinned cfg ∨ ¬ Accepting timely options cfg) :
    Contained jose signedBy options source issuer := by
  intro headers headers' context hsigned hrun other hother _ hsubject
  obtain ⟨hheader, token, claimed, cfg', payload, htoken, haccepted, rfl⟩ :=
    source_eq_some hsource hrun
  obtain ⟨keyset, hkeyset, hverified⟩ := haccepted.verified
  obtain ⟨-, hkey, hpin, haudience, htimely⟩ := (hjose.jwtVerify_iff ..).mp hverified
  obtain rfl : claimed = issuer :=
    hsigned token htoken claimed ⟨cfg', keyset, haccepted.configured, hkeyset, hkey⟩
  obtain rfl := Option.some.inj (hcfg.symm.trans haccepted.configured)
  rcases h with hpinned | haccepting
  · have hclaimed : (serviceContext options cfg claimed payload).subject = .string claimed :=
      subject_of_pinned hpinned hpin
    exact hother (JsonValue.string.inj (hsubject.symm.trans hclaimed))
  · apply haccepting
    refine ⟨hheader, ⟨_, _, _, htimely⟩, ?_⟩
    intro hempty
    rw [verifyOptions, hempty] at haudience
    exact not_audienceMet_nil haudience

/-- The headers of a request that carries one value. -/
def carrying (name : HeaderName) (raw : HeaderValue) : Headers :=
  Function.update (fun _ => none) name (some raw)

theorem get_carrying (name : HeaderName) (raw : HeaderValue) :
    (carrying name raw).get name = some raw.val := by
  rw [Headers.get, carrying, Function.update_self]
  rfl

/-- A key whose issuer is not pinned to its subject signs in the name of any other issuer. -/
theorem forged_of_unpinned (hjose : jose.Documented signedBy timely)
    (hsource : signedTokenTrust jose options = .ok source)
    (hcfg : options.issuers.lookup issuer = some cfg)
    (hsign : CanSign jose signedBy timely options cfg issuer)
    (hpinned : ¬ SubjectPinned cfg) (haccepting : Accepting timely options cfg)
    (subject : JsString) : ∃ headers headers' context,
      (∀ token, presentedToken options headers = some token →
        ∀ signer, SignedFor jose signedBy options token signer → signer = issuer) ∧
      source headers = (headers', .ok (some context)) ∧ context.subject = .string subject := by
  obtain ⟨hheader, ⟨exp, nbf, iat, htimely⟩, haudience⟩ := haccepting
  obtain ⟨name, hname⟩ := Option.isSome_iff_exists.mp hheader
  obtain ⟨raw, htoken, hdecoded, hsigned⟩ :=
    hsign subject (forgedAudience cfg.audience subject (subjectKeys cfg)) exp nbf iat htimely
  obtain ⟨cfg', keyset, hcfg', hkeyset, hkey⟩ := (hsigned issuer).mpr rfl
  obtain rfl := Option.some.inj (hcfg.symm.trans hcfg')
  have hverified : jose.jwtVerify (stripBearer raw.val) keyset (verifyOptions cfg issuer) =
      some (tokenClaims issuer subject (forgedAudience cfg.audience subject (subjectKeys cfg))
        exp nbf iat) := by
    apply (hjose.jwtVerify_iff ..).mpr
    refine ⟨hdecoded, hkey, lookup_iss_tokenClaims, ?_, ?_⟩
    · rw [lookup_aud_tokenClaims]
      exact audienceMet_forged haudience _ rfl
    · rw [lookup_exp_tokenClaims, lookup_nbf_tokenClaims, lookup_iat_tokenClaims]
      exact htimely
  have hraw := get_carrying name raw
  refine ⟨carrying name raw, (carrying name raw).delete name, _, ?_,
    source_of_accepted hsource hname hraw htoken ⟨⟨_, hdecoded, lookup_iss_tokenClaims⟩, hcfg,
      keyset, hkeyset, hverified⟩,
    subject_of_forged hpinned (hjose.timely_number _ _ _ _ htimely) rfl⟩
  intro token hpresented signer
  obtain rfl : stripBearer raw.val = token := by
    simpa [presentedToken, hname, hraw] using hpresented
  exact (hsigned signer).mp

/-- A key of the issuer forges the issuer only, if and only if the subject is read from `iss` or
no token of the issuer can be accepted. -/
theorem contained_iff (hjose : jose.Documented signedBy timely)
    (hsource : signedTokenTrust jose options = .ok source)
    (hcfg : options.issuers.lookup issuer = some cfg)
    (hother : ∃ other, other ≠ issuer ∧ (options.issuers.lookup other).isSome = true)
    (hsign : CanSign jose signedBy timely options cfg issuer) :
    Contained jose signedBy options source issuer ↔
      SubjectPinned cfg ∨ ¬ Accepting timely options cfg := by
  refine ⟨fun hcontained => ?_, contained_of_pinned hjose hsource hcfg⟩
  by_contra h
  obtain ⟨hpinned, haccepting⟩ := not_or.mp h
  obtain ⟨other, hne, hconfigured⟩ := hother
  obtain ⟨headers, headers', context, hsigned, hrun, hsubject⟩ :=
    forged_of_unpinned hjose hsource hcfg hsign hpinned (not_not.mp haccepting) other
  exact hcontained headers headers' context hsigned hrun other hne hconfigured hsubject

instance encodableUInt16 : Encodable UInt16 :=
  .ofLeftInverse UInt16.toNat UInt16.ofNat fun _ => UInt16.ofNat_toNat

/-- The token of an issuer for a subject and an audience, as a number in unary. -/
def unaryToken (issuer subject : JsString) (audience : List JsString) : HeaderValue :=
  ⟨List.replicate (Encodable.encode (issuer, subject, audience) + 1) (unit 'a'), by
    simp only [isHeaderValue, List.all_eq_true, List.mem_replicate]
    rintro c ⟨-, rfl⟩
    decide⟩

def decodeUnary (token : JsString) : Option (JsString × JsString × List JsString) :=
  Encodable.decode (token.length - 1)

/-- Each issuer publishes its keys under its own name. -/
def keysOf (issuer : JsString) : JsString := js "https://" ++ issuer

def unarySignedBy (token keyset : JsString) (_ : List JsString) : Prop :=
  ∃ issuer subject audience, decodeUnary token = some (issuer, subject, audience) ∧
    keyset = keysOf issuer

/-- Tokens are without time claims. -/
def untimed (age : Option MaxTokenAge) (exp nbf iat : Option JsonValue) : Prop :=
  age.isNone ∧ exp = none ∧ nbf = none ∧ iat = none

def unaryAudience (expected : Option (List JsString)) (audience : List JsString) : Bool :=
  match expected with
  | none => true
  | some expected => expected.any fun name => audience.contains name

def unaryJose : Jose JsString where
  createRemoteJwkSet := some
  decodeJwt token := (decodeUnary token).map fun (issuer, subject, audience) =>
    tokenClaims issuer subject audience none none none
  jwtVerify token keyset options := (decodeUnary token).bind fun (issuer, subject, audience) =>
    if keyset = keysOf issuer ∧ issuer = options.issuer ∧
        unaryAudience options.audience audience = true ∧ options.maxTokenAge.isNone = true then
      some (tokenClaims issuer subject audience none none none)
    else none

theorem audienceMet_unary (expected : Option (List JsString)) (audience : List JsString) :
    AudienceMet expected (if audience = [] then none else some (.array (audience.map .string))) ↔
      unaryAudience expected audience = true := by
  cases expected with
  | none => simp [AudienceMet, unaryAudience]
  | some expected =>
    by_cases hempty : audience = []
    · simp [hempty, AudienceMet, unaryAudience]
    · simp [hempty, AudienceMet, unaryAudience]

theorem unaryJose_documented : unaryJose.Documented unarySignedBy untimed where
  jwtVerify_iff token keyset options payload := by
    simp only [unaryJose, unarySignedBy]
    cases hdecoded : decodeUnary token with
    | none => simp
    | some claims =>
      obtain ⟨issuer, subject, audience⟩ := claims
      simp only [Option.bind_some, Option.map_some, Option.some.injEq]
      constructor
      · intro h
        split at h
        next hvalid =>
          obtain ⟨hkeys, hissuer, haudience, hage⟩ := hvalid
          obtain rfl := Option.some.inj h
          refine ⟨rfl, ⟨issuer, subject, audience, rfl, hkeys⟩, ?_, ?_, ?_⟩
          · rw [lookup_iss_tokenClaims, hissuer]
          · rw [lookup_aud_tokenClaims]
            exact (audienceMet_unary ..).mpr haudience
          · simp [untimed, hage]
        next => cases h
      · rintro ⟨rfl, ⟨issuer', subject', audience', heq, hkeys⟩, hissuer, haudience, htimely⟩
        cases heq
        rw [lookup_iss_tokenClaims] at hissuer
        rw [lookup_aud_tokenClaims] at haudience
        have hissuer : issuer = options.issuer := by simpa using hissuer
        rw [if_pos ⟨hkeys, hissuer, (audienceMet_unary ..).mp haudience, htimely.1⟩]
  timely_number age exp nbf iat h value hvalue := by
    obtain ⟨-, rfl, rfl, rfl⟩ := h
    simp at hvalue

theorem decodeUnary_unaryToken (issuer subject : JsString) (audience : List JsString) :
    decodeUnary (unaryToken issuer subject audience).val = some (issuer, subject, audience) := by
  simp [decodeUnary, unaryToken]

/-- Whitespace and a prefix are stripped from no token. -/
theorem stripBearer_unaryToken (issuer subject : JsString) (audience : List JsString) :
    stripBearer (unaryToken issuer subject audience).val =
      (unaryToken issuer subject audience).val := by
  simp only [unaryToken]
  generalize Encodable.encode (issuer, subject, audience) = n
  have htrim : trim (List.replicate (n + 1) (unit 'a')) = List.replicate (n + 1) (unit 'a') := by
    have hspace : isWhitespace (unit 'a') = false := by decide
    simp [trim, List.rdropWhile, hspace]
  have hprefix : ((List.replicate (n + 1) (unit 'a')).take 7).map toLower ≠ js "bearer " := by
    intro heq
    have hmem : unit 'b' ∈ ((List.replicate (n + 1) (unit 'a')).take 7).map toLower := by
      rw [heq]
      decide
    simp only [List.take_replicate, List.map_replicate, List.mem_replicate] at hmem
    exact absurd hmem.2 (by decide)
  rw [stripBearer, htrim, if_neg hprefix]

/-- Two services, with the claims mapped as they come. -/
def twoServices : SignedTokenTrustOptions where
  issuers := [(js "a", { jwksUri := js "https://a" }), (js "b", { jwksUri := js "https://b" })]

theorem signedFor_unaryToken (subject : JsString) (audience : List JsString) (signer : JsString) :
    SignedFor unaryJose unarySignedBy twoServices (unaryToken (js "a") subject audience).val
      signer ↔ signer = js "a" := by
  simp only [SignedFor, unarySignedBy, decodeUnary_unaryToken, unaryJose]
  constructor
  · rintro ⟨cfg, keyset, hcfg, heq, issuer, _, _, hissuer, hkeys⟩
    cases hissuer
    obtain rfl := Option.some.inj heq
    simp only [twoServices, lookup_cons_ite, List.lookup_nil] at hcfg
    split_ifs at hcfg with ha hb
    · exact ha
    · obtain rfl := Option.some.inj hcfg
      exact absurd hkeys (by decide)
  · rintro rfl
    exact ⟨_, _, rfl, rfl, _, _, _, rfl, by decide⟩

theorem decodeJwt_unaryToken (issuer subject : JsString) (audience : List JsString) :
    unaryJose.decodeJwt (unaryToken issuer subject audience).val =
      some (tokenClaims issuer subject audience none none none) := by
  simp [unaryJose, decodeUnary_unaryToken]

theorem stripBearer_unaryToken_ne_nil (issuer subject : JsString) (audience : List JsString) :
    stripBearer (unaryToken issuer subject audience).val ≠ [] := by
  rw [stripBearer_unaryToken]
  simp [unaryToken]

theorem canSign_unary : CanSign unaryJose unarySignedBy untimed twoServices
    { jwksUri := js "https://a" } (js "a") := by
  rintro subject audience exp nbf iat ⟨-, rfl, rfl, rfl⟩
  refine ⟨unaryToken (js "a") subject audience, stripBearer_unaryToken_ne_nil _ _ _, ?_⟩
  rw [stripBearer_unaryToken]
  exact ⟨decodeJwt_unaryToken .., signedFor_unaryToken subject audience⟩

theorem trust_twoServices : ∃ source, signedTokenTrust unaryJose twoServices = .ok source :=
  ⟨_, rfl⟩

def xInternalToken : HeaderName := ⟨js "x-internal-token", by decide⟩

/-- A token of the first service in the name of the second. -/
def forgedToken : HeaderValue := unaryToken (js "a") (js "b") []

theorem accepted_forgedToken :
    Accepted unaryJose twoServices (stripBearer forgedToken.val) (js "a")
      { jwksUri := js "https://a" } (tokenClaims (js "a") (js "b") [] none none none) := by
  rw [forgedToken, stripBearer_unaryToken]
  refine ⟨⟨_, decodeJwt_unaryToken .., lookup_iss_tokenClaims⟩, rfl, js "https://a", rfl, ?_⟩
  apply (unaryJose_documented.jwtVerify_iff ..).mpr
  refine ⟨decodeJwt_unaryToken .., ⟨js "a", js "b", [], decodeUnary_unaryToken .., by decide⟩,
    lookup_iss_tokenClaims, trivial, ?_⟩
  simp [untimed, verifyOptions]

/-- The first of two services passes for the second. -/
theorem compromised_service_forges_other : ∃ source headers' context,
    signedTokenTrust unaryJose twoServices = .ok source ∧
      source (carrying xInternalToken forgedToken) = (headers', .ok (some context)) ∧
      context.subject = .string (js "b") ∧
      ¬ Contained unaryJose unarySignedBy twoServices source (js "a") := by
  obtain ⟨source, hsource⟩ := trust_twoServices
  have hrun := source_of_accepted hsource rfl (get_carrying xInternalToken forgedToken)
    (stripBearer_unaryToken_ne_nil _ _ _) accepted_forgedToken
  have hsubject : (serviceContext twoServices { jwksUri := js "https://a" } (js "a")
      (tokenClaims (js "a") (js "b") [] none none none)).subject = .string (js "b") :=
    subject_of_forged (by simp [SubjectPinned]) (by simp)
      (show [] = forgedAudience none _ _ from rfl)
  refine ⟨source, _, _, hsource, hrun, hsubject, ?_⟩
  intro hcontained
  refine hcontained _ _ _ ?_ hrun (js "b") (by decide) rfl hsubject
  intro token htoken signer hsigned
  obtain rfl : stripBearer forgedToken.val = token := Option.some.inj htoken
  rw [forgedToken, stripBearer_unaryToken] at hsigned
  exact (signedFor_unaryToken _ _ signer).mp hsigned

theorem contained_iff_twoServices : ∃ source,
    signedTokenTrust unaryJose twoServices = .ok source ∧
      (Contained unaryJose unarySignedBy twoServices source (js "a") ↔
        SubjectPinned { jwksUri := js "https://a" } ∨
          ¬ Accepting untimed twoServices { jwksUri := js "https://a" }) := by
  obtain ⟨source, hsource⟩ := trust_twoServices
  exact ⟨source, hsource, contained_iff unaryJose_documented hsource rfl
    ⟨js "b", by decide, rfl⟩ canSign_unary⟩

end SignedToken
end Connectum.Auth
