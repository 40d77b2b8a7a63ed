import Connectum.Auth.Scopes

/-! The context that a service reads from the headers that another one has written. -/
namespace Connectum.Auth
open JsString

/-- `Headers` stores the text unchanged. -/
def Stored (text : JsString) : Prop := (HeaderValue.ofJs text).map Subtype.val = some text

/-- `JSON.parse` reads a value from the text of another one, which `Headers` does not trim. -/
structure Reads (json : Json) (written read : JsonValue) : Prop where
  parse : json.parse (json.stringify written) = some read
  text : normalizeValue (json.stringify written) = json.stringify written

def isPrintable (c : UInt16) : Bool := 0x20 ≤ c && c ≤ 0x7E

/-- A printable text of a bounded length, not empty and without surrounding whitespace. -/
structure Tidy (text : JsString) (maxLength : ℕ) : Prop where
  printable : ∀ c ∈ text, isPrintable c = true
  nonempty : text ≠ []
  first : text.head? ≠ some (unit ' ')
  last : text.getLast? ≠ some (unit ' ')
  length : text.length ≤ maxLength

/-- What a scope is made of. -/
structure IsScope (scope : JsString) : Prop where
  printable : ∀ c ∈ scope, isPrintable c = true
  nonempty : scope ≠ []
  space : unit ' ' ∉ scope

/-- Each space-separated word of the scopes, the outermost ones without the whitespace around
them, is one of the scopes. Scopes that are too long for a header are not sent. -/
def ScopesClosed (scopes : List JsString) : Prop :=
  ((js " ").intercalate scopes).length ≤ maxHeaderBytes →
    ∀ word ∈ trimLast (trimFirst (scopes.flatMap splitScopes)), word ∈ scopes

def rolesValue (context : AuthContext) : JsonValue := .array (context.roles.map .string)

/-- A context whose texts can be sent as they are, and are not too long. -/
structure Transmissible (json : Json) (context : AuthContext) : Prop where
  subject : Tidy context.subject 512
  type : Tidy context.type 128
  name : ∀ name, context.name = some name → Tidy name 256
  scope : ∀ scope ∈ context.scopes, IsScope scope
  roles : (json.stringify (rolesValue context)).length ≤ maxHeaderBytes
  scopes : ((js " ").intercalate context.scopes).length ≤ maxHeaderBytes
  claims : (json.stringify (.object context.claims)).length ≤ maxHeaderBytes

variable {json : Json} {headers out : Headers} {context parsed : AuthContext}
  {propagatedClaims : Option (List JsString)} {text : JsString} {maxLength : ℕ} {c : UInt16}

/-! ### Header values -/

theorem Stored.normalizeValue_eq (h : Stored text) : normalizeValue text = text := by
  obtain ⟨value, hvalue, htext⟩ := Option.map_eq_some_iff.mp h
  rw [← HeaderValue.val_ofJs hvalue, htext]

theorem length_normalizeValue_le : (normalizeValue text).length ≤ text.length := by
  rw [normalizeValue, List.rdropWhile, List.length_reverse]
  have hlast := (List.dropWhile_sublist isHttpWhitespace
    (l := (text.dropWhile isHttpWhitespace).reverse)).length_le
  have hfirst := (List.dropWhile_sublist isHttpWhitespace (l := text)).length_le
  rw [List.length_reverse] at hlast
  omega

theorem dropWhile_of_head (h : ∀ c, text.head? = some c → isHttpWhitespace c = false) :
    text.dropWhile isHttpWhitespace = text := by
  cases text with
  | nil => rfl
  | cons c text => exact List.dropWhile_cons_of_neg (by simp [h c rfl])

/-- A text without whitespace at its ends is not trimmed. -/
theorem normalizeValue_of_ends (hfirst : ∀ c, text.head? = some c → isHttpWhitespace c = false)
    (hlast : ∀ c, text.getLast? = some c → isHttpWhitespace c = false) :
    normalizeValue text = text := by
  have hreverse : text.reverse.dropWhile isHttpWhitespace = text.reverse := by
    apply dropWhile_of_head
    intro c hc
    exact hlast c (by rwa [List.head?_reverse] at hc)
  rw [normalizeValue, dropWhile_of_head hfirst, List.rdropWhile, hreverse, List.reverse_reverse]

theorem toNat_of_isPrintable (h : isPrintable c = true) : 32 ≤ c.toNat ∧ c.toNat ≤ 126 := by
  simp only [isPrintable, Bool.and_eq_true, decide_eq_true_eq, UInt16.le_iff_toNat_le] at h
  exact h

theorem isHttpWhitespace_of_isPrintable (h : isPrintable c = true) (hspace : c ≠ unit ' ') :
    isHttpWhitespace c = false := by
  have hspace' : c ≠ 0x20 := hspace
  have hlower := (toNat_of_isPrintable h).1
  simp only [isHttpWhitespace, Bool.or_eq_false_iff, beq_eq_false_iff_ne]
  refine ⟨⟨⟨?_, ?_⟩, ?_⟩, hspace'⟩ <;> intro heq <;> subst heq <;> exact absurd hlower (by decide)

theorem isRemovedControl_of_isPrintable (h : isPrintable c = true) :
    isRemovedControl c = false := by
  obtain ⟨hlower, hupper⟩ := toNat_of_isPrintable h
  by_contra hremoved
  have hcontrol : c.toNat ≤ 31 ∨ c.toNat = 127 := by
    simp only [isRemovedControl, Bool.not_eq_false, Bool.or_eq_true, Bool.and_eq_true,
      decide_eq_true_eq, beq_iff_eq, UInt16.le_iff_toNat_le, ← UInt16.toNat_inj] at hremoved
    simp only [UInt16.reduceToNat] at hremoved
    omega
  omega

theorem isHeaderValue_of_isPrintable (h : ∀ c ∈ text, isPrintable c = true) :
    isHeaderValue text = true := by
  apply List.all_eq_true.mpr
  intro c hc
  obtain ⟨hlower, hupper⟩ := toNat_of_isPrintable (h c hc)
  have hbyte : c ≤ 0xFF := UInt16.le_iff_toNat_le.mpr (by
    show c.toNat ≤ 255
    omega)
  rw [decide_eq_true_eq]
  refine ⟨hbyte, ?_, ?_, ?_⟩ <;> intro heq <;> subst heq <;> exact absurd hlower (by decide)

theorem stored_of_isPrintable (h : ∀ c ∈ text, isPrintable c = true)
    (hfirst : text.head? ≠ some (unit ' ')) (hlast : text.getLast? ≠ some (unit ' ')) :
    Stored text := by
  have hnormal : normalizeValue text = text := by
    apply normalizeValue_of_ends
    · intro c hc
      exact isHttpWhitespace_of_isPrintable (h c (List.mem_of_mem_head? hc)) fun heq =>
        hfirst (heq ▸ hc)
    · intro c hc
      exact isHttpWhitespace_of_isPrintable (h c (List.mem_of_getLast? hc)) fun heq =>
        hlast (heq ▸ hc)
  have hvalue : isHeaderValue (normalizeValue text) = true := by
    rw [hnormal]
    exact isHeaderValue_of_isPrintable h
  rw [Stored, HeaderValue.ofJs, dif_pos hvalue]
  exact congrArg some hnormal

theorem Tidy.stored (h : Tidy text maxLength) : Stored text :=
  stored_of_isPrintable h.printable h.first h.last

theorem Tidy.sanitizeHeaderValue_eq (h : Tidy text maxLength) :
    sanitizeHeaderValue text maxLength = text := by
  have hfilter : text.filter (fun c => !isRemovedControl c) = text := by
    rw [List.filter_eq_self]
    intro c hc
    rw [isRemovedControl_of_isPrintable (h.printable c hc)]
    rfl
  rw [sanitizeHeaderValue, hfilter, List.take_of_length_le h.length]

/-! ### The headers that are written -/

/-- A header reads as the text written to it, trimmed. -/
theorem get_setAuthHeaders (hprior : ∀ h : AuthHeader, headers h.headerName = none)
    (hset : setAuthHeaders json headers context propagatedClaims = some out) (h : AuthHeader) :
    out.get h.headerName = (headerText json context propagatedClaims h).map normalizeValue := by
  rw [Headers.get, setAuthHeaders_apply hset h]
  cases htext : headerText json context propagatedClaims h with
  | none =>
    dsimp only
    rw [hprior h]
    rfl
  | some text =>
    dsimp only
    cases hvalue : HeaderValue.ofJs text with
    | some value => exact congrArg some (HeaderValue.val_ofJs hvalue)
    | none =>
      have hfailed : setAuthHeaders json headers context propagatedClaims = none :=
        Headers.setEach_eq_none.mpr ⟨_, mem_authWrites.mpr htext, hvalue⟩
      rw [hset] at hfailed
      cases hfailed

theorem exists_setAuthHeaders (headers : Headers)
    (hstored : ∀ h text, headerText json context propagatedClaims h = some text → Stored text) :
    ∃ out, setAuthHeaders json headers context propagatedClaims = some out := by
  apply Option.ne_none_iff_exists'.mp
  intro hfailed
  obtain ⟨write, hwrite, hvalue⟩ := Headers.setEach_eq_none.mp hfailed
  obtain ⟨h, htext⟩ := exists_of_mem_authWrites hwrite
  have hval := hstored h write.2 htext
  rw [Stored, hvalue] at hval
  cases hval

theorem truthy_of_ne_nil (h : text ≠ []) : truthy (some text) = some text :=
  truthy_eq_some.mpr ⟨rfl, h⟩

theorem limited_of_le (h : text.length ≤ maxHeaderBytes) : limited text = some text := if_pos h

theorem parseScopes_some (h : text.length ≤ maxHeaderBytes) :
    parseScopes (some text) = splitScopes text := by
  by_cases hnil : text = []
  · subst hnil
    decide
  · rw [parseScopes, truthy_of_ne_nil hnil, Option.bind_some, limited_of_le h]

/-! ### Scopes -/

theorem joined_scopes {scopes : List JsString} (hscopes : ∀ scope ∈ scopes, IsScope scope)
    (hne : scopes ≠ []) :
    (∀ c ∈ (js " ").intercalate scopes, isPrintable c = true) ∧
      (js " ").intercalate scopes ≠ [] ∧
      ((js " ").intercalate scopes).head? ≠ some (unit ' ') ∧
      ((js " ").intercalate scopes).getLast? ≠ some (unit ' ') := by
  induction scopes with
  | nil => exact absurd rfl hne
  | cons scope scopes ih =>
    rw [List.forall_mem_cons] at hscopes
    obtain ⟨hscope, hscopes⟩ := hscopes
    have hhead : scope.head? ≠ some (unit ' ') := fun heq =>
      hscope.space (List.mem_of_mem_head? heq)
    cases scopes with
    | nil =>
      rw [List.intercalate_singleton]
      exact ⟨hscope.printable, hscope.nonempty, hhead, fun heq =>
        hscope.space (List.mem_of_getLast? heq)⟩
    | cons next scopes =>
      obtain ⟨hprintable, hrest, -, hlast⟩ := ih hscopes (List.cons_ne_nil _ _)
      rw [List.intercalate_cons_cons]
      refine ⟨?_, ?_, ?_, ?_⟩
      · intro c hc
        rcases List.mem_append.mp hc with hc | hc
        · rcases List.mem_append.mp hc with hc | hc
          · exact hscope.printable c hc
          · rw [js_space, List.mem_singleton] at hc
            subst hc
            decide
        · exact hprintable c hc
      · simp [hscope.nonempty]
      · rw [List.append_assoc, List.head?_append_of_ne_nil _ hscope.nonempty]
        exact hhead
      · rw [List.getLast?_append_of_ne_nil _ hrest]
        exact hlast

theorem splitScopes_joined {scopes : List JsString} (hscopes : ∀ scope ∈ scopes, IsScope scope) :
    splitScopes ((js " ").intercalate scopes) = scopes := by
  rw [splitScopes_intercalate]
  calc scopes.flatMap splitScopes = scopes.flatMap fun scope => [scope] := by
        apply List.flatMap_congr
        intro scope hscope
        exact splitScopes_word (hscopes scope hscope).nonempty (hscopes scope hscope).space
    _ = scopes := List.flatMap_singleton' scopes

/-! ### Round trip -/

theorem stringItems_rolesValue (context : AuthContext) :
    (rolesValue context).stringItems = context.roles := by
  rw [rolesValue, JsonValue.stringItems, List.filterMap_map]
  exact List.filterMap_some

/-- Without a list of claims to propagate, all of them are written. -/
theorem headerText_claims : headerText json context none .claims =
    if context.claims = [] then none else limited (json.stringify (.object context.claims)) := by
  cases hclaims : context.claims <;> simp [headerText, propagated, hclaims]

/-- Every text that is written for such a context is stored unchanged. -/
theorem stored_headerText (hcontext : Transmissible json context)
    (hroles : Stored (json.stringify (rolesValue context)))
    (hclaims : Stored (json.stringify (.object context.claims))) (h : AuthHeader)
    (htext : headerText json context none h = some text) : Stored text := by
  cases h with
  | subject =>
    obtain rfl := Option.some.inj htext
    rw [hcontext.subject.sanitizeHeaderValue_eq]
    exact hcontext.subject.stored
  | type =>
    obtain rfl := Option.some.inj htext
    rw [hcontext.type.sanitizeHeaderValue_eq]
    exact hcontext.type.stored
  | name =>
    obtain ⟨name, hname, rfl⟩ := Option.map_eq_some_iff.mp htext
    have htidy := hcontext.name name (truthy_eq_some.mp hname).1
    rw [htidy.sanitizeHeaderValue_eq]
    exact htidy.stored
  | roles =>
    dsimp only [headerText] at htext
    split at htext
    · cases htext
    · rw [← rolesValue, limited_of_le hcontext.roles] at htext
      obtain rfl := Option.some.inj htext
      exact hroles
  | scopes =>
    dsimp only [headerText] at htext
    split at htext
    · cases htext
    next hne =>
      rw [limited_of_le hcontext.scopes] at htext
      obtain rfl := Option.some.inj htext
      obtain ⟨hprintable, -, hfirst, hlast⟩ := joined_scopes hcontext.scope hne
      exact stored_of_isPrintable hprintable hfirst hlast
  | claims =>
    rw [headerText_claims] at htext
    split at htext
    · cases htext
    · rw [limited_of_le hcontext.claims] at htext
      obtain rfl := Option.some.inj htext
      exact hclaims

/-- The empty text is no JSON. -/
theorem stringify_ne_nil {value read : JsonValue} (hempty : json.parse [] = none)
    (hparse : json.parse (json.stringify value) = some read) : json.stringify value ≠ [] := by
  intro heq
  rw [heq, hempty] at hparse
  cases hparse

theorem parseRoles_written (hempty : json.parse [] = none)
    (hsize : (json.stringify (rolesValue context)).length ≤ maxHeaderBytes)
    (hparse : json.parse (json.stringify (rolesValue context)) = some (rolesValue context)) :
    parseRoles json (headerText json context none .roles) = context.roles := by
  dsimp only [headerText]
  split
  next heq =>
    rw [heq]
    rfl
  next =>
    rw [← rolesValue, limited_of_le hsize, parseRoles,
      truthy_of_ne_nil (stringify_ne_nil hempty hparse), Option.bind_some, limited_of_le hsize]
    dsimp only
    rw [hparse]
    exact stringItems_rolesValue context

theorem parseClaims_written (hempty : json.parse [] = none)
    (hsize : (json.stringify (.object context.claims)).length ≤ maxHeaderBytes)
    (hparse : json.parse (json.stringify (.object context.claims)) =
      some (.object context.claims)) :
    parseClaims json (headerText json context none .claims) = context.claims := by
  rw [headerText_claims]
  split
  next heq =>
    rw [heq]
    rfl
  next =>
    rw [limited_of_le hsize, parseClaims, truthy_of_ne_nil (stringify_ne_nil hempty hparse),
      Option.bind_some, limited_of_le hsize]
    dsimp only
    rw [hparse]
    rfl

theorem parseScopes_written (hscopes : ∀ scope ∈ context.scopes, IsScope scope)
    (hsize : ((js " ").intercalate context.scopes).length ≤ maxHeaderBytes) :
    parseScopes (headerText json context none .scopes) = context.scopes := by
  dsimp only [headerText]
  split
  next heq =>
    rw [heq]
    rfl
  next => rw [limited_of_le hsize, parseScopes_some hsize, splitScopes_joined hscopes]

/-- What is written for such a context is read as the same context. -/
theorem parse_setAuthHeaders (hcontext : Transmissible json context)
    (hempty : json.parse [] = none)
    (hroles : json.parse (json.stringify (rolesValue context)) = some (rolesValue context))
    (hclaims : json.parse (json.stringify (.object context.claims)) =
      some (.object context.claims))
    (hrolesStored : Stored (json.stringify (rolesValue context)))
    (hclaimsStored : Stored (json.stringify (.object context.claims)))
    (hprior : ∀ h : AuthHeader, headers h.headerName = none) :
    ∃ out parsed, setAuthHeaders json headers context none = some out ∧
      parseAuthHeaders json out = some parsed ∧ parsed.subject = context.subject ∧
      parsed.type = context.type ∧ parsed.name = context.name ∧ parsed.roles = context.roles ∧
      parsed.scopes = context.scopes ∧ parsed.claims = context.claims := by
  have hstored : ∀ h text, headerText json context none h = some text → Stored text :=
    fun h _ => stored_headerText hcontext hrolesStored hclaimsStored h
  obtain ⟨out, hset⟩ := exists_setAuthHeaders headers hstored
  have hget (h : AuthHeader) : out.get h.headerName = headerText json context none h := by
    rw [get_setAuthHeaders hprior hset]
    cases htext : headerText json context none h with
    | none => rfl
    | some text => exact congrArg some (hstored h text htext).normalizeValue_eq
  have hsubject : truthy (headerText json context none .subject) = some context.subject := by
    rw [headerText, hcontext.subject.sanitizeHeaderValue_eq]
    exact truthy_of_ne_nil hcontext.subject.nonempty
  have htype : truthy (headerText json context none .type) = some context.type := by
    rw [headerText, hcontext.type.sanitizeHeaderValue_eq]
    exact truthy_of_ne_nil hcontext.type.nonempty
  have hname : (truthy (headerText json context none .name)).map (sanitizeHeaderValue · 256) =
      context.name := by
    rw [headerText]
    cases heq : context.name with
    | none => rfl
    | some name =>
      have htidy := hcontext.name name heq
      rw [truthy_of_ne_nil htidy.nonempty, Option.map_some, htidy.sanitizeHeaderValue_eq,
        truthy_of_ne_nil htidy.nonempty, Option.map_some, htidy.sanitizeHeaderValue_eq]
  have hparse : parseAuthHeaders json out = some { context with expiresAt := none } := by
    rw [parseAuthHeaders, hget, hget, hget, hget, hget, hget, hsubject, hname, htype,
      parseRoles_written hempty hcontext.roles hroles,
      parseScopes_written hcontext.scope hcontext.scopes,
      parseClaims_written hempty hcontext.claims hclaims, Option.map_some,
      hcontext.subject.sanitizeHeaderValue_eq]
    dsimp only
    rw [hcontext.type.sanitizeHeaderValue_eq]
  exact ⟨out, _, hset, hparse, rfl, rfl, rfl, rfl, rfl, rfl⟩

/-- A user with one role and one claim, and the texts of both. -/
def aliceOf (scopes : List JsString) : AuthContext where
  subject := js "alice"
  name := some (js "Alice A")
  roles := [js "admin"]
  scopes := scopes
  claims := [(js "org", .string (js "acme"))]
  type := js "jwt"

def aliceJson : Json where
  parse text :=
    if text = js "[\"admin\"]" then some (.array [.string (js "admin")])
    else if text = js "\x7b\"org\":\"acme\"\x7d" then
      some (.object [(js "org", .string (js "acme"))])
    else none
  stringify
    | .array _ => js "[\"admin\"]"
    | .object _ => js "\x7b\"org\":\"acme\"\x7d"
    | _ => js "null"

theorem parse_setAuthHeaders_alice :
    ∃ out parsed, setAuthHeaders aliceJson (fun _ => none) (aliceOf [js "read", js "write"]) none =
        some out ∧
      parseAuthHeaders aliceJson out = some parsed ∧ parsed.subject = js "alice" ∧
      parsed.type = js "jwt" ∧ parsed.name = some (js "Alice A") ∧ parsed.roles = [js "admin"] ∧
      parsed.scopes = [js "read", js "write"] ∧
      parsed.claims = [(js "org", .string (js "acme"))] := by
  have hname : Tidy (js "Alice A") 256 :=
    ⟨List.all_eq_true.mp (by decide), by decide, by decide, by decide, by decide⟩
  have hcontext : Transmissible aliceJson (aliceOf [js "read", js "write"]) :=
    { subject := ⟨List.all_eq_true.mp (by decide), by decide, by decide, by decide, by decide⟩
      type := ⟨List.all_eq_true.mp (by decide), by decide, by decide, by decide, by decide⟩
      name := fun name h => Option.some.inj h ▸ hname
      scope := by
        intro scope h
        rcases List.mem_pair.mp h with rfl | rfl
        · exact ⟨List.all_eq_true.mp (by decide), by decide, by decide⟩
        · exact ⟨List.all_eq_true.mp (by decide), by decide, by decide⟩
      roles := by decide
      scopes := by decide
      claims := by decide }
  have hroles : Stored (js "[\"admin\"]") :=
    stored_of_isPrintable (List.all_eq_true.mp (by decide)) (by decide) (by decide)
  have hclaims : Stored (js "\x7b\"org\":\"acme\"\x7d") :=
    stored_of_isPrintable (List.all_eq_true.mp (by decide)) (by decide) (by decide)
  exact parse_setAuthHeaders hcontext rfl rfl rfl hroles hclaims fun _ => rfl

/-! ### Containment -/

theorem eq_of_limited_truthy {raw : Option JsString} (h : (truthy raw).bind limited = some text) :
    raw = some text := by
  obtain ⟨value, hvalue, hlimited⟩ := Option.bind_eq_some_iff.mp h
  unfold limited at hlimited
  split at hlimited
  · obtain rfl := Option.some.inj hlimited
    exact (truthy_eq_some.mp hvalue).1
  · cases hlimited

theorem roles_contained (hroles : Reads json (rolesValue context) (rolesValue context)) :
    parseRoles json ((headerText json context propagatedClaims .roles).map normalizeValue) ⊆
      context.roles := by
  intro role hrole
  unfold parseRoles at hrole
  split at hrole
  · exact absurd hrole List.not_mem_nil
  next raw hraw =>
    have htext := eq_of_limited_truthy hraw
    dsimp only [headerText] at htext
    split at htext
    · cases htext
    rw [← rolesValue] at htext
    unfold limited at htext
    split at htext
    · rw [Option.map_some, hroles.text] at htext
      rw [← Option.some.inj htext, hroles.parse, Option.map_some, Option.getD_some,
        stringItems_rolesValue] at hrole
      exact hrole
    · cases htext

theorem mem_propagated {claim : JsString × JsonValue}
    (h : claim ∈ propagated context propagatedClaims) :
    claim ∈ context.claims ∧ ∀ list, propagatedClaims = some list → claim.1 ∈ list := by
  cases propagatedClaims with
  | none => exact ⟨h, fun list hlist => by cases hlist⟩
  | some list =>
    obtain ⟨hclaim, hlist⟩ := List.mem_filter.mp h
    exact ⟨hclaim, fun other hother => Option.some.inj hother ▸ of_decide_eq_true hlist⟩

theorem claims_contained {fields : List (JsString × JsonValue)}
    (hclaims : Reads json (.object (propagated context propagatedClaims)) (.object fields))
    (hfields : fields.map Prod.fst = (propagated context propagatedClaims).map Prod.fst)
    {key : JsString}
    (hkey : key ∈ (parseClaims json
      ((headerText json context propagatedClaims .claims).map normalizeValue)).map Prod.fst) :
    key ∈ (propagated context propagatedClaims).map Prod.fst := by
  unfold parseClaims at hkey
  split at hkey
  · exact absurd hkey List.not_mem_nil
  next raw hraw =>
    have htext := eq_of_limited_truthy hraw
    dsimp only [headerText] at htext
    split at htext
    · cases htext
    split at htext
    · cases htext
    unfold limited at htext
    split at htext
    · rw [Option.map_some, hclaims.text] at htext
      rw [← Option.some.inj htext, hclaims.parse] at hkey
      rw [← hfields]
      exact hkey
    · cases htext

/-- The scopes that arrive are the words of those that have been sent. -/
theorem parseScopes_headerText :
    parseScopes ((headerText json context propagatedClaims .scopes).map normalizeValue) =
      if ((js " ").intercalate context.scopes).length ≤ maxHeaderBytes then
        trimLast (trimFirst (context.scopes.flatMap splitScopes))
      else [] := by
  dsimp only [headerText]
  by_cases hnil : context.scopes = []
  · rw [hnil]
    decide
  · rw [if_neg hnil]
    by_cases hsize : ((js " ").intercalate context.scopes).length ≤ maxHeaderBytes
    · rw [limited_of_le hsize, Option.map_some, if_pos hsize,
        parseScopes_some (length_normalizeValue_le.trans hsize), splitScopes_normalizeValue,
        splitScopes_intercalate]
    · rw [if_neg hsize, limited, if_neg hsize]
      rfl

/-- Roles and claims never grow on their way, and scopes do not if and only if the words of scopes
are scopes. -/
theorem propagation_contained_iff (hprior : ∀ h : AuthHeader, headers h.headerName = none)
    (hset : setAuthHeaders json headers context propagatedClaims = some out)
    (hparse : parseAuthHeaders json out = some parsed)
    (hroles : Reads json (rolesValue context) (rolesValue context))
    (hclaims : ∃ fields,
      Reads json (.object (propagated context propagatedClaims)) (.object fields) ∧
        fields.map Prod.fst = (propagated context propagatedClaims).map Prod.fst) :
    (parsed.roles ⊆ context.roles ∧ parsed.scopes ⊆ context.scopes ∧
      ∀ key ∈ parsed.claims.map Prod.fst, key ∈ context.claims.map Prod.fst ∧
        ∀ list, propagatedClaims = some list → key ∈ list) ↔
      ScopesClosed context.scopes := by
  obtain ⟨subject, -, hparsed⟩ := Option.map_eq_some_iff.mp hparse
  subst hparsed
  dsimp only
  rw [get_setAuthHeaders hprior hset, get_setAuthHeaders hprior hset,
    get_setAuthHeaders hprior hset, parseScopes_headerText]
  constructor
  · intro ⟨_, hscopes, _⟩ hsize
    rw [if_pos hsize] at hscopes
    exact hscopes
  · intro hclosed
    refine ⟨roles_contained hroles, ?_, ?_⟩
    · split
      next hsize => exact hclosed hsize
      next => exact List.nil_subset _
    · intro key hkey
      obtain ⟨fields, hreads, hfields⟩ := hclaims
      have hmem := claims_contained hreads hfields hkey
      obtain ⟨claim, hclaim, rfl⟩ := List.mem_map.mp hmem
      obtain ⟨hcontext, hlist⟩ := mem_propagated hclaim
      exact ⟨List.mem_map_of_mem hcontext, hlist⟩

theorem reads_roles (scopes : List JsString) :
    Reads aliceJson (rolesValue (aliceOf scopes)) (rolesValue (aliceOf scopes)) := by
  have htext : normalizeValue (js "[\"admin\"]") = js "[\"admin\"]" := by decide
  exact ⟨rfl, htext⟩

theorem reads_claims (scopes : List JsString) : ∃ fields,
    Reads aliceJson (.object (propagated (aliceOf scopes) none)) (.object fields) ∧
      fields.map Prod.fst = (propagated (aliceOf scopes) none).map Prod.fst := by
  have htext : normalizeValue (js "\x7b\"org\":\"acme\"\x7d") =
      js "\x7b\"org\":\"acme\"\x7d" := by decide
  exact ⟨_, ⟨rfl, htext⟩, rfl⟩

theorem propagation_contained_iff_alice :
    ∃ out parsed, setAuthHeaders aliceJson (fun _ => none) (aliceOf [js "read", js "write"]) none =
        some out ∧
      parseAuthHeaders aliceJson out = some parsed ∧
      ((parsed.roles ⊆ [js "admin"] ∧ parsed.scopes ⊆ [js "read", js "write"] ∧
        ∀ key ∈ parsed.claims.map Prod.fst, key ∈ [js "org"] ∧
          ∀ list : List JsString, none = some list → key ∈ list) ↔
        ScopesClosed [js "read", js "write"]) :=
  ⟨_, _, rfl, rfl, propagation_contained_iff (fun _ => rfl) rfl rfl (reads_roles _)
    (reads_claims _)⟩

/-- A scope with a space arrives as two scopes, one of which can grant more. -/
theorem scope_splits :
    ¬ ∀ (json : Json) (headers out : Headers) (context parsed : AuthContext)
      (propagatedClaims : Option (List JsString)),
      (∀ h : AuthHeader, headers h.headerName = none) →
      setAuthHeaders json headers context propagatedClaims = some out →
      parseAuthHeaders json out = some parsed →
      Reads json (rolesValue context) (rolesValue context) →
      (∃ fields, Reads json (.object (propagated context propagatedClaims)) (.object fields) ∧
        fields.map Prod.fst = (propagated context propagatedClaims).map Prod.fst) →
      parsed.roles ⊆ context.roles ∧ parsed.scopes ⊆ context.scopes ∧
        ∀ key ∈ parsed.claims.map Prod.fst, key ∈ context.claims.map Prod.fst ∧
          ∀ list, propagatedClaims = some list → key ∈ list := by
  intro h
  have hcontained := h aliceJson (fun _ => none) _ (aliceOf [js "read admin"]) _ none (fun _ => rfl)
    rfl rfl (reads_roles _) (reads_claims _)
  have hadmin : js "admin" ∈ [js "read admin"] := hcontained.2.1 (by decide)
  exact absurd hadmin (by decide)

end Connectum.Auth
