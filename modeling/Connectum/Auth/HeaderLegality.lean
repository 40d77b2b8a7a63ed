import Connectum.Auth.Propagation
import Connectum.JsonText

/-! When the propagation of a context writes legal header values only. -/
namespace Connectum.Auth
open JsString

/-- Bytes other than NUL, with line breaks only where nothing but whitespace is on one of their
sides. -/
structure Sendable (text : JsString) : Prop where
  bytes : ∀ c ∈ text, c ≤ 0xFF ∧ c ≠ 0x00
  breaks : ∀ before c after, text = before ++ c :: after → c = 0x0A ∨ c = 0x0D →
    (∀ d ∈ before, isHttpWhitespace d = true) ∨ ∀ d ∈ after, isHttpWhitespace d = true

/-- The first units of a text without the control characters that are removed. -/
def leading (text : JsString) (maxLength : ℕ) : JsString :=
  (text.filter fun c => !isRemovedControl c).take maxLength

/-- A context that is propagated without an error. Roles and claims are sent as JSON, which has no
line breaks; texts that are too long are not sent. -/
structure Propagable (context : AuthContext) (propagatedClaims : Option (List JsString)) :
    Prop where
  subject : Sendable (leading context.subject 512)
  type : Sendable (leading context.type 128)
  name : ∀ name, context.name = some name → Sendable (leading name 256)
  scopes : ((js " ").intercalate context.scopes).length ≤ maxHeaderBytes →
    Sendable ((js " ").intercalate context.scopes)
  roles : (rolesValue context).stringify.length ≤ maxHeaderBytes →
    ∀ role ∈ context.roles, Narrow role
  claims : (JsonValue.object (propagated context propagatedClaims)).stringify.length ≤
    maxHeaderBytes → ∀ claim ∈ propagated context propagatedClaims,
      Narrow claim.1 ∧ ∀ s ∈ claim.2.strings, Narrow s

section Trim

variable {p : UInt16 → Bool} {s : JsString}

/-- What is left of a text between what is trimmed. -/
theorem exists_trim (p : UInt16 → Bool) (s : JsString) : ∃ front back,
    s = front ++ ((s.dropWhile p).rdropWhile p ++ back) ∧
      (∀ c ∈ front, p c = true) ∧ (∀ c ∈ back, p c = true) ∧
      (∀ c, ((s.dropWhile p).rdropWhile p).head? = some c → p c = false) ∧
      (∀ c, ((s.dropWhile p).rdropWhile p).getLast? = some c → p c = false) := by
  refine ⟨s.takeWhile p, (s.dropWhile p).rtakeWhile p, ?_, ?_, ?_, ?_, ?_⟩
  · rw [List.rdropWhile_append_rtakeWhile, List.takeWhile_append_dropWhile]
  · exact fun c hc => List.mem_takeWhile_imp hc
  · exact fun c hc => List.mem_rtakeWhile_imp hc
  · intro c hc
    obtain ⟨back, hback⟩ := List.rdropWhile_prefix p (s.dropWhile p)
    have hhead : (s.dropWhile p).head? = some c := by
      rw [← hback, List.head?_append, hc]
      rfl
    have hnot := List.head?_dropWhile_not p s
    rwa [hhead] at hnot
  · intro c hc
    have hne : (s.dropWhile p).rdropWhile p ≠ [] := by
      intro hnil
      rw [hnil] at hc
      cases hc
    have hlast := List.rdropWhile_last_not p (s.dropWhile p) hne
    rw [List.getLast?_eq_getLast_of_ne_nil hne] at hc
    rw [Option.some.inj hc] at hlast
    exact Bool.eq_false_iff.mpr hlast

theorem isHttpWhitespace_iff {c : UInt16} :
    isHttpWhitespace c = true ↔ c = 0x09 ∨ c = 0x0A ∨ c = 0x0D ∨ c = 0x20 := by
  simp [isHttpWhitespace, or_assoc]

theorem byte_of_isHttpWhitespace {c : UInt16} (h : isHttpWhitespace c = true) :
    c ≤ 0xFF ∧ c ≠ 0x00 := by
  rcases isHttpWhitespace_iff.mp h with rfl | rfl | rfl | rfl <;> decide

theorem isHttpWhitespace_of_break {c : UInt16} (h : c = 0x0A ∨ c = 0x0D) :
    isHttpWhitespace c = true := by
  rcases h with rfl | rfl <;> decide

/-- Where a unit of a text in three parts stands. -/
theorem append_cases {front middle back before after : JsString} {c : UInt16}
    (h : front ++ (middle ++ back) = before ++ c :: after) :
    (∃ rest, front = before ++ c :: rest) ∨
      (∃ first last, middle = first ++ c :: last ∧ before = front ++ first ∧
        after = last ++ back) ∨
      ∃ rest, back = rest ++ c :: after := by
  rcases List.append_eq_append_iff.mp h with ⟨first, hbefore, hrest⟩ | ⟨rest, hfront, hrest⟩
  · rcases List.append_eq_append_iff.mp hrest with ⟨rest, -, hback⟩ | ⟨last, hmiddle, hlast⟩
    · exact .inr (.inr ⟨rest, hback⟩)
    · cases last with
      | nil => exact .inr (.inr ⟨[], hlast.symm⟩)
      | cons d last =>
        obtain ⟨rfl, hafter⟩ := List.cons.inj hlast
        exact .inr (.inl ⟨first, last, hmiddle, hbefore, hafter⟩)
  · cases rest with
    | nil =>
      cases middle with
      | nil => exact .inr (.inr ⟨[], hrest.symm⟩)
      | cons d middle =>
        obtain ⟨rfl, hafter⟩ := List.cons.inj hrest
        rw [List.append_nil] at hfront
        exact .inr (.inl ⟨[], middle, rfl, by rw [List.append_nil, hfront], hafter⟩)
    | cons d rest =>
      obtain ⟨rfl, -⟩ := List.cons.inj hrest
      exact .inl ⟨rest, hfront⟩

/-- Whitespace around a header value can be sent. -/
theorem sendable_append {front middle back : JsString}
    (hfront : ∀ c ∈ front, isHttpWhitespace c = true)
    (hback : ∀ c ∈ back, isHttpWhitespace c = true) (hvalue : isHeaderValue middle = true) :
    Sendable (front ++ (middle ++ back)) := by
  unfold isHeaderValue at hvalue
  rw [List.all_eq_true] at hvalue
  simp only [decide_eq_true_eq] at hvalue
  have hbytes : ∀ c ∈ middle, c ≤ 0xFF ∧ c ≠ 0x00 := fun c hc =>
    ⟨(hvalue c hc).1, (hvalue c hc).2.1⟩
  constructor
  · rw [List.forall_mem_append, List.forall_mem_append]
    exact ⟨fun c hc => byte_of_isHttpWhitespace (hfront c hc), hbytes,
      fun c hc => byte_of_isHttpWhitespace (hback c hc)⟩
  · intro before c after heq hbreak
    rcases append_cases heq with ⟨rest, rfl⟩ | ⟨first, last, rfl, -, -⟩ | ⟨rest, rfl⟩
    · exact .inl fun d hd => hfront d (List.mem_append_left _ hd)
    · obtain ⟨-, -, hlf, hcr⟩ := hvalue c (List.mem_append_right _ List.mem_cons_self)
      exact absurd hbreak (not_or.mpr ⟨hlf, hcr⟩)
    · exact .inr fun d hd => hback d (List.mem_append_right _ (List.mem_cons_of_mem _ hd))

/-- What neither begins nor ends with whitespace has no line break if it can be sent. -/
theorem isHeaderValue_of_sendable {front middle back : JsString}
    (hhead : ∀ c, middle.head? = some c → isHttpWhitespace c = false)
    (hlast : ∀ c, middle.getLast? = some c → isHttpWhitespace c = false)
    (hsend : Sendable (front ++ (middle ++ back))) : isHeaderValue middle = true := by
  unfold isHeaderValue
  rw [List.all_eq_true]
  intro c hc
  obtain ⟨hbyte, hnul⟩ := hsend.bytes c (List.mem_append_right _ (List.mem_append_left _ hc))
  rw [decide_eq_true_eq]
  refine ⟨hbyte, hnul, not_or.mp ?_⟩
  intro hbreak
  have hspace := isHttpWhitespace_of_break hbreak
  obtain ⟨first, last, rfl⟩ := List.append_of_mem hc
  have heq : front ++ ((first ++ c :: last) ++ back) = (front ++ first) ++ c :: (last ++ back) := by
    rw [List.append_assoc, List.append_assoc, List.cons_append]
  -- one side of the break is whitespace, so the middle begins or ends with whitespace
  rcases hsend.breaks _ c _ heq hbreak with hbefore | hafter
  · cases first with
    | nil => exact absurd (hhead c rfl) (by rw [hspace]; decide)
    | cons d first =>
      have hd := hbefore d (List.mem_append_right _ List.mem_cons_self)
      exact absurd (hhead d rfl) (by rw [hd]; decide)
  · have hall : ∀ d ∈ c :: last, isHttpWhitespace d = true := by
      rw [List.forall_mem_cons]
      exact ⟨hspace, fun d hd => hafter d (List.mem_append_left _ hd)⟩
    have hend : (first ++ c :: last).getLast? = some ((c :: last).getLast (by simp)) := by
      rw [List.getLast?_append_of_ne_nil _ (by simp), List.getLast?_eq_getLast_of_ne_nil]
    have hd := hall _ (List.getLast_mem (List.cons_ne_nil c last))
    exact absurd (hlast _ hend) (by rw [hd]; decide)

/-- A text becomes a header value if and only if it is sendable. -/
theorem isHeaderValue_normalizeValue_iff :
    isHeaderValue (normalizeValue s) = true ↔ Sendable s := by
  obtain ⟨front, back, hs, hfront, hback, hhead, hlast⟩ := exists_trim isHttpWhitespace s
  constructor
  · intro hvalue
    rw [hs]
    exact sendable_append hfront hback hvalue
  · intro hsend
    rw [hs] at hsend
    exact isHeaderValue_of_sendable hhead hlast hsend

theorem ofJs_ne_none_iff : HeaderValue.ofJs s ≠ none ↔ Sendable s := by
  rw [← isHeaderValue_normalizeValue_iff, HeaderValue.ofJs]
  split
  next h => exact iff_of_true (Option.some_ne_none _) h
  next h => exact iff_of_false (fun hne => hne rfl) h

end Trim

/-- There are no line breaks in JSON. -/
theorem sendable_stringify_iff (value : JsonValue) :
    Sendable value.stringify ↔ ∀ s ∈ value.strings, Narrow s := by
  rw [← value.forall_mem_stringify_le]
  have hprinted := value.ge_of_mem_stringify
  constructor
  · intro hsend c hc
    exact (hsend.bytes c hc).1
  · intro hbytes
    constructor
    · intro c hc
      refine ⟨hbytes c hc, ?_⟩
      rintro rfl
      exact absurd (hprinted _ hc) (by decide)
    · intro before c after heq hbreak
      have hc := hprinted c (by
        rw [heq]
        exact List.mem_append_right _ List.mem_cons_self)
      rcases hbreak with rfl | rfl <;> exact absurd hc (by decide)

theorem sendable_nil : Sendable [] := isHeaderValue_normalizeValue_iff.mp rfl

variable {json : Json} {headers : Headers} {context : AuthContext}
  {propagatedClaims : Option (List JsString)} {text : JsString}

theorem setAuthHeaders_isSome : (setAuthHeaders json headers context propagatedClaims).isSome = true ↔
    ∀ h text, headerText json context propagatedClaims h = some text → Sendable text := by
  rw [Option.isSome_iff_ne_none, setAuthHeaders, ne_eq, Headers.setEach_eq_none, not_exists]
  constructor
  · intro hnone h text htext
    apply ofJs_ne_none_iff.mp
    intro hvalue
    exact hnone (h.headerName, text) ⟨mem_authWrites.mpr htext, hvalue⟩
  · intro hsend write ⟨hmem, hvalue⟩
    obtain ⟨h, htext⟩ := exists_of_mem_authWrites hmem
    exact ofJs_ne_none_iff.mpr (hsend h write.2 htext) hvalue

/-- What is too long is not sent. -/
theorem forall_limited_iff :
    (∀ sent, limited text = some sent → Sendable sent) ↔
      (text.length ≤ maxHeaderBytes → Sendable text) := by
  unfold limited
  split
  next h => simp [h]
  next h => simp [h]

theorem forall_name_iff :
    (∀ text, headerText json context propagatedClaims .name = some text → Sendable text) ↔
      ∀ name, context.name = some name → Sendable (leading name 256) := by
  rw [headerText]
  constructor
  · intro hsend name hname
    by_cases hempty : name = []
    · rw [hempty]
      exact sendable_nil
    · apply hsend
      rw [truthy_eq_some.mpr ⟨hname, hempty⟩]
      rfl
  · intro hsend text htext
    obtain ⟨name, hname, rfl⟩ := Option.map_eq_some_iff.mp htext
    exact hsend name (truthy_eq_some.mp hname).1

theorem forall_scopes_iff :
    (∀ text, headerText json context propagatedClaims .scopes = some text → Sendable text) ↔
      (((js " ").intercalate context.scopes).length ≤ maxHeaderBytes →
        Sendable ((js " ").intercalate context.scopes)) := by
  rw [headerText]
  split
  next hempty =>
    rw [hempty]
    exact iff_of_true (fun text htext => by cases htext) fun _ => sendable_nil
  next => exact forall_limited_iff

theorem forall_roles_iff (parse : JsString → Option JsonValue) :
    (∀ text, headerText ⟨parse, JsonValue.stringify⟩ context propagatedClaims .roles = some text →
        Sendable text) ↔
      ((rolesValue context).stringify.length ≤ maxHeaderBytes →
        ∀ role ∈ context.roles, Narrow role) := by
  rw [headerText]
  split
  next hempty =>
    rw [hempty]
    exact iff_of_true (fun text htext => by cases htext) fun _ role hrole =>
      absurd hrole List.not_mem_nil
  next =>
    have hroles : Sendable (rolesValue context).stringify ↔ ∀ role ∈ context.roles, Narrow role := by
      rw [sendable_stringify_iff, rolesValue, JsonValue.strings, JsonValue.itemStrings_map_string]
    rw [← hroles]
    exact forall_limited_iff

theorem forall_claims_iff (parse : JsString → Option JsonValue) :
    (∀ text, headerText ⟨parse, JsonValue.stringify⟩ context propagatedClaims .claims = some text →
        Sendable text) ↔
      ((JsonValue.object (propagated context propagatedClaims)).stringify.length ≤ maxHeaderBytes →
        ∀ claim ∈ propagated context propagatedClaims,
          Narrow claim.1 ∧ ∀ s ∈ claim.2.strings, Narrow s) := by
  rw [headerText]
  have hclaims : Sendable (JsonValue.object (propagated context propagatedClaims)).stringify ↔
      ∀ claim ∈ propagated context propagatedClaims,
        Narrow claim.1 ∧ ∀ s ∈ claim.2.strings, Narrow s := by
    rw [sendable_stringify_iff, JsonValue.strings, JsonValue.forall_mem_fieldStrings]
  split
  next hempty =>
    have hnone : propagated context propagatedClaims = [] := by
      rw [List.isEmpty_iff] at hempty
      cases propagatedClaims with
      | none => exact hempty
      | some keys => rw [propagated, hempty, List.filter_nil]
    rw [hnone]
    exact iff_of_true (fun text htext => by cases htext) fun _ claim hclaim =>
      absurd hclaim List.not_mem_nil
  next =>
    split
    next hempty =>
      rw [List.isEmpty_iff.mp hempty]
      exact iff_of_true (fun text htext => by cases htext) fun _ claim hclaim =>
        absurd hclaim List.not_mem_nil
    next =>
      rw [← hclaims]
      exact forall_limited_iff

/-- The propagation does not throw, and writes legal values only, if and only if the context is
propagable. -/
theorem setAuthHeaders_legal_iff (parse : JsString → Option JsonValue) (headers : Headers)
    (context : AuthContext) (propagatedClaims : Option (List JsString)) :
    ((setAuthHeaders ⟨parse, JsonValue.stringify⟩ headers context propagatedClaims).isSome = true ∧
        ∀ write ∈ authWrites ⟨parse, JsonValue.stringify⟩ context propagatedClaims,
          isHeaderValue (normalizeValue write.2) = true) ↔
      Propagable context propagatedClaims := by
  have hlegal : (setAuthHeaders ⟨parse, JsonValue.stringify⟩ headers context
      propagatedClaims).isSome = true →
      ∀ write ∈ authWrites ⟨parse, JsonValue.stringify⟩ context propagatedClaims,
        isHeaderValue (normalizeValue write.2) = true := by
    intro hset write hmem
    obtain ⟨h, htext⟩ := exists_of_mem_authWrites hmem
    exact isHeaderValue_normalizeValue_iff.mpr (setAuthHeaders_isSome.mp hset h write.2 htext)
  rw [and_iff_left_of_imp hlegal, setAuthHeaders_isSome]
  constructor
  · intro hsend
    exact {
      subject := hsend .subject _ rfl
      type := hsend .type _ rfl
      name := forall_name_iff.mp (hsend .name)
      scopes := forall_scopes_iff.mp (hsend .scopes)
      roles := (forall_roles_iff parse).mp (hsend .roles)
      claims := (forall_claims_iff parse).mp (hsend .claims) }
  · intro hcontext h
    cases h with
    | subject =>
      intro text htext
      obtain rfl := Option.some.inj htext
      exact hcontext.subject
    | type =>
      intro text htext
      obtain rfl := Option.some.inj htext
      exact hcontext.type
    | name => exact forall_name_iff.mpr hcontext.name
    | scopes => exact forall_scopes_iff.mpr hcontext.scopes
    | roles => exact (forall_roles_iff parse).mpr hcontext.roles
    | claims => exact (forall_claims_iff parse).mpr hcontext.claims

/-- LF is no control character that is removed, and no header value has one inside. -/
theorem line_feed_subject_throws :
    setAuthHeaders ⟨fun _ => none, JsonValue.stringify⟩ (fun _ => none)
      { subject := js "a\nb", name := none, roles := [], scopes := [], claims := [],
        type := js "jwt" } none = none := by
  rfl

end Connectum.Auth
