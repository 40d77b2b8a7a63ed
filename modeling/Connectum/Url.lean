import Mathlib.Data.List.DropRight
import Mathlib.Data.List.TakeDrop
import Mathlib.Tactic.Common

/-! The parser of the URL standard, as far as its failures and the query go. What its host parser
accepts in a special or a non-special URL is a parameter. -/

structure Url where
  scheme : List Char
  opaquePath : Bool
  query : Option (List Char)
  deriving DecidableEq, Repr

namespace Url

def isC0ControlOrSpace (c : Char) : Bool := c.toNat ≤ 0x20

def isTabOrNewline (c : Char) : Bool := c = '\t' || c = '\n' || c = '\r'

/-- The input without what the parser ignores. -/
def clean (input : List Char) : List Char :=
  ((input.dropWhile isC0ControlOrSpace).rdropWhile isC0ControlOrSpace).filter
    fun c => ! isTabOrNewline c

def file : List Char := ['f', 'i', 'l', 'e']

def isSpecial (scheme : List Char) : Bool :=
  [['f', 't', 'p'], file, ['h', 't', 't', 'p'], ['h', 't', 't', 'p', 's'], ['w', 's'],
    ['w', 's', 's']].contains scheme

def isSchemeChar (c : Char) : Bool := c.isAlphanum || c = '+' || c = '-' || c = '.'

/-- The scheme, and the rest after its colon. -/
def splitScheme (input : List Char) : Option (List Char × List Char) :=
  match input.head?.map Char.isAlpha, input.span isSchemeChar with
  | some true, (scheme, ':' :: rest) => some (scheme.map Char.toLower, rest)
  | _, _ => none

/-- In a special URL a backslash is a slash. -/
def isSlash (special : Bool) (c : Char) : Bool := c = '/' || (special && c = '\\')

def endsAuthority (special : Bool) (c : Char) : Bool := isSlash special c || c = '?' || c = '#'

/-- The query, between the first `?` and the fragment. -/
def queryOf (rest : List Char) : Option (List Char) :=
  match (rest.takeWhile (· ≠ '#')).dropWhile (· ≠ '?') with
  | [] => none
  | _ :: query => some query

/-- The host, and the port after its colon. A colon in brackets is the host's. -/
def splitPort (insideBrackets : Bool) : List Char → List Char × Option (List Char)
  | [] => ([], none)
  | c :: rest =>
    if c = ':' ∧ ¬ insideBrackets then ([], some rest)
    else
      let insideBrackets := if c = '[' then true else if c = ']' then false else insideBrackets
      let (host, port) := splitPort insideBrackets rest
      (c :: host, port)

def isPort (port : List Char) : Bool :=
  port.all Char.isDigit && port.foldl (fun n c => 10 * n + (c.toNat - '0'.toNat)) 0 ≤ 65535

variable (parseHost : Bool → List Char → Bool)

def isAuthority (special : Bool) (authority : List Char) : Bool :=
  let hostAndPort := authority.rtakeWhile (· ≠ '@')
  let (host, port) := splitPort false hostAndPort
  !('@' ∈ authority && hostAndPort.isEmpty) && !(host.isEmpty && (special || port.isSome)) &&
    parseHost special host && isPort (port.getD [])

def isWindowsDriveLetter : List Char → Bool
  | [c, d] => c.isAlpha && (d = ':' || d = '|')
  | _ => false

def isFileHost (host : List Char) : Bool :=
  isWindowsDriveLetter host || host.isEmpty || parseHost true host

/-- A URL with an authority and what follows it. -/
def withAuthority (scheme rest : List Char) : Option Url :=
  let special := isSpecial scheme
  if isAuthority parseHost special (rest.takeWhile fun c => ! endsAuthority special c) then
    some ⟨scheme, false, queryOf rest⟩
  else none

/-- However many slashes there are before the authority. -/
def withSpecialAuthority (scheme rest : List Char) : Option Url :=
  withAuthority parseHost scheme (rest.dropWhile (isSlash true))

/-- A relative reference that changes neither path nor query keeps the query of its base. -/
def inheritsQuery (rest : List Char) : Bool := rest.isEmpty || rest.head? = some '#'

/-- A reference without an authority. -/
def withoutAuthority (base : Url) (rest : List Char) : Url :=
  ⟨base.scheme, false, if inheritsQuery rest then base.query else queryOf rest⟩

/-- A URL of the scheme of its base, which is not `file`. -/
def relative (base : Url) (rest : List Char) : Option Url :=
  let special := isSpecial base.scheme
  match rest with
  | c :: d :: tail =>
    if isSlash special c && isSlash special d then
      if special then withSpecialAuthority parseHost base.scheme tail
      else withAuthority parseHost base.scheme tail
    else some (withoutAuthority base rest)
  | _ => some (withoutAuthority base rest)

def fileUrl (base : Option Url) (rest : List Char) : Option Url :=
  let url := match base with
    | some base => if base.scheme = file then withoutAuthority base rest
      else ⟨file, false, queryOf rest⟩
    | none => ⟨file, false, queryOf rest⟩
  match rest with
  | c :: d :: tail =>
    if isSlash true c && isSlash true d &&
        ! isFileHost parseHost (tail.takeWhile fun c => ! endsAuthority true c) then
      none
    else some url
  | _ => some url

/-- A URL with a scheme of its own. -/
def absolute (base : Option Url) (scheme rest : List Char) : Option Url :=
  if scheme = file then fileUrl parseHost base rest
  else if isSpecial scheme then
    match base with
    | some base =>
      if base.scheme = scheme then relative parseHost base rest
      else withSpecialAuthority parseHost scheme rest
    | none => withSpecialAuthority parseHost scheme rest
  else match rest with
    | '/' :: '/' :: tail => withAuthority parseHost scheme tail
    | '/' :: _ => some ⟨scheme, false, queryOf rest⟩
    | _ => some ⟨scheme, true, queryOf rest⟩

/-- The basic URL parser; `none` is its failure. -/
def parse (base : Option Url) (input : List Char) : Option Url :=
  let input := clean input
  match splitScheme input, base with
  | some (scheme, rest), _ => absolute parseHost base scheme rest
  | none, none => none
  | none, some base =>
    if base.opaquePath then
      if input.head? = some '#' then some base else none
    else if base.scheme = file then fileUrl parseHost (some base) input
    else relative parseHost base input

/-- `new URL(url, base)`; `none` is the `TypeError` that it throws. -/
def ofReference (url base : List Char) : Option Url :=
  (parse parseHost none base).bind fun base => parse parseHost (some base) url

variable {parseHost : Bool → List Char → Bool} {base u : Url} {rest input query : List Char}

theorem queryOf_cons {c : Char} (hquery : c ≠ '?') (hfragment : c ≠ '#') :
    queryOf (c :: rest) = queryOf rest := by
  simp [queryOf, hquery, hfragment]

theorem queryOf_append {s : List Char} (hquery : '?' ∉ s) (hfragment : '#' ∉ s) :
    queryOf (s ++ rest) = queryOf rest := by
  induction s with
  | nil => rfl
  | cons c s ih =>
    rw [List.mem_cons, not_or] at hquery hfragment
    rw [List.cons_append, queryOf_cons (Ne.symm hquery.1) (Ne.symm hfragment.1),
      ih hquery.2 hfragment.2]

theorem queryOf_dropWhile_isSlash : queryOf (rest.dropWhile (isSlash true)) = queryOf rest := by
  conv_rhs => rw [← List.takeWhile_append_dropWhile (p := isSlash true) (l := rest)]
  have hslash : ∀ c ∈ rest.takeWhile (isSlash true), isSlash true c = true :=
    fun c hc => List.mem_takeWhile_imp hc
  refine (queryOf_append (fun h => ?_) fun h => ?_).symm
  · exact absurd (hslash _ h) (by decide)
  · exact absurd (hslash _ h) (by decide)

/-- The query is that of the rest after the scheme. -/
theorem queryOf_splitScheme {scheme : List Char} (h : splitScheme input = some (scheme, rest)) :
    queryOf input = queryOf rest := by
  unfold splitScheme at h
  split at h
  next letters _ hhead hspan =>
    cases h
    rw [List.span_eq_takeWhile_dropWhile, Prod.mk.injEq] at hspan
    have hletters : ∀ c ∈ letters, isSchemeChar c = true :=
      fun c hc => List.mem_takeWhile_imp (hspan.1 ▸ hc)
    have hsplit : input = (letters ++ [':']) ++ rest := by
      rw [List.append_assoc, List.singleton_append, ← hspan.2, ← hspan.1,
        List.takeWhile_append_dropWhile]
    rw [hsplit]
    refine queryOf_append (fun h => ?_) fun h => ?_
    all_goals
      rcases List.mem_append.mp h with h | h
      · exact absurd (hletters _ h) (by decide)
      · exact absurd h (by decide)
  next => cases h

/-- The scheme before its colon. -/
theorem splitScheme_append (c : Char) (scheme rest : List Char) (hc : c.isAlpha = true)
    (hscheme : ∀ d ∈ c :: scheme, isSchemeChar d = true) :
    splitScheme (c :: scheme ++ ':' :: rest) = some ((c :: scheme).map Char.toLower, rest) := by
  have hspan : (c :: scheme ++ ':' :: rest).span isSchemeChar = (c :: scheme, ':' :: rest) := by
    rw [List.span_eq_takeWhile_dropWhile, List.takeWhile_append_of_pos hscheme,
      List.dropWhile_append_of_pos hscheme, List.takeWhile_cons_of_neg (by decide),
      List.dropWhile_cons_of_neg (by decide), List.append_nil]
  rw [splitScheme, hspan, List.cons_append, List.head?_cons, Option.map_some, hc]
  rfl

theorem inheritsQuery_of_queryOf (h : queryOf rest = some query) : inheritsQuery rest = false := by
  cases rest with
  | nil => cases h
  | cons c rest =>
    by_cases hc : c = '#'
    · subst hc
      cases h
    · simp [inheritsQuery, hc]

theorem query_withoutAuthority (h : queryOf rest = some query) :
    (withoutAuthority base rest).query = some query := by
  rw [withoutAuthority, inheritsQuery_of_queryOf h, ← h]
  rfl

theorem query_withAuthority {scheme : List Char}
    (h : withAuthority parseHost scheme rest = some u) : u.query = queryOf rest := by
  unfold withAuthority at h
  extract_lets special at h
  split at h
  next => cases h; rfl
  next => cases h

theorem query_withSpecialAuthority {scheme : List Char}
    (h : withSpecialAuthority parseHost scheme rest = some u) : u.query = queryOf rest := by
  rw [query_withAuthority h, queryOf_dropWhile_isSlash]

/-- A slash, or in a special URL a backslash, opens no query. -/
theorem queryOf_cons_isSlash {special : Bool} {c : Char} (h : isSlash special c = true) :
    queryOf (c :: rest) = queryOf rest := by
  refine queryOf_cons ?_ ?_
  · rintro rfl
    cases special <;> cases h
  · rintro rfl
    cases special <;> cases h

theorem query_relative (h : relative parseHost base rest = some u)
    (hquery : queryOf rest = some query) : u.query = some query := by
  have hplain : (withoutAuthority base rest).query = some query := query_withoutAuthority hquery
  unfold relative at h
  extract_lets special at h
  split at h
  next c d tail =>
    split at h
    next hslash =>
      rw [Bool.and_eq_true] at hslash
      rw [queryOf_cons_isSlash hslash.1, queryOf_cons_isSlash hslash.2] at hquery
      split at h
      next => rw [query_withSpecialAuthority h, hquery]
      next => rw [query_withAuthority h, hquery]
    next => cases h; exact hplain
  next => cases h; exact hplain

theorem query_fileUrl {base : Option Url} (h : fileUrl parseHost base rest = some u)
    (hquery : queryOf rest = some query) : u.query = some query := by
  unfold fileUrl at h
  extract_lets url at h
  have hurl : url.query = some query := by
    unfold url
    split
    next base =>
      split
      next => exact query_withoutAuthority hquery
      next => exact hquery
    next => exact hquery
  split at h
  next =>
    split at h
    next => cases h
    next => exact Option.some.inj h ▸ hurl
  next => exact Option.some.inj h ▸ hurl

theorem query_absolute {base : Option Url} {scheme : List Char}
    (h : absolute parseHost base scheme rest = some u) (hquery : queryOf rest = some query) :
    u.query = some query := by
  unfold absolute at h
  split at h
  next => exact query_fileUrl h hquery
  next =>
    split at h
    next =>
      split at h
      next =>
        split at h
        next => exact query_relative h hquery
        next => rw [query_withSpecialAuthority h, hquery]
      next => rw [query_withSpecialAuthority h, hquery]
    next =>
      split at h
      next tail =>
        rw [query_withAuthority h, ← hquery]
        exact (queryOf_append (s := ['/', '/']) (by decide) (by decide)).symm
      next => cases h; exact hquery
      next => cases h; exact hquery

/-- A URL that is parsed has the query of the input, if the input has one. -/
theorem query_parse {base : Option Url} (h : parse parseHost base input = some u)
    (hquery : queryOf (clean input) = some query) : u.query = some query := by
  unfold parse at h
  extract_lets cleaned at h
  split at h
  next scheme rest hscheme =>
    rw [queryOf_splitScheme hscheme] at hquery
    exact query_absolute h hquery
  next => cases h
  next base hscheme =>
    split at h
    next =>
      split at h
      next hhead =>
        have hinherits := inheritsQuery_of_queryOf hquery
        rw [inheritsQuery, Bool.or_eq_false_iff] at hinherits
        exact absurd hhead (of_decide_eq_false hinherits.2)
      next => cases h
    next =>
      split at h
      next => exact query_fileUrl h hquery
      next => exact query_relative h hquery

theorem isTabOrNewline_of_not_isC0ControlOrSpace {c : Char} (h : isC0ControlOrSpace c = false) :
    isTabOrNewline c = false := by
  rw [isTabOrNewline, Bool.or_eq_false_iff, Bool.or_eq_false_iff]
  refine ⟨⟨decide_eq_false ?_, decide_eq_false ?_⟩, decide_eq_false ?_⟩
  all_goals
    rintro rfl
    exact absurd h (by decide)

theorem filter_isTabOrNewline {s : List Char} (hs : ∀ c ∈ s, isC0ControlOrSpace c = false) :
    s.filter (fun c => ! isTabOrNewline c) = s := by
  refine List.filter_eq_self.mpr fun c hc => ?_
  rw [isTabOrNewline_of_not_isC0ControlOrSpace (hs c hc)]
  rfl

theorem rdropWhile_append {p : Char → Bool} {s : List Char} (hs : ∀ c ∈ s, p c = false)
    (t : List Char) : (s ++ t).rdropWhile p = s ++ t.rdropWhile p := by
  induction t using List.reverseRecOn with
  | nil =>
    rw [List.append_nil, List.rdropWhile_nil, List.append_nil, List.rdropWhile_eq_self_iff]
    intro hne
    rw [hs _ (List.getLast_mem hne)]
    decide
  | append_singleton t c ih =>
    rw [← List.append_assoc, List.rdropWhile_concat, List.rdropWhile_concat, ih]
    split
    · rfl
    · rw [List.append_assoc]

/-- Text before which nothing is ignored stays. -/
theorem clean_append {s : List Char} (hne : s ≠ []) (hs : ∀ c ∈ s, isC0ControlOrSpace c = false)
    (t : List Char) : clean (s ++ t) =
      s ++ (t.rdropWhile isC0ControlOrSpace).filter fun c => ! isTabOrNewline c := by
  obtain ⟨c, s, rfl⟩ := List.exists_cons_of_ne_nil hne
  rw [clean, List.cons_append, List.dropWhile_cons_of_neg (by rw [hs c List.mem_cons_self]; decide),
    ← List.cons_append, rdropWhile_append hs, List.filter_append, filter_isTabOrNewline hs]

/-- Text after which nothing is ignored stays. -/
theorem clean_append_of_last (s : List Char) {t : List Char} (hne : t ≠ [])
    (ht : ∀ c ∈ t, isC0ControlOrSpace c = false) : clean (s ++ t) =
      (s.dropWhile isC0ControlOrSpace).filter (fun c => ! isTabOrNewline c) ++ t := by
  have hdrop : t.dropWhile isC0ControlOrSpace = t := by
    obtain ⟨c, t, rfl⟩ := List.exists_cons_of_ne_nil hne
    rw [List.dropWhile_cons_of_neg (by rw [ht c List.mem_cons_self]; decide)]
  have hstart : (s ++ t).dropWhile isC0ControlOrSpace = s.dropWhile isC0ControlOrSpace ++ t := by
    rw [List.dropWhile_append, hdrop]
    split
    next h => rw [List.isEmpty_iff.mp h, List.nil_append]
    next => rfl
  have hend : (s.dropWhile isC0ControlOrSpace ++ t).rdropWhile isC0ControlOrSpace =
      s.dropWhile isC0ControlOrSpace ++ t := by
    rw [List.rdropWhile_eq_self_iff]
    intro hlast
    rw [List.getLast_append_of_ne_nil _ hne, ht _ (List.getLast_mem hne)]
    decide
  rw [clean, hstart, hend, List.filter_append, filter_isTabOrNewline ht]

/-- A query in which nothing is ignored is the input's query. -/
theorem queryOf_clean {path : List Char} (hpath : '?' ∉ path) (hfragment : '#' ∉ path)
    (hquery : ∀ c ∈ query, isC0ControlOrSpace c = false ∧ c ≠ '#') :
    queryOf (clean (path ++ '?' :: query)) = some query := by
  have hkept : ∀ c ∈ '?' :: query, isC0ControlOrSpace c = false := by
    intro c hc
    rcases List.mem_cons.mp hc with rfl | hc
    · rfl
    · exact (hquery c hc).1
  have hmem : ∀ c ∈ (path.dropWhile isC0ControlOrSpace).filter (fun c => ! isTabOrNewline c),
      c ∈ path := fun c hc => (List.dropWhile_sublist _).mem (List.mem_of_mem_filter hc)
  rw [clean_append_of_last path (List.cons_ne_nil _ _) hkept,
    queryOf_append (fun hc => hpath (hmem _ hc)) (fun hc => hfragment (hmem _ hc)), queryOf]
  have hnone : '#' ∉ '?' :: query := by
    intro hc
    rcases List.mem_cons.mp hc with hc | hc
    · cases hc
    · exact (hquery _ hc).2 rfl
  rw [List.takeWhile_eq_self_iff.mpr, List.dropWhile_cons_of_neg (by decide)]
  intro c hc
  refine decide_eq_true ?_
  rintro rfl
  exact hnone hc

def http : List Char := ['h', 't', 't', 'p']

/-- What is left of any text after `http://`. -/
def httpRest (host : List Char) : List Char :=
  (host.rdropWhile isC0ControlOrSpace).filter fun c => ! isTabOrNewline c

/-- The authority in any text after `http://`. -/
def httpAuthority (host : List Char) : List Char :=
  ((httpRest host).dropWhile (isSlash true)).takeWhile fun c => ! endsAuthority true c

theorem parse_http (host : List Char) :
    parse parseHost none (http ++ [':', '/', '/'] ++ host) =
      if isAuthority parseHost true (httpAuthority host) then
        some ⟨http, false, queryOf (httpRest host)⟩
      else none := by
  have hclean : clean (http ++ [':', '/', '/'] ++ host) =
      http ++ [':', '/', '/'] ++ httpRest host :=
    clean_append (by decide) (by simp [http, isC0ControlOrSpace]) host
  have hscheme : splitScheme (http ++ [':', '/', '/'] ++ httpRest host) =
      some (http, '/' :: '/' :: httpRest host) :=
    splitScheme_append 'h' ['t', 't', 'p'] ('/' :: '/' :: httpRest host) (by decide)
      (by simp [isSchemeChar])
  have hquery : queryOf (((httpRest host).dropWhile (isSlash true))) = queryOf (httpRest host) :=
    queryOf_dropWhile_isSlash
  simp only [parse, hclean, hscheme]
  rw [absolute, if_neg (by decide), if_pos (by decide)]
  change withAuthority parseHost http ((httpRest host).dropWhile (isSlash true)) = _
  rw [← hquery]
  rfl

/-- A path relative to a base of the scheme `http` is a URL. -/
theorem parse_path {c : Char} (hscheme : base.scheme = http) (hbase : base.opaquePath = false)
    (hc : isSlash true c = false) (hclean : clean input = '/' :: c :: rest) :
    parse parseHost (some base) input = some (withoutAuthority base ('/' :: c :: rest)) := by
  have hnone : splitScheme ('/' :: c :: rest) = none := rfl
  have hspecial : isSpecial base.scheme = true := by rw [hscheme]; rfl
  have hfile : base.scheme ≠ file := by rw [hscheme]; decide
  simp only [parse, hclean, hnone, hbase, Bool.false_eq_true, if_false, if_neg hfile, relative,
    hspecial, hc, Bool.and_false]

/-- The text after `http://` decides whether a path relative to it is a URL. -/
theorem isSome_ofReference_path {c : Char} {host : List Char} (hc : isSlash true c = false)
    (hclean : clean input = '/' :: c :: rest) :
    (ofReference parseHost input (http ++ [':', '/', '/'] ++ host)).isSome =
      isAuthority parseHost true (httpAuthority host) := by
  rw [ofReference, parse_http]
  split
  next h => rw [Option.bind_some, parse_path rfl rfl hc hclean, h]; rfl
  next h => simpa using h

end Url
