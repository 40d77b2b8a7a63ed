import Connectum.ProtocGenCatalog.Plugin

/-! Where a file comes to lie whose name the generator accepts. -/
namespace Connectum.ProtocGenCatalog
open JsString

def isSeparator (c : UInt16) : Bool := c == unit '/' || c == unit '\\'

/-- `WINDOWS_ABSOLUTE.test(value)`. -/
def windowsAbsolute : JsString → Bool
  | c :: d :: rest =>
    (isLetter c && d == unit ':' && rest.head?.any isSeparator) ||
      (c == unit '\\' && d == unit '\\')
  | _ => false

/-- One turn of the loop of `parseCatalogOptions`. -/
def parseOption (_ : CatalogOptions) (option : JsString × JsString) :
    Except JsString CatalogOptions :=
  let (key, value) := option
  if key ≠ js "output_file" then
    .error (js "protoc-gen-connectum-catalog: unknown option \"" ++ key ++ js "\".")
  else if value.length = 0 then
    .error (js "protoc-gen-connectum-catalog: output_file must not be empty.")
  else if value.head? = some (unit '/') ∨ windowsAbsolute value = true ∨
      js ".." ∈ value.splitOnP isSeparator then
    .error (js ("protoc-gen-connectum-catalog: output_file must be a relative path inside the " ++
      "output root (got \"") ++ value ++ js "\").")
  else .ok { outputFile := value }

def parseCatalogOptions (rawOptions : List (JsString × JsString)) :
    Except JsString CatalogOptions :=
  rawOptions.foldlM parseOption {}

/-- The directories that a path leads through from a place. -/
def walk (base : List JsString) (segments : List JsString) : List JsString :=
  segments.foldl (fun place segment =>
    if segment = [] ∨ segment = js "." then place
    else if segment = js ".." then place.dropLast
    else place ++ [segment]) base

/-- A path under POSIX, seen from the directory `root`. -/
def resolvePosix (root : List JsString) (value : JsString) : List JsString :=
  walk (if value.head? = some (unit '/') then [] else root) (value.splitOnP (· == unit '/'))

/-- A drive, or a share of the network. -/
inductive Volume where
  | drive (letter : UInt16)
  | share
  deriving DecidableEq, Repr

structure Place where
  volume : Volume
  segments : List JsString
  deriving DecidableEq, Repr

/-- The path starts with a drive, which need not be absolute. -/
def hasDrive : JsString → Bool
  | c :: d :: _ => isLetter c && d == unit ':'
  | _ => false

/-- A path under Windows, seen from the directory `root`; `current` are the directories that the
drives are at. -/
def resolveWindows (root : Place) (current : UInt16 → List JsString) (value : JsString) : Place :=
  let segments (text : JsString) := text.splitOnP isSeparator
  match value with
  | c :: rest =>
    if hasDrive value then
      let path := rest.drop 1
      { volume := .drive (toLower c)
        segments :=
          walk (if path.head?.any isSeparator then [] else current (toLower c)) (segments path) }
    else if isSeparator c && rest.head?.any isSeparator then
      { volume := .share, segments := walk [] (segments value) }
    else if isSeparator c then
      { volume := root.volume, segments := walk [] (segments value) }
    else { volume := root.volume, segments := walk root.segments (segments value) }
  | [] => root

/-- The place lies inside the root. -/
def Inside (root place : Place) : Prop :=
  place.volume = root.volume ∧ root.segments <+: place.segments

variable {value : JsString} {options : CatalogOptions} {p q : UInt16 → Bool}

/-- What is known of a name that is accepted. -/
structure Accepted (value : JsString) : Prop where
  nonempty : value ≠ []
  slash : value.head? ≠ some (unit '/')
  absolute : windowsAbsolute value = false
  parent : js ".." ∉ value.splitOnP isSeparator

theorem accepted_of_parseOption {previous : CatalogOptions} {option : JsString × JsString}
    (h : parseOption previous option = .ok options) : Accepted options.outputFile := by
  unfold parseOption at h
  dsimp only at h
  split at h
  next => cases h
  next =>
    split at h
    next => cases h
    next hlength =>
      split at h
      next => cases h
      next hcond =>
        cases h
        obtain ⟨hslash, hrest⟩ := not_or.mp hcond
        obtain ⟨habsolute, hparent⟩ := not_or.mp hrest
        exact ⟨mt List.length_eq_zero_iff.mpr hlength, hslash, Bool.eq_false_iff.mpr habsolute,
          hparent⟩

theorem accepted_default : Accepted (js "catalog.gen.ts") where
  nonempty := by decide
  slash := by decide
  absolute := by decide
  parent := by decide +kernel

/-- The options that come out name an accepted file. -/
theorem accepted_parseCatalogOptions {rawOptions : List (JsString × JsString)}
    (h : parseCatalogOptions rawOptions = .ok options) : Accepted options.outputFile :=
  Loop.foldlM_invariant (P := fun options => Accepted options.outputFile)
    (fun _ _ _ _ hone => accepted_of_parseOption hone) accepted_default h

/-- A path without parents goes down only. -/
theorem prefix_walk {base segments : List JsString} (h : js ".." ∉ segments) :
    base <+: walk base segments := by
  induction segments generalizing base with
  | nil => exact List.prefix_rfl
  | cons segment segments ih =>
    obtain ⟨hne, hrest⟩ := not_or.mp (mt List.mem_cons.mpr h)
    rw [walk, List.foldl_cons]
    split
    · exact ih hrest
    · rw [if_neg (Ne.symm hne)]
      exact (List.prefix_append base [segment]).trans (ih hrest)

theorem mem_walk {base segments : List JsString} {segment : JsString}
    (h : segment ∈ walk base segments) : segment ∈ base ∨ segment ∈ segments := by
  induction segments generalizing base with
  | nil => exact .inl h
  | cons first segments ih =>
    rw [walk, List.foldl_cons] at h
    rcases ih h with hmem | hmem
    · split at hmem
      · exact .inl hmem
      · split at hmem
        · exact .inl (List.dropLast_subset _ hmem)
        · rcases List.mem_append.mp hmem with hmem | hmem
          · exact .inl hmem
          · exact .inr (List.mem_cons.mpr (.inl (List.mem_singleton.mp hmem)))
    · exact .inr (List.mem_cons_of_mem _ hmem)

/-- Splitting a text, unit by unit. -/
theorem exists_splitOnP (p : UInt16 → Bool) (value : JsString) :
    ∃ first rest, value.splitOnP p = first :: rest ∧ ∀ c, (c :: value).splitOnP p =
      if p c then [] :: first :: rest else (c :: first) :: rest := by
  obtain ⟨first, rest, heq⟩ := List.exists_cons_of_ne_nil (List.splitOnP_ne_nil p value)
  refine ⟨first, rest, heq, fun c => ?_⟩
  rw [List.splitOnP_cons_eq_if_modifyHead, heq]
  rfl

theorem length_le_of_mem_splitOnP {segment : JsString} (h : segment ∈ value.splitOnP p) :
    segment.length ≤ value.length := by
  induction value generalizing segment with
  | nil =>
    rw [List.splitOnP_nil, List.mem_singleton] at h
    simp [h]
  | cons c value ih =>
    obtain ⟨first, rest, heq, hcons⟩ := exists_splitOnP p value
    rw [heq] at ih
    rw [hcons] at h
    rw [List.length_cons]
    split at h
    · rcases List.mem_cons.mp h with rfl | hmem
      · simp
      · have hle := ih hmem
        omega
    · rcases List.mem_cons.mp h with rfl | hmem
      · have hle := ih List.mem_cons_self
        rw [List.length_cons]
        omega
      · have hle := ih (List.mem_cons_of_mem _ hmem)
        omega

/-- More separators leave the segments that have none of them. -/
theorem splitOnP_mono (hpq : ∀ c, p c = true → q c = true) {first first' : JsString}
    {rest rest' : List JsString} (hp : value.splitOnP p = first :: rest)
    (hq : value.splitOnP q = first' :: rest') :
    ((∀ c ∈ first, q c = false) → first = first') ∧
      ∀ segment ∈ rest, (∀ c ∈ segment, q c = false) → segment ∈ rest' := by
  induction value generalizing first first' rest rest' with
  | nil =>
    rw [List.splitOnP_nil] at hp hq
    cases hp
    cases hq
    exact ⟨fun _ => rfl, fun _ h _ => h⟩
  | cons c value ih =>
    obtain ⟨f, r, hf, hconsp⟩ := exists_splitOnP p value
    obtain ⟨f', r', hf', hconsq⟩ := exists_splitOnP q value
    obtain ⟨hfirst, hrest⟩ := ih hf hf'
    rw [hconsp] at hp
    rw [hconsq] at hq
    by_cases hpc : p c = true
    · rw [if_pos hpc] at hp
      rw [if_pos (hpq c hpc)] at hq
      cases hp
      cases hq
      refine ⟨fun _ => rfl, fun segment hmem hnone => ?_⟩
      rcases List.mem_cons.mp hmem with rfl | hmem
      · exact hfirst hnone ▸ List.mem_cons_self
      · exact List.mem_cons_of_mem _ (hrest segment hmem hnone)
    · rw [if_neg hpc] at hp
      cases hp
      by_cases hqc : q c = true
      · rw [if_pos hqc] at hq
        cases hq
        refine ⟨fun hnone => ?_, fun segment hmem hnone => ?_⟩
        · rw [hnone c List.mem_cons_self] at hqc
          cases hqc
        · exact List.mem_cons_of_mem _ (hrest segment hmem hnone)
      · rw [if_neg hqc] at hq
        cases hq
        exact ⟨fun hnone => congrArg _ (hfirst fun d hd => hnone d (List.mem_cons_of_mem _ hd)),
          hrest⟩

theorem mem_splitOnP_mono (hpq : ∀ c, p c = true → q c = true) {segment : JsString}
    (hsegment : ∀ c ∈ segment, q c = false) (h : segment ∈ value.splitOnP p) :
    segment ∈ value.splitOnP q := by
  obtain ⟨first, rest, hp, -⟩ := exists_splitOnP p value
  obtain ⟨first', rest', hq, -⟩ := exists_splitOnP q value
  obtain ⟨hfirst, hrest⟩ := splitOnP_mono hpq hp hq
  rw [hp] at h
  rw [hq]
  rcases List.mem_cons.mp h with rfl | hmem
  · exact hfirst hsegment ▸ List.mem_cons_self
  · exact List.mem_cons_of_mem _ (hrest segment hmem hsegment)

/-- Under POSIX no accepted file lies outside the root. -/
theorem Accepted.prefix_resolvePosix (h : Accepted value) (root : List JsString) :
    root <+: resolvePosix root value := by
  rw [resolvePosix, if_neg h.slash]
  refine prefix_walk fun hmem => h.parent (mem_splitOnP_mono (fun c hc => ?_) ?_ hmem)
  · rw [isSeparator, hc, Bool.true_or]
  · intro c hc
    have hdot : c = unit '.' := by simpa [js, codeUnits, unit] using hc
    rw [hdot]
    rfl

/-- The name is one that leaves its root under Windows. -/
def Leaves (value : JsString) : Prop :=
  value.head? = some (unit '\\') ∨ hasDrive value = true

theorem Accepted.inside_resolveWindows (h : Accepted value) (hstays : ¬ Leaves value)
    (root : Place) (current : UInt16 → List JsString) :
    Inside root (resolveWindows root current value) := by
  obtain ⟨hbackslash, hdrive⟩ := not_or.mp hstays
  cases value with
  | nil => exact absurd rfl h.nonempty
  | cons c rest =>
    have hseparator : isSeparator c = false := by
      have hslash := h.slash
      simp_all [isSeparator]
    simp only [resolveWindows, if_neg hdrive, hseparator, Bool.false_and, Bool.false_eq_true,
      if_false]
    exact ⟨rfl, prefix_walk h.parent⟩

/-- A root that no path of this text leads into. -/
theorem exists_outside (hleaves : Leaves value) :
    ∃ root current, ¬ Inside root (resolveWindows root current value) := by
  cases value with
  | nil => rcases hleaves with h | h <;> cases h
  | cons c rest =>
    by_cases hdrive : hasDrive (c :: rest) = true
    · refine ⟨⟨.share, []⟩, fun _ => [], fun hinside => ?_⟩
      simp only [resolveWindows, if_pos hdrive] at hinside
      cases hinside.1
    · obtain rfl : c = unit '\\' := Option.some.inj (hleaves.resolve_right hdrive)
      refine ⟨⟨.drive 0, [0 :: unit '\\' :: rest]⟩, fun _ => [], fun hinside => ?_⟩
      have hseparator : isSeparator (unit '\\') = true := by decide
      simp only [resolveWindows, if_neg hdrive, hseparator, Bool.true_and, if_true] at hinside
      split at hinside
      · cases hinside.1
      · have hmem := hinside.2.subset (List.mem_singleton_self _)
        rcases mem_walk hmem with hmem | hmem
        · cases hmem
        · have hle := length_le_of_mem_splitOnP hmem
          simp only [List.length_cons] at hle
          omega

/-- Whatever the options are, the file that they name lies inside the output root under POSIX, and
under Windows for every root and every state of the drives if and only if its name starts neither
with a backslash nor with a drive. -/
theorem outputFile_inside {rawOptions : List (JsString × JsString)}
    (h : parseCatalogOptions rawOptions = .ok options) :
    (∀ root, root <+: resolvePosix root options.outputFile) ∧
      ((∀ root current, Inside root (resolveWindows root current options.outputFile)) ↔
        ¬ Leaves options.outputFile) := by
  have haccepted := accepted_parseCatalogOptions h
  refine ⟨haccepted.prefix_resolvePosix, fun hall hleaves => ?_, fun hstays root current =>
    haccepted.inside_resolveWindows hstays root current⟩
  obtain ⟨root, current, houtside⟩ := exists_outside hleaves
  exact houtside (hall root current)

/-- A name that is relative to a drive is accepted. -/
theorem outputFile_inside_drive :
    parseCatalogOptions [(js "output_file", js "C:gen.ts")] = .ok ⟨js "C:gen.ts"⟩ ∧
      (∀ root, root <+: resolvePosix root (js "C:gen.ts")) ∧
      ¬ ∀ root current, Inside root (resolveWindows root current (js "C:gen.ts")) := by
  have hparse : parseCatalogOptions [(js "output_file", js "C:gen.ts")] =
      .ok ⟨js "C:gen.ts"⟩ := by
    rfl
  obtain ⟨hposix, hwindows⟩ := outputFile_inside hparse
  exact ⟨hparse, hposix, fun hall => hwindows.mp hall (.inr (by decide))⟩

end Connectum.ProtocGenCatalog
