import Connectum.Glob
import Connectum.JsString

/-! Glob patterns over the names of catalog services. -/
namespace Connectum.Core
open JsString Glob

/-- `name.indexOf(segment, position)`; `none` is `-1`. -/
def indexOf (name segment : JsString) (position : ℕ) : Option ℕ :=
  (leftmost segment (name.drop position)).map (· + min position name.length)

/-- The loop over the middle segments: the cursor that it ends with, if it does not return. -/
def scanSegments (name : JsString) (limit : ℕ) : List JsString → ℕ → Option ℕ
  | [], cursor => some cursor
  | segment :: segments, cursor =>
    match indexOf name segment cursor with
    | none => none
    | some found =>
      if limit < found + segment.length then none
      else scanSegments name limit segments (found + segment.length)

def globMatch (pattern name : JsString) : Bool :=
  let segments := pattern.splitOn (unit '*')
  if segments.length = 1 then decide (pattern = name)
  else
    let first := segments.headD []
    let last := segments.getLastD []
    if !first.isPrefixOf name then false
    else if !last.isSuffixOf name then false
    else
      let limit := name.length - last.length
      match scanSegments name limit segments.tail.dropLast first.length with
      | none => false
      | some cursor => decide (cursor ≤ limit)

def matchServicesPattern (pattern : JsString) (names : List JsString) : List JsString :=
  names.filter fun name => globMatch pattern name

variable {name segment last : JsString} {segments : List JsString} {cursor : ℕ}

/-- The scan succeeds if and only if the remaining segments follow the cursor. -/
theorem scanSegments_iff (hlast : last <:+ name) (hcursor : cursor ≤ name.length) :
    (∃ c, scanSegments name (name.length - last.length) segments cursor = some c ∧
      c ≤ name.length - last.length) ↔ Follows (segments ++ [last]) (name.drop cursor) := by
  induction segments generalizing cursor with
  | nil =>
    have hlength := hlast.length_le
    rw [List.nil_append, follows_singleton]
    simp only [scanSegments, Option.some.injEq, exists_eq_left']
    constructor
    · intro hle
      apply List.suffix_of_suffix_length_le hlast (List.drop_suffix _ _)
      rw [List.length_drop]
      omega
    · intro hsuffix
      have hle := hsuffix.length_le
      rw [List.length_drop] at hle
      omega
  | cons segment segments ih =>
    have hne : segments ++ [last] ≠ [] := by simp
    rw [List.cons_append]
    cases hfound : leftmost segment (name.drop cursor) with
    | none =>
      have hindex : indexOf name segment cursor = none := by simp [indexOf, hfound]
      have hnot := not_follows_cons hne (leftmost_eq_none hfound)
      simp only [scanSegments, hindex]
      constructor
      · rintro ⟨c, hc, -⟩
        cases hc
      · exact fun h => absurd h hnot
    | some i =>
      obtain ⟨⟨skipped, rest, hsplit, hskipped⟩, hleft⟩ := leftmost_eq_some hfound
      have hindex : indexOf name segment cursor = some (i + cursor) := by
        simp [indexOf, hfound, hcursor]
      have hlength := congrArg List.length hsplit
      simp only [List.length_drop, List.length_append] at hlength
      have hrest : name.drop (i + cursor + segment.length) = rest := by
        have hdrop : i + cursor + segment.length = cursor + (i + segment.length) := by omega
        rw [hdrop, ← List.drop_drop, hsplit, ← List.append_assoc, List.drop_left']
        simp [hskipped]
      rw [follows_cons_of_leftmost hne hsplit (hskipped ▸ hleft), ← hrest,
        ← ih (by omega)]
      simp only [scanSegments, hindex]
      split
      next hlimit =>
        -- what remains is shorter than the last segment
        constructor
        · rintro ⟨c, hc, -⟩
          cases hc
        · intro h
          have hle := (((ih (by omega)).mp h).suffix).length_le
          rw [hrest] at hle
          omega
      next => exact Iff.rfl

/-- Without a wildcard the only segment is the pattern itself. -/
theorem globMatch_of_singleton {pattern first : JsString}
    (hsplit : pattern.splitOn (unit '*') = [first]) :
    globMatch pattern name = true ↔ name = first := by
  have hjoin : [unit '*'].intercalate (pattern.splitOn (unit '*')) = pattern :=
    List.intercalate_splitOn (unit '*')
  rw [hsplit, List.intercalate_singleton] at hjoin
  unfold globMatch
  dsimp only
  rw [hsplit, if_pos List.length_singleton, decide_eq_true_eq, ← hjoin]
  exact eq_comm

/-- With wildcards both ends are fixed, and the loop runs over the segments between them. -/
theorem globMatch_of_append {pattern first : JsString} {middle : List JsString}
    (hsplit : pattern.splitOn (unit '*') = first :: (middle ++ [last])) :
    globMatch pattern name = true ↔ first <+: name ∧ last <:+ name ∧
      ∃ c, scanSegments name (name.length - last.length) middle first.length = some c ∧
        c ≤ name.length - last.length := by
  have hlength : ¬ (first :: (middle ++ [last])).length = 1 := by simp
  have hlast : (first :: (middle ++ [last])).getLastD [] = last := by
    rw [← List.cons_append, List.getLastD_concat]
  have hmiddle : (first :: (middle ++ [last])).tail.dropLast = middle := by simp
  unfold globMatch
  dsimp only
  rw [hsplit, if_neg hlength, hlast, hmiddle, List.headD_cons, ← List.isPrefixOf_iff_prefix,
    ← List.isSuffixOf_iff_suffix]
  cases first.isPrefixOf name with
  | false => simp
  | true =>
    cases last.isSuffixOf name with
    | false => simp
    | true =>
      cases scanSegments name (name.length - last.length) middle first.length with
      | none => simp
      | some cursor => simp

theorem globMatch_iff {pattern : JsString} :
    globMatch pattern name = true ↔ Joins (pattern.splitOn (unit '*')) name := by
  obtain ⟨first, rest, hsplit⟩ := List.exists_cons_of_ne_nil
    (List.splitOn_ne_nil (unit '*') pattern)
  rcases List.eq_nil_or_concat rest with rfl | ⟨middle, last, rfl⟩
  · rw [globMatch_of_singleton hsplit, hsplit]
    rfl
  · rw [List.concat_eq_append] at hsplit
    rw [globMatch_of_append hsplit, hsplit, joins_cons (by simp)]
    constructor
    · rintro ⟨⟨rest, rfl⟩, hsuffix, hscan⟩
      have hfollows := (scanSegments_iff hsuffix (by simp)).mp hscan
      rw [List.drop_left'] at hfollows
      · exact ⟨rest, rfl, hfollows⟩
      · rfl
    · rintro ⟨rest, rfl, hfollows⟩
      have hsuffix : last <:+ first ++ rest :=
        hfollows.suffix.trans (List.suffix_append first rest)
      refine ⟨List.prefix_append first rest, hsuffix, (scanSegments_iff hsuffix (by simp)).mpr ?_⟩
      rw [List.drop_left']
      · exact hfollows
      · rfl

/-- The greedy scan is complete: a name matches if and only if the wildcards can be filled. -/
theorem globMatch_iff_filled (pattern name : JsString) :
    (globMatch pattern name = true ↔ Filled (unit '*') pattern name) ∧
      ∀ names, name ∈ matchServicesPattern pattern names ↔
        name ∈ names ∧ Filled (unit '*') pattern name := by
  have hmatch : globMatch pattern name = true ↔ Filled (unit '*') pattern name :=
    globMatch_iff.trans filled_iff_joins.symm
  refine ⟨hmatch, fun names => ?_⟩
  rw [matchServicesPattern, List.mem_filter, hmatch]

end Connectum.Core
