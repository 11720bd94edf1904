import GhReport.Collector.RefMatching
import GhReport.Library.Glob

/-! # What the ref patterns match

A pattern of segments is a glob of globs: `**` stands for any segments, and every
other segment for one that its bytes match. The matcher decides this relation for
the patterns that its two recursion bounds let it read to the end.
-/

namespace GhReport.Collector.PatternMatch

open Glob

/-! ## Bytes -/

/-- `*` stands for any bytes, `?` for one byte, and every other byte for itself. -/
def ByteStands (p : UInt8) (piece : List UInt8) : Prop :=
  p = star ∨ ∃ b, piece = [b] ∧ (p = questionMark ∨ p = b)

theorem byteStands_star (piece : List UInt8) : ByteStands star piece := .inl rfl

theorem byteStands_of_ne {p : UInt8} (hp : p ≠ star) (piece : List UInt8) :
    ByteStands p piece ↔ ∃ b, piece = [b] ∧ (p = questionMark ∨ p = b) :=
  or_iff_right hp

theorem fnmatchBytes_iff (pattern candidate : List UInt8) (depth maxDepth : ℕ) :
    fnmatchBytes pattern candidate depth maxDepth = true ↔
      Matches ByteStands pattern candidate ∧ depth + pattern.length ≤ maxDepth := by
  induction pattern generalizing candidate depth with
  | nil =>
    unfold fnmatchBytes
    rw [matches_nil_iff, List.length_nil, Nat.add_zero]
    by_cases h : maxDepth < depth
    · simp [h]
    · simp [h, not_lt.mp h]
  | cons p pattern ih =>
    unfold fnmatchBytes
    rw [List.length_cons]
    by_cases h : maxDepth < depth
    · rw [if_pos h]
      refine iff_of_false Bool.false_ne_true fun hmatches => ?_
      omega
    · rw [if_neg h]
      have hdepth : depth + 1 + pattern.length = depth + (pattern.length + 1) := by omega
      by_cases hstar : p = star
      · subst hstar
        rw [if_pos rfl, matches_any_iff byteStands_star, List.any_eq_true]
        simp only [List.mem_range, Nat.lt_succ_iff, ih, hdepth]
        constructor
        · rintro ⟨i, hi, hmatches, hbound⟩
          exact ⟨⟨i, hi, hmatches⟩, hbound⟩
        · rintro ⟨⟨i, hi, hmatches⟩, hbound⟩
          exact ⟨i, hi, hmatches, hbound⟩
      · rw [if_neg hstar, matches_one_iff (byteStands_of_ne hstar)]
        cases candidate with
        | nil => simp
        | cons c candidate =>
          simp only [List.cons.injEq]
          by_cases hone : p = questionMark
          · simp only [hone, if_true, ih, hdepth]
            simp [eq_comm]
          · by_cases hc : c = p
            · simp only [hone, hc, if_false, ih, hdepth, ne_eq, not_true_eq_false, false_or]
              simp
            · simp only [hone, hc, if_false, if_true, ne_eq, not_false_eq_true, false_or]
              refine iff_of_false Bool.false_ne_true ?_
              rintro ⟨⟨b, rest, ⟨rfl, -⟩, rfl, -⟩, -⟩
              exact hc rfl

/-- A byte that the pass drops adds nothing to a pattern. -/
theorem matches_collapseStars_iff (raw candidate : List UInt8) :
    Matches ByteStands (collapseStars raw) candidate ↔ Matches ByteStands raw candidate := by
  have hfold : ∀ out : List UInt8, Matches ByteStands (raw.foldl (fun out b =>
      if b = star ∧ out.getLast? = some star then out else out ++ [b]) out) candidate ↔
      Matches ByteStands (out ++ raw) candidate := by
    induction raw with
    | nil => simp
    | cons b raw ih =>
      intro out
      rw [List.foldl_cons, ih]
      split
      · next hdrop =>
        obtain ⟨rfl, hlast⟩ := hdrop
        obtain ⟨out, rfl⟩ := List.getLast?_eq_some_iff.mp hlast
        simp only [List.append_assoc, List.singleton_append, matches_append_iff,
          matches_any_any_iff byteStands_star]
      · rw [List.append_assoc, List.singleton_append]
  exact hfold []

/-! ## Segments -/

def doubleStar : List UInt8 := [star, star]

/-- `**` stands for any segments, and every other segment for one that it matches. -/
def SegmentStands (segment : List UInt8) (piece : List (List UInt8)) : Prop :=
  segment = doubleStar ∨ ∃ c, piece = [c] ∧ Matches ByteStands segment c

/-- The segments before a final `**`, or all of them. -/
def consumed (segments : List (List UInt8)) : List (List UInt8) :=
  if segments.getLast? = some doubleStar then segments.dropLast else segments

theorem consumed_cons {head next : List UInt8} {tail : List (List UInt8)} :
    consumed (head :: next :: tail) = head :: consumed (next :: tail) := by
  unfold consumed
  rw [List.getLast?_cons_cons]
  split
  · rfl
  · rfl

theorem consumed_cons_of_ne {head : List UInt8} {tail : List (List UInt8)}
    (h : head ≠ doubleStar) : consumed (head :: tail) = head :: consumed tail := by
  cases tail with
  | nil => simp [consumed, h]
  | cons next tail => exact consumed_cons

/-- Every segment but `**` has at most so many bytes once its runs of `*` are collapsed. -/
def WithinDepth (maxFnmatchDepth : ℕ) (segments : List (List UInt8)) : Prop :=
  ∀ segment ∈ segments, segment ≠ doubleStar →
    (collapseStars segment).length ≤ maxFnmatchDepth

theorem withinDepth_doubleStar {maxFnmatchDepth : ℕ} {tail : List (List UInt8)} :
    WithinDepth maxFnmatchDepth (doubleStar :: tail) ↔ WithinDepth maxFnmatchDepth tail := by
  unfold WithinDepth
  rw [List.forall_mem_cons]
  exact and_iff_right fun hne => absurd rfl hne

theorem withinDepth_cons_of_ne {maxFnmatchDepth : ℕ} {head : List UInt8}
    {tail : List (List UInt8)} (h : head ≠ doubleStar) :
    WithinDepth maxFnmatchDepth (head :: tail) ↔
      (collapseStars head).length ≤ maxFnmatchDepth ∧ WithinDepth maxFnmatchDepth tail := by
  unfold WithinDepth
  rw [List.forall_mem_cons]
  exact and_congr_left fun _ => ⟨fun hlength => hlength h, fun hlength _ => hlength⟩

theorem fnmatchSegment_iff (pattern candidate : List UInt8) (maxDepth : ℕ) :
    fnmatchSegment pattern candidate maxDepth = true ↔
      Matches ByteStands pattern candidate ∧ (collapseStars pattern).length ≤ maxDepth := by
  rw [fnmatchSegment, fnmatchBytes_iff, matches_collapseStars_iff, Nat.zero_add]

theorem matchPathSegments_iff (segments candidate : List (List UInt8))
    (depth maxFnmatchDepth : ℕ) :
    matchPathSegments segments candidate depth maxFnmatchDepth = true ↔
      Matches SegmentStands segments candidate ∧
        depth + (consumed segments).length ≤ maxSegmentRecursionDepth ∧
        WithinDepth maxFnmatchDepth segments := by
  induction segments generalizing candidate depth with
  | nil =>
    unfold matchPathSegments
    rw [matches_nil_iff]
    by_cases h : maxSegmentRecursionDepth < depth
    · simp [h, consumed]
    · simp [h, not_lt.mp h, consumed, WithinDepth]
  | cons head tail ih =>
    unfold matchPathSegments
    by_cases h : maxSegmentRecursionDepth < depth
    · rw [if_pos h]
      refine iff_of_false Bool.false_ne_true fun hmatches => ?_
      omega
    · rw [if_neg h]
      by_cases hdouble : head = [star, star]
      · rw [if_pos hdouble]
        obtain rfl : head = doubleStar := hdouble
        have hany : ∀ piece, SegmentStands doubleStar piece := fun _ => .inl rfl
        rw [matches_any_iff hany]
        cases tail with
        | nil =>
          -- A final `**` takes the rest, whatever it is.
          refine iff_of_true rfl ⟨⟨candidate.length, le_rfl, ?_⟩, ?_, ?_⟩
          · rw [List.drop_length, matches_nil_iff]
          · simp only [consumed, List.getLast?_singleton, if_true, List.dropLast_singleton,
              List.length_nil]
            omega
          · intro segment hmem hne
            exact absurd (List.mem_singleton.mp hmem) hne
        | cons next tail =>
          have hdepth : depth + 1 + (consumed (next :: tail)).length =
              depth + (consumed (doubleStar :: next :: tail)).length := by
            rw [consumed_cons, List.length_cons]
            omega
          rw [List.isEmpty_cons, if_neg Bool.false_ne_true, List.any_eq_true,
            withinDepth_doubleStar, ← hdepth]
          simp only [List.mem_range, Nat.lt_succ_iff, ih]
          constructor
          · rintro ⟨i, hi, hmatches, hbounds⟩
            exact ⟨⟨i, hi, hmatches⟩, hbounds⟩
          · rintro ⟨⟨i, hi, hmatches⟩, hbounds⟩
            exact ⟨i, hi, hmatches, hbounds⟩
      · have hone : ∀ piece, SegmentStands head piece ↔
            ∃ c, piece = [c] ∧ Matches ByteStands head c := fun _ => or_iff_right hdouble
        have hdepth : depth + (consumed (head :: tail)).length =
            depth + 1 + (consumed tail).length := by
          rw [consumed_cons_of_ne hdouble, List.length_cons]
          omega
        rw [if_neg hdouble, matches_one_iff hone, hdepth, withinDepth_cons_of_ne hdouble]
        cases candidate with
        | nil => simp
        | cons c candidate =>
          dsimp only
          constructor
          · intro hmatches
            split at hmatches
            · next hsegment =>
              obtain ⟨hhead, hlength⟩ := (fnmatchSegment_iff ..).mp hsegment
              obtain ⟨htail, hbound, hrest⟩ := (ih ..).mp hmatches
              exact ⟨⟨c, candidate, rfl, hhead, htail⟩, hbound, hlength, hrest⟩
            · cases hmatches
          · rintro ⟨⟨_, _, ⟨⟩, hhead, htail⟩, hbound, hlength, hrest⟩
            rw [if_pos ((fnmatchSegment_iff ..).mpr ⟨hhead, hlength⟩)]
            exact (ih ..).mpr ⟨htail, hbound, hrest⟩

/--
A pattern matches when its segments do, at most 64 of them are consumed, and those other than `**`
are within the bound on their bytes.
-/
theorem pathPatternMatches_iff (pattern candidate : String) (maxFnmatchDepth : ℕ) :
    pathPatternMatches pattern candidate maxFnmatchDepth = true ↔
      Matches SegmentStands ((bytes pattern).splitOn slash) ((bytes candidate).splitOn slash) ∧
        (consumed ((bytes pattern).splitOn slash)).length ≤ 64 ∧
        WithinDepth maxFnmatchDepth ((bytes pattern).splitOn slash) := by
  rw [pathPatternMatches, matchPathSegments_iff, Nat.zero_add, maxSegmentRecursionDepth]

end GhReport.Collector.PatternMatch
