import Mathlib.Data.List.Flatten
import Mathlib.Data.List.Forall2
import Mathlib.Data.Nat.Notation
import Mathlib.Tactic.TypeStar

/-! # Globs

A pattern is a list of tokens, each of which stands for some lists of letters. It
matches a list that splits into pieces, one for each token in turn.
-/

namespace Glob

variable {τ α : Type*} {stands : τ → List α → Prop}

/-- The text splits into pieces that the tokens of the pattern stand for. -/
def Matches (stands : τ → List α → Prop) (pattern : List τ) (text : List α) : Prop :=
  ∃ pieces, List.Forall₂ stands pattern pieces ∧ text = pieces.flatten

@[simp] theorem matches_nil_iff {text : List α} : Matches stands [] text ↔ text = [] := by
  constructor
  · rintro ⟨pieces, hpieces, rfl⟩
    cases hpieces
    rfl
  · rintro rfl
    exact ⟨[], .nil, rfl⟩

theorem matches_cons_iff {t : τ} {pattern : List τ} {text : List α} :
    Matches stands (t :: pattern) text ↔
      ∃ piece rest, text = piece ++ rest ∧ stands t piece ∧ Matches stands pattern rest := by
  constructor
  · rintro ⟨pieces, hpieces, rfl⟩
    cases hpieces with
    | cons ht hrest => exact ⟨_, _, rfl, ht, _, hrest, rfl⟩
  · rintro ⟨piece, rest, rfl, ht, pieces, hpieces, rfl⟩
    exact ⟨piece :: pieces, .cons ht hpieces, rfl⟩

theorem matches_append_iff {pattern pattern' : List τ} {text : List α} :
    Matches stands (pattern ++ pattern') text ↔
      ∃ piece rest, text = piece ++ rest ∧ Matches stands pattern piece ∧
        Matches stands pattern' rest := by
  induction pattern generalizing text with
  | nil => simp
  | cons t pattern ih =>
    rw [List.cons_append, matches_cons_iff]
    constructor
    · rintro ⟨first, rest, rfl, ht, hrest⟩
      obtain ⟨piece, rest, rfl, hpiece, hrest⟩ := ih.mp hrest
      refine ⟨first ++ piece, rest, (List.append_assoc ..).symm, ?_, hrest⟩
      exact matches_cons_iff.mpr ⟨first, piece, rfl, ht, hpiece⟩
    · rintro ⟨piece, rest, rfl, hpiece, hrest⟩
      obtain ⟨first, piece, rfl, ht, hpiece⟩ := matches_cons_iff.mp hpiece
      exact ⟨first, piece ++ rest, List.append_assoc .., ht,
        ih.mpr ⟨piece, rest, rfl, hpiece, hrest⟩⟩

/-! ## Tokens -/

/-- A token that stands for one letter takes the first one. -/
theorem matches_one_iff {t : τ} {P : α → Prop}
    (ht : ∀ piece, stands t piece ↔ ∃ a, piece = [a] ∧ P a) {pattern : List τ} {text : List α} :
    Matches stands (t :: pattern) text ↔
      ∃ a rest, text = a :: rest ∧ P a ∧ Matches stands pattern rest := by
  rw [matches_cons_iff]
  constructor
  · rintro ⟨piece, rest, rfl, hpiece, hrest⟩
    obtain ⟨a, rfl, ha⟩ := (ht piece).mp hpiece
    exact ⟨a, rest, rfl, ha, hrest⟩
  · rintro ⟨a, rest, rfl, ha, hrest⟩
    exact ⟨[a], rest, rfl, (ht _).mpr ⟨a, rfl, ha⟩, hrest⟩

/-- A token that stands for everything leaves some suffix to the rest of the pattern. -/
theorem matches_any_iff {t : τ} (ht : ∀ piece, stands t piece) {pattern : List τ}
    {text : List α} :
    Matches stands (t :: pattern) text ↔
      ∃ i ≤ text.length, Matches stands pattern (text.drop i) := by
  rw [matches_cons_iff]
  constructor
  · rintro ⟨piece, rest, rfl, -, hrest⟩
    refine ⟨piece.length, ?_, ?_⟩
    · rw [List.length_append]
      exact Nat.le_add_right ..
    · rwa [List.drop_left]
  · rintro ⟨i, -, hrest⟩
    exact ⟨text.take i, text.drop i, (List.take_append_drop ..).symm, ht _, hrest⟩

/-- Two tokens in a row that stand for everything are as good as one. -/
theorem matches_any_any_iff {t : τ} (ht : ∀ piece, stands t piece) {pattern : List τ}
    {text : List α} :
    Matches stands (t :: t :: pattern) text ↔ Matches stands (t :: pattern) text := by
  rw [matches_cons_iff]
  constructor
  · rintro ⟨piece, rest, rfl, -, hrest⟩
    obtain ⟨piece', rest', rfl, -, hrest'⟩ := matches_cons_iff.mp hrest
    exact matches_cons_iff.mpr ⟨piece ++ piece', rest', (List.append_assoc ..).symm, ht _, hrest'⟩
  · intro h
    exact ⟨[], text, rfl, ht _, h⟩

end Glob
