import Mathlib.Data.List.Infix

/-! # The first occurrence of a pattern

A text is split at the first place where a pattern stands in it.
-/

namespace Occurrence

variable {α : Type*} [DecidableEq α] {pat text before after : List α}

/-- The text before and after the first occurrence of a pattern. -/
def splitFirst (pat : List α) : List α → Option (List α × List α)
  | [] => if pat = [] then some ([], []) else none
  | c :: text =>
    if pat <+: c :: text then some ([], (c :: text).drop pat.length)
    else (splitFirst pat text).map fun p => (c :: p.1, p.2)

theorem splitFirst_eq (h : splitFirst pat text = some (before, after)) :
    text = before ++ (pat ++ after) := by
  induction text generalizing before with
  | nil =>
    rw [splitFirst] at h
    split at h
    · next hpat =>
      cases h
      rw [hpat]
      rfl
    · cases h
  | cons c text ih =>
    rw [splitFirst] at h
    split at h
    · next hpat =>
      obtain ⟨rest, hrest⟩ := hpat
      rw [← hrest, List.drop_left] at h
      cases h
      exact hrest.symm
    · obtain ⟨p, hp, hcons⟩ := Option.map_eq_some_iff.mp h
      cases hcons
      rw [ih hp]
      rfl

/-- The pattern does not stand in the text before its first occurrence. -/
theorem not_infix_of_splitFirst (hpat : pat ≠ [])
    (h : splitFirst pat text = some (before, after)) : ¬ pat <:+: before := by
  induction text generalizing before with
  | nil =>
    rw [splitFirst, if_neg hpat] at h
    cases h
  | cons c text ih =>
    rw [splitFirst] at h
    split at h
    · cases h
      exact fun hnil => hpat (List.infix_nil.mp hnil)
    · next hne =>
      obtain ⟨p, hp, hcons⟩ := Option.map_eq_some_iff.mp h
      cases hcons
      rw [List.infix_cons_iff]
      rintro (hhead | hpart)
      · refine hne (hhead.trans ?_)
        rw [splitFirst_eq hp]
        exact List.prefix_append (c :: p.1) _
      · exact ih hp hpart

theorem notMem_of_splitFirst {a : α} (h : splitFirst [a] text = some (before, after)) :
    a ∉ before := by
  intro ha
  obtain ⟨s, t, rfl⟩ := List.mem_iff_append.mp ha
  exact not_infix_of_splitFirst (List.cons_ne_nil _ _) h ⟨s, t, by simp⟩

theorem length_of_splitFirst (h : splitFirst pat text = some (before, after)) :
    text.length = before.length + (pat.length + after.length) := by
  rw [splitFirst_eq h, List.length_append, List.length_append]

/-- A pattern that does not stand in a text splits it nowhere. -/
theorem splitFirst_eq_none (h : ¬ pat <:+: text) : splitFirst pat text = none := by
  cases hs : splitFirst pat text with
  | none => rfl
  | some p =>
    rw [splitFirst_eq hs] at h
    exact absurd ⟨p.1, p.2, List.append_assoc ..⟩ h

/-- A text is split at a pattern whose first letter does not stand before it. -/
theorem splitFirst_append {c : α} (h : c ∉ before) :
    splitFirst (c :: pat) (before ++ (c :: pat ++ after)) = some (before, after) := by
  induction before with
  | nil =>
    rw [List.nil_append, List.cons_append, splitFirst,
      if_pos ⟨after, (List.cons_append ..)⟩, ← List.cons_append, List.drop_left]
  | cons b before ih =>
    rw [List.mem_cons, not_or] at h
    rw [List.cons_append, splitFirst, if_neg, ih h.2]
    · rfl
    · rintro ⟨rest, hrest⟩
      exact h.1 (List.cons.inj hrest).1

end Occurrence
