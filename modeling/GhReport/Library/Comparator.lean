import Mathlib.Data.List.Basic
import Mathlib.Order.Compare

/-! # Comparators

A comparator need not be an order everywhere to sort a list: it is enough that it
is one on the values of the list. A stable sort then orders the values, keeps all
of them, and leaves those alone that are in order already.
-/

namespace Comparator

variable {α β : Type*} {cmp : α → α → Ordering} {l : List α}

/-- On these values the comparator is a total preorder. -/
structure PreorderOn (cmp : α → α → Ordering) (l : List α) : Prop where
  refl : ∀ a ∈ l, cmp a a = .eq
  swap : ∀ a ∈ l, ∀ b ∈ l, cmp b a = (cmp a b).swap
  trans : ∀ a ∈ l, ∀ b ∈ l, ∀ c ∈ l, cmp a b ≠ .gt → cmp b c ≠ .gt → cmp a c ≠ .gt

namespace PreorderOn

theorem eq_of_ne_gt (h : PreorderOn cmp l) {a b : α} (ha : a ∈ l) (hb : b ∈ l)
    (hab : cmp a b ≠ .gt) (hba : cmp b a ≠ .gt) : cmp a b = .eq := by
  rw [h.swap a ha b hb] at hba
  cases hcmp : cmp a b with
  | lt => rw [hcmp] at hba; exact absurd rfl hba
  | eq => rfl
  | gt => exact absurd hcmp hab

/-- Values that compare equal do so through any value between. -/
theorem eq_trans (h : PreorderOn cmp l) {a b c : α} (ha : a ∈ l) (hb : b ∈ l) (hc : c ∈ l)
    (hab : cmp a b = .eq) (hbc : cmp b c = .eq) : cmp a c = .eq := by
  have hba : cmp b a = .eq := by rw [h.swap a ha b hb, hab]; rfl
  have hcb : cmp c b = .eq := by rw [h.swap b hb c hc, hbc]; rfl
  refine h.eq_of_ne_gt ha hc (h.trans a ha b hb c hc ?_ ?_) (h.trans c hc b hb a ha ?_ ?_) <;>
    simp only [hab, hbc, hba, hcb, ne_eq, reduceCtorEq, not_false_eq_true]

/-- A comparator that goes by keys. -/
theorem of_key {κ : Type*} [LinearOrder κ] (key : α → κ)
    (h : ∀ a ∈ l, ∀ b ∈ l, cmp a b = compare (key a) (key b)) : PreorderOn cmp l where
  refl a ha := by rw [h a ha a ha, compare_eq_iff_eq]
  swap a ha b hb := by
    rw [h a ha b hb, h b hb a ha]
    exact Std.OrientedCmp.eq_swap
  trans a ha b hb c hc hab hbc := by
    rw [h a ha b hb, compare_le_iff_le] at hab
    rw [h b hb c hc, compare_le_iff_le] at hbc
    rw [h a ha c hc, compare_le_iff_le]
    exact hab.trans hbc

theorem reverse (h : PreorderOn cmp l) : PreorderOn (fun a b => (cmp a b).swap) l where
  refl a ha := by rw [h.refl a ha]; rfl
  swap a ha b hb := by rw [h.swap a ha b hb]
  trans a ha b hb c hc hab hbc := by
    rw [← h.swap a ha b hb] at hab
    rw [← h.swap b hb c hc] at hbc
    rw [← h.swap a ha c hc]
    exact h.trans c hc b hb a ha hbc hab

theorem reverse_iff : PreorderOn (fun a b => (cmp a b).swap) l ↔ PreorderOn cmp l := by
  refine ⟨fun h => ?_, reverse⟩
  have hreverse := h.reverse
  simp only [Ordering.swap_swap] at hreverse
  exact hreverse

theorem comap {f : β → α} {l : List β} (h : PreorderOn cmp (l.map f)) :
    PreorderOn (fun x y => cmp (f x) (f y)) l where
  refl _ hx := h.refl _ (List.mem_map_of_mem hx)
  swap _ hx _ hy := h.swap _ (List.mem_map_of_mem hx) _ (List.mem_map_of_mem hy)
  trans _ hx _ hy _ hz := h.trans _ (List.mem_map_of_mem hx) _ (List.mem_map_of_mem hy) _
    (List.mem_map_of_mem hz)

end PreorderOn

/-! ## Sorting -/

/-- The list is sorted, and what was sorted already stayed as it was. -/
structure StablySorted (cmp : α → α → Ordering) (l sorted : List α) : Prop where
  perm : sorted.Perm l
  pairwise : sorted.Pairwise fun a b => cmp a b ≠ .gt
  stable : ∀ kept : List α, (kept.Pairwise fun a b => cmp a b ≠ .gt) → kept.Sublist l →
    kept.Sublist sorted

def sortBy (cmp : α → α → Ordering) (l : List α) : List α := l.mergeSort fun a b => cmp a b ≠ .gt

theorem sortBy_map (f : β → α) (l : List β) :
    sortBy cmp (l.map f) = (sortBy (fun x y => cmp (f x) (f y)) l).map f := by
  have hmap : (l.mergeSort fun x y => cmp (f x) (f y) ≠ .gt).map f =
      (l.map f).mergeSort fun a b => cmp a b ≠ .gt := List.map_mergeSort fun _ _ _ _ => rfl
  exact hmap.symm

/-- A stable sort needs the order on the values of its list only. -/
theorem stablySorted_sortBy (h : PreorderOn cmp l) : StablySorted cmp l (sortBy cmp l) := by
  let le : {a // a ∈ l} → {a // a ∈ l} → Bool := fun a b => cmp a b ≠ .gt
  have hsort : (l.attach.mergeSort le).map Subtype.val = sortBy cmp l := by
    have hmap := (sortBy_map Subtype.val l.attach : sortBy cmp _ = _)
    rw [List.attach_map_subtype_val] at hmap
    exact hmap.symm
  have htrans : ∀ a b c, le a b → le b c → le a c := by
    intro a b c hab hbc
    simp only [le, decide_eq_true_eq] at hab hbc ⊢
    exact h.trans a a.2 b b.2 c c.2 hab hbc
  have htotal : ∀ a b, le a b || le b a := by
    intro a b
    simp only [le, h.swap a a.2 b b.2]
    cases cmp a b <;> rfl
  refine ⟨List.mergeSort_perm _ _, ?_, fun kept hkept hsub => ?_⟩
  · rw [← hsort, List.pairwise_map]
    exact (List.pairwise_mergeSort htrans htotal l.attach).imp fun hle => of_decide_eq_true hle
  · rw [← List.attach_map_subtype_val l] at hsub
    obtain ⟨kept', hsub', rfl⟩ := List.sublist_map_iff.mp hsub
    rw [← hsort]
    refine (List.sublist_mergeSort htrans htotal ?_ hsub').map _
    exact (List.pairwise_map.mp hkept).imp fun hle => decide_eq_true hle

end Comparator
