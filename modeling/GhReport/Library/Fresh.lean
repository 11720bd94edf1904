import GhReport.Library.Loop
import Mathlib.Data.List.Basic
import Mathlib.Data.List.Nodup
import Mathlib.Data.List.Perm.Subperm

/-! # Fresh names

Candidates are tried in order until one is not in use. Distinct candidates cannot
all be in use, so the search ends, and it ends at the first free one.
-/

namespace Fresh

variable {α : Type*}

/-- A search whose candidates so far are all in use. -/
structure Search (candidate : ℕ → α) (used : List α) where
  next : ℕ
  taken : ∀ j < next, candidate j ∈ used

variable {candidate : ℕ → α} {used : List α}

theorem Search.next_le_length (hinj : Function.Injective candidate)
    (s : Search candidate used) : s.next ≤ used.length := by
  have hnodup : ((List.range s.next).map candidate).Nodup := List.nodup_range.map hinj
  have hsubset : (List.range s.next).map candidate ⊆ used := by
    intro a ha
    obtain ⟨j, hj, rfl⟩ := List.mem_map.mp ha
    exact s.taken j (List.mem_range.mp hj)
  have hle := (List.subperm_of_subset hnodup hsubset).length_le
  rwa [List.length_map, List.length_range] at hle

variable [DecidableEq α]

/-- The candidate is in use: go on to the next one. -/
def Search.advance (s : Search candidate used) (h : candidate s.next ∈ used) :
    Search candidate used where
  next := s.next + 1
  taken j hj := by
    rcases Nat.lt_succ_iff_lt_or_eq.mp hj with hlt | rfl
    · exact s.taken j hlt
    · exact h

/-- Try the candidates from the first on. -/
def search (hinj : Function.Injective candidate) (used : List α) :
    Loop (Search candidate used) α where
  step s := if h : candidate s.next ∈ used then .inr (s.advance h) else .inl (candidate s.next)
  measure s := used.length - s.next
  decreasing := by
    intro s s' hs
    split at hs
    · cases hs
      have hle := (s.advance ‹_›).next_le_length hinj
      simp only [Search.advance] at hle ⊢
      omega
    · cases hs

def firstFree (hinj : Function.Injective candidate) (used : List α) : α :=
  (search hinj used).exec ⟨0, nofun⟩

/-- The search ends at a candidate that is free, all before it in use. -/
theorem exists_firstFree (hinj : Function.Injective candidate) (used : List α) :
    ∃ n, firstFree hinj used = candidate n ∧ candidate n ∉ used ∧ ∀ j < n, candidate j ∈ used := by
  refine (search hinj used).exec_induction
    (P := fun _ found => ∃ n, found = candidate n ∧ candidate n ∉ used ∧
      ∀ j < n, candidate j ∈ used) ?_ ?_ ⟨0, nofun⟩
  · intro s found hs
    simp only [search] at hs
    split at hs
    · cases hs
    · next hfree =>
      cases hs
      exact ⟨s.next, rfl, hfree, s.taken⟩
  · intro s s' _ ih
    exact ih

theorem firstFree_notMem (hinj : Function.Injective candidate) (used : List α) :
    firstFree hinj used ∉ used := by
  obtain ⟨n, hn, hfree, -⟩ := exists_firstFree hinj used
  rwa [hn]

end Fresh
