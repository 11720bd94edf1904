import Mathlib.Data.List.Basic
import Mathlib.Data.List.Induction

/-! # Upserts that do not downgrade

A slot keeps a complete value until another complete value arrives, and takes
any value otherwise. Folding a log into a slot leaves the last complete value
of the log, and folding the same log again changes nothing.
-/

namespace Upsert

variable {V : Type} (complete : V → Bool)

/-- The slot after one more value. -/
def keep (old : Option V) (new : V) : Option V :=
  if old.any complete && !complete new then old else some new

/-- The slot after a log of values. -/
def keepAll (old : Option V) (log : List V) : Option V :=
  log.foldl (keep complete) old

@[simp] theorem keepAll_nil (old : Option V) : keepAll complete old [] = old := rfl

@[simp] theorem keepAll_cons (old : Option V) (v : V) (log : List V) :
    keepAll complete old (v :: log) = keepAll complete (keep complete old v) log := rfl

theorem keepAll_append (old : Option V) (log more : List V) :
    keepAll complete old (log ++ more) = keepAll complete (keepAll complete old log) more :=
  List.foldl_append

theorem keep_of_complete {v : V} (h : complete v = true) (old : Option V) :
    keep complete old v = some v := by
  simp [keep, h]

theorem keep_of_incomplete {v : V} (h : complete v = false) (old : Option V) :
    keep complete old v = if old.any complete then old else some v := by
  simp [keep, h]

/-- The guard of the upsert, written the other way round, lets the value in. -/
theorem keep_of_guard {old : Option V} {v : V} (h : (!old.any complete || complete v) = true) :
    keep complete old v = some v := by
  cases hv : complete v with
  | true => exact keep_of_complete complete hv old
  | false =>
    rw [keep_of_incomplete complete hv, if_neg]
    simpa [hv] using h

theorem keep_of_not_guard {old : Option V} {v : V}
    (h : (!old.any complete || complete v) = false) : keep complete old v = old := by
  simp only [Bool.or_eq_false_iff, Bool.not_eq_false'] at h
  rw [keep_of_incomplete complete h.2, if_pos h.1]

/-- What is in the slot was there before, or is the new value. -/
theorem keep_eq_some {old : Option V} {v w : V} (h : keep complete old v = some w) :
    old = some w ∨ w = v := by
  unfold keep at h
  split at h
  · exact .inl h
  · exact .inr (Option.some.inj h).symm

theorem keep_ne_none {old : Option V} (v : V) : keep complete old v ≠ none := by
  unfold keep
  split
  · next hguard =>
    rintro rfl
    cases hguard
  · nofun

/-- A log with a value in it leaves one. -/
theorem isSome_keepAll {old : Option V} (h : old.isSome = true) (log : List V) :
    (keepAll complete old log).isSome = true := by
  induction log generalizing old with
  | nil => exact h
  | cons v log ih =>
    refine ih ?_
    unfold keep
    split
    · exact h
    · rfl

theorem isSome_keepAll_cons (old : Option V) (v : V) (log : List V) :
    (keepAll complete old (v :: log)).isSome = true := by
  rw [keepAll_cons]
  apply isSome_keepAll
  unfold keep
  split
  · next h =>
    cases old with
    | none => simp at h
    | some w => rfl
  · rfl

/-- With a complete value in it, a log leaves the same slot whatever was there before. -/
theorem keepAll_of_exists {log : List V} (h : ∃ v ∈ log, complete v = true)
    (old old' : Option V) : keepAll complete old log = keepAll complete old' log := by
  induction log generalizing old old' with
  | nil => obtain ⟨_, hv, _⟩ := h; cases hv
  | cons v log ih =>
    by_cases hlog : ∃ w ∈ log, complete w = true
    · exact ih hlog _ _
    · have hv : complete v = true := by
        obtain ⟨w, hw, hc⟩ := h
        rcases List.mem_cons.mp hw with rfl | hw
        · exact hc
        · exact absurd ⟨w, hw, hc⟩ hlog
      simp only [keepAll_cons, keep_of_complete complete hv]

/-- A log without complete values does not touch a complete slot. -/
theorem keepAll_of_complete_old {log : List V} (h : ∀ v ∈ log, complete v = false)
    {old : Option V} (hold : old.any complete = true) : keepAll complete old log = old := by
  induction log with
  | nil => rfl
  | cons v log ih =>
    have hv := h v List.mem_cons_self
    rw [keepAll_cons, keep_of_incomplete complete hv, if_pos hold]
    exact ih fun w hw => h w (List.mem_cons_of_mem _ hw)

/-- A log without complete values leaves its last value in an incomplete slot. -/
theorem keepAll_of_incomplete {log : List V} (h : ∀ v ∈ log, complete v = false)
    {old : Option V} (hold : old.any complete = false) :
    keepAll complete old log = log.getLast?.or old := by
  induction log generalizing old with
  | nil => rfl
  | cons v log ih =>
    have hv := h v List.mem_cons_self
    have hkeep : keep complete old v = some v := by
      rw [keep_of_incomplete complete hv, if_neg (by simp [hold])]
    rw [keepAll_cons, hkeep, ih (fun w hw => h w (List.mem_cons_of_mem _ hw)) (by simpa using hv)]
    cases log <;> simp [List.getLast?_cons]

/-- Folding a log once more into the slot it produced changes nothing. -/
theorem keepAll_absorb (old : Option V) (log : List V) :
    keepAll complete (keepAll complete old log) log = keepAll complete old log := by
  by_cases hlog : ∃ v ∈ log, complete v = true
  · exact keepAll_of_exists complete hlog _ _
  have hnone : ∀ v ∈ log, complete v = false := by
    intro v hv
    by_contra hc
    exact hlog ⟨v, hv, by simpa using hc⟩
  cases hold : old.any complete with
  | true =>
    rw [keepAll_of_complete_old complete hnone hold, keepAll_of_complete_old complete hnone hold]
  | false =>
    rw [keepAll_of_incomplete complete hnone hold]
    have hlast : (log.getLast?.or old).any complete = false := by
      cases hl : log.getLast? with
      | none => exact hold
      | some v => simpa using hnone v (List.mem_of_getLast? hl)
    rw [keepAll_of_incomplete complete hnone hlast]
    cases log.getLast? <;> rfl

/-! ## The last complete value -/

/-- The last complete value of a log, or its last value if none is complete. -/
def latest (log : List V) : Option V := (log.filter complete).getLast?.or log.getLast?

theorem any_keepAll_none (log : List V) :
    (keepAll complete none log).any complete = log.any complete := by
  induction log using List.reverseRecOn with
  | nil => rfl
  | append_singleton log v ih =>
    rw [keepAll_append, keepAll_cons, keepAll_nil, List.any_append, ← ih]
    cases hv : complete v with
    | true => simp [keep_of_complete complete hv, hv]
    | false =>
      rw [keep_of_incomplete complete hv]
      cases h : (keepAll complete none log).any complete with
      | true => simpa [hv] using h
      | false => simp [hv]

/-- A slot that a log was folded into holds the latest value of the log. -/
theorem keepAll_none (log : List V) : keepAll complete none log = latest complete log := by
  induction log using List.reverseRecOn with
  | nil => rfl
  | append_singleton log v ih =>
    rw [keepAll_append, keepAll_cons, keepAll_nil, latest, List.filter_append,
      List.getLast?_concat]
    cases hv : complete v with
    | true =>
      rw [keep_of_complete complete hv, List.filter_cons_of_pos hv, List.filter_nil,
        List.getLast?_concat]
      rfl
    | false =>
      have hnil : [v].filter complete = [] := by simp [hv]
      rw [keep_of_incomplete complete hv, any_keepAll_none, hnil, List.append_nil]
      cases hlog : log.any complete with
      | true =>
        have hne : log.filter complete ≠ [] := by
          simpa [List.filter_eq_nil_iff] using hlog
        rw [if_pos rfl, ih, latest]
        rw [List.getLast?_eq_some_getLast hne]
        rfl
      | false =>
        have hfilter : log.filter complete = [] := by
          simpa [List.filter_eq_nil_iff] using hlog
        rw [if_neg Bool.false_ne_true, hfilter]
        rfl

end Upsert
