import Mathlib.Data.List.Basic
import Mathlib.Order.Lattice

/-! # Saturating tallies

A counter that stops at a bound counts the elements of a list with a property,
up to the bound. Where elements are repeated, the counter shows it unless it has
already stopped.
-/

namespace Tally

/-- Addition that stops at a bound. -/
def add (bound a b : ℕ) : ℕ := min (a + b) bound

variable {bound : ℕ}

theorem add_right_comm (a b c : ℕ) :
    add bound (add bound a b) c = add bound (add bound a c) b := by
  simp only [add]
  omega

theorem add_assoc (a b c : ℕ) : add bound (add bound a b) c = add bound a (add bound b c) := by
  simp only [add]
  omega

theorem add_le (a b : ℕ) : add bound a b ≤ bound := min_le_right _ _

variable {σ α : Type*}

/-- A counter that each element with the property raises by one. -/
theorem foldl_countP {step : σ → α → σ} (get : σ → ℕ) (p : α → Bool)
    (hstep : ∀ s a, get (step s a) = if p a then add bound (get s) 1 else get s)
    {s : σ} (hs : get s ≤ bound) (l : List α) :
    get (l.foldl step s) = add bound (get s) (l.countP p) := by
  induction l generalizing s with
  | nil => exact (min_eq_left hs).symm
  | cons a l ih =>
    rw [List.foldl_cons, List.countP_cons]
    cases hp : p a with
    | true =>
      have hs' : get (step s a) = add bound (get s) 1 := by rw [hstep, hp, if_pos rfl]
      rw [ih (hs'.trans_le (add_le _ _)), hs', if_pos rfl]
      simp only [add]
      omega
    | false =>
      have hs' : get (step s a) = get s := by
        rw [hstep, hp]
        rfl
      rw [ih (hs'.trans_le hs), hs']
      rfl

theorem foldl_countP_of_zero {step : σ → α → σ} (get : σ → ℕ) (p : α → Bool)
    (hstep : ∀ s a, get (step s a) = if p a then add bound (get s) 1 else get s)
    {s : σ} (hs : get s = 0) (l : List α) :
    get (l.foldl step s) = min (l.countP p) bound := by
  rw [foldl_countP get p hstep (hs.trans_le (Nat.zero_le _)), hs, add, Nat.zero_add]

/-- Elements with one of two properties that exclude each other. -/
theorem countP_or_of_disjoint {p q : α → Bool} (hdisjoint : ∀ a, p a = true → q a = false)
    (l : List α) : l.countP (fun a => p a || q a) = l.countP p + l.countP q := by
  induction l with
  | nil => rfl
  | cons a l ih =>
    rw [List.countP_cons, List.countP_cons, List.countP_cons, ih]
    cases hp : p a with
    | true =>
      simp only [hdisjoint a hp, Bool.true_or, if_true, Bool.false_eq_true, if_false]
      omega
    | false =>
      simp only [Bool.false_or, Bool.false_eq_true, if_false]
      omega

theorem countP_add_countP_and_not (p q : α → Bool) (l : List α) :
    l.countP p + l.countP (fun a => q a && !p a) =
      l.countP q + l.countP (fun a => p a && !q a) := by
  induction l with
  | nil => rfl
  | cons a l ih =>
    simp only [List.countP_cons]
    cases p a <;> cases q a <;> simp <;> omega

/-- Two properties are as frequent exactly when each is alone as often as the other. -/
theorem countP_eq_countP_iff (p q : α → Bool) (l : List α) :
    l.countP p = l.countP q ↔
      l.countP (fun a => p a && !q a) = l.countP (fun a => q a && !p a) := by
  have h := countP_add_countP_and_not p q l
  omega

/-! ## Repeated elements -/

/-- Every element of the list as often as it says. -/
def repeated (times : α → ℕ) (l : List α) : List α := l.flatMap fun a => List.replicate (times a) a

variable {times : α → ℕ} {p : α → Bool}

@[simp] theorem repeated_nil : repeated times ([] : List α) = [] := rfl

theorem repeated_cons (a : α) (l : List α) :
    repeated times (a :: l) = List.replicate (times a) a ++ repeated times l :=
  List.flatMap_cons

theorem mem_repeated {a : α} {l : List α} : a ∈ repeated times l ↔ a ∈ l ∧ times a ≠ 0 := by
  simp only [repeated, List.mem_flatMap, List.mem_replicate]
  constructor
  · rintro ⟨b, hb, htimes, rfl⟩
    exact ⟨hb, htimes⟩
  · rintro ⟨ha, htimes⟩
    exact ⟨a, ha, htimes, rfl⟩

/-- What is repeated once or not at all is picked out. -/
theorem repeated_eq_filter {l : List α} (h : ∀ a ∈ l, times a = if p a then 1 else 0) :
    repeated times l = l.filter p := by
  induction l with
  | nil => rfl
  | cons a l ih =>
    rw [List.forall_mem_cons] at h
    rw [repeated_cons, List.filter_cons, ih h.2, h.1]
    split <;> rfl

theorem repeated_eq_self {l : List α} (h : ∀ a ∈ l, times a = 1) : repeated times l = l := by
  rw [repeated_eq_filter (p := fun _ => true) h]
  exact List.filter_true l

theorem countP_repeated_cons (a : α) (l : List α) :
    (repeated times (a :: l)).countP p =
      (if p a then times a else 0) + (repeated times l).countP p := by
  rw [repeated_cons, List.countP_append, List.countP_replicate]

theorem countP_le_countP_repeated {l : List α} (htimes : ∀ a ∈ l, 1 ≤ times a) :
    l.countP p ≤ (repeated times l).countP p := by
  induction l with
  | nil => exact le_rfl
  | cons a l ih =>
    have ha := htimes a (List.mem_cons_self ..)
    have hl := ih fun b hb => htimes b (List.mem_cons_of_mem _ hb)
    rw [countP_repeated_cons, List.countP_cons]
    split <;> omega

/-- Repetitions do not change the count exactly when no counted element is repeated. -/
theorem countP_repeated_eq_iff {l : List α} (htimes : ∀ a ∈ l, 1 ≤ times a) :
    (repeated times l).countP p = l.countP p ↔ ∀ a ∈ l, p a = true → times a = 1 := by
  induction l with
  | nil => simp
  | cons a l ih =>
    have ha := htimes a (List.mem_cons_self ..)
    have htail : ∀ b ∈ l, 1 ≤ times b := fun b hb => htimes b (List.mem_cons_of_mem _ hb)
    have hle := countP_le_countP_repeated (p := p) htail
    rw [countP_repeated_cons, List.countP_cons, List.forall_mem_cons, ← ih htail]
    cases hp : p a with
    | true =>
      simp only [if_pos, forall_const]
      omega
    | false =>
      simp only [Bool.false_eq_true, if_false, false_imp_iff, true_and]
      omega

/-- A counter that stops shows repetitions of counted elements until it has stopped. -/
theorem min_countP_repeated_eq_iff {l : List α} (htimes : ∀ a ∈ l, 1 ≤ times a) :
    min ((repeated times l).countP p) bound = min (l.countP p) bound ↔
      bound ≤ l.countP p ∨ ∀ a ∈ l, p a = true → times a = 1 := by
  have hle := countP_le_countP_repeated (p := p) htimes
  rw [← countP_repeated_eq_iff htimes]
  omega

end Tally
