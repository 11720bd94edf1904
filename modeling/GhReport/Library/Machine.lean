import Mathlib.Data.List.Basic

/-! # Deterministic machines

A machine takes an input, gives an answer, and moves. What holds along a run is
shown for one step and carried to the run by induction on its inputs.
-/

structure Machine (σ ι ω : Type*) where
  step : σ → ι → ω × σ

namespace Machine

variable {σ ι ω ρ : Type*} (M : Machine σ ι ω)

/-- The state after a run. -/
def after (s : σ) (is : List ι) : σ := is.foldl (fun s i => (M.step s i).2) s

/-- The inputs of a run, each with its answer. -/
def trace : σ → List ι → List (ι × ω)
  | _, [] => []
  | s, i :: is => (i, (M.step s i).1) :: trace (M.step s i).2 is

/-- Every step of the run meets `G`, a condition on the state before it and its input. -/
def Along (G : σ → ι → Prop) : σ → List ι → Prop
  | _, [] => True
  | s, i :: is => G s i ∧ Along G (M.step s i).2 is

instance decidableAlong {G : σ → ι → Prop} [∀ s i, Decidable (G s i)] :
    ∀ s is, Decidable (M.Along G s is)
  | _, [] => .isTrue trivial
  | s, i :: is => @instDecidableAnd _ _ _ (decidableAlong (M.step s i).2 is)

variable {M}

@[simp] theorem after_nil (s : σ) : M.after s [] = s := rfl

@[simp] theorem after_cons (s : σ) (i : ι) (is : List ι) :
    M.after s (i :: is) = M.after (M.step s i).2 is := rfl

theorem after_append (s : σ) (is js : List ι) :
    M.after s (is ++ js) = M.after (M.after s is) js :=
  List.foldl_append

theorem along_append {G : σ → ι → Prop} {is js : List ι} {s : σ} :
    M.Along G s (is ++ js) ↔ M.Along G s is ∧ M.Along G (M.after s is) js := by
  induction is generalizing s with
  | nil => exact ⟨fun h => ⟨trivial, h⟩, fun h => h.2⟩
  | cons i is ih =>
    constructor
    · rintro ⟨hi, h⟩
      exact ⟨⟨hi, (ih.mp h).1⟩, (ih.mp h).2⟩
    · rintro ⟨⟨hi, h⟩, h'⟩
      exact ⟨hi, ih.mpr ⟨h, h'⟩⟩

theorem along_of_forall {G : σ → ι → Prop} (h : ∀ s i, G s i) (s : σ) (is : List ι) :
    M.Along G s is := by
  induction is generalizing s with
  | nil => trivial
  | cons i is ih => exact ⟨h s i, ih _⟩

theorem along_congr {G P : σ → ι → Prop} (h : ∀ s i, G s i ↔ P s i) {s : σ} {is : List ι} :
    M.Along G s is ↔ M.Along P s is := by
  induction is generalizing s with
  | nil => exact Iff.rfl
  | cons i is ih => exact and_congr (h s i) ih

theorem along_and {G P : σ → ι → Prop} {s : σ} {is : List ι} :
    M.Along (fun s i => G s i ∧ P s i) s is ↔ M.Along G s is ∧ M.Along P s is := by
  induction is generalizing s with
  | nil => exact ⟨fun _ => ⟨trivial, trivial⟩, fun _ => trivial⟩
  | cons i is ih =>
    constructor
    · rintro ⟨⟨hg, hp⟩, h⟩
      exact ⟨⟨hg, (ih.mp h).1⟩, ⟨hp, (ih.mp h).2⟩⟩
    · rintro ⟨⟨hg, h⟩, ⟨hp, h'⟩⟩
      exact ⟨⟨hg, hp⟩, ih.mpr ⟨h, h'⟩⟩

/-- A condition on the inputs alone is met along a run of inputs that meet it. -/
theorem along_of_mem {P : ι → Prop} {is : List ι} (h : ∀ i ∈ is, P i) (s : σ) :
    M.Along (fun _ i => P i) s is := by
  induction is generalizing s with
  | nil => trivial
  | cons i is ih =>
    exact ⟨h i (List.mem_cons_self ..), ih (fun j hj => h j (List.mem_cons_of_mem _ hj)) _⟩

/-- An invariant that the steps meeting `G` keep holds after every run of such steps. -/
theorem invariant_along {I : σ → Prop} {G : σ → ι → Prop}
    (hstep : ∀ s i, I s → G s i → I (M.step s i).2) {s : σ} {is : List ι} (hs : I s)
    (h : M.Along G s is) : I (M.after s is) := by
  induction is generalizing s with
  | nil => exact hs
  | cons i is ih => exact ih (hstep s i hs h.1) h.2

/-- Along a run of steps meeting `G`, each step has what it has under the invariant. -/
theorem along_of_invariant {I : σ → Prop} {G P : σ → ι → Prop}
    (hstep : ∀ s i, I s → G s i → I (M.step s i).2 ∧ P s i) {s : σ} {is : List ι} (hs : I s)
    (h : M.Along G s is) : M.Along P s is := by
  induction is generalizing s with
  | nil => trivial
  | cons i is ih => exact ⟨(hstep s i hs h.1).2, ih (hstep s i hs h.1).1 h.2⟩

/-- An invariant that every step keeps holds after every run. -/
theorem invariant {I : σ → Prop} (hstep : ∀ s i, I s → I (M.step s i).2) {s : σ} (hs : I s)
    (is : List ι) : I (M.after s is) :=
  invariant_along (fun s i h _ => hstep s i h) hs
    (along_of_forall (fun _ _ => trivial) s is)

/-- What grows along a run and ends within a bound is within it after each step. -/
theorem along_le_of_after_le {f : σ → ℕ} (hf : ∀ s i, f s ≤ f (M.step s i).2) {s : σ}
    {is : List ι} {bound : ℕ} (h : f (M.after s is) ≤ bound) :
    M.Along (fun s i => f (M.step s i).2 ≤ bound) s is := by
  have hmono : ∀ (is : List ι) (s : σ), f s ≤ f (M.after s is) := by
    intro is
    induction is with
    | nil => exact fun _ => Nat.le_refl _
    | cons i is ih => exact fun s => Nat.le_trans (hf s i) (ih _)
  induction is generalizing s with
  | nil => trivial
  | cons i is ih => exact ⟨Nat.le_trans (hmono is _) h, ih h⟩

/-- A run costs at most its potential and what its steps are given. -/
theorem countP_trace_le {I : σ → Prop} {G : σ → ι → Prop} {f : σ → ℕ}
    {p q : ι × ω → Bool}
    (hstep : ∀ s i, I s → G s i → I (M.step s i).2 ∧
      (p (i, (M.step s i).1)).toNat + f (M.step s i).2 ≤
        f s + (q (i, (M.step s i).1)).toNat)
    {s : σ} {is : List ι} (hs : I s) (h : M.Along G s is) :
    (M.trace s is).countP p ≤ f s + (M.trace s is).countP q := by
  induction is generalizing s with
  | nil => exact Nat.zero_le _
  | cons i is ih =>
    have hi := hstep s i hs h.1
    have hrest := ih hi.1 h.2
    have hcount : ∀ r : ι × ω → Bool, (M.trace s (i :: is)).countP r =
        (M.trace (M.step s i).2 is).countP r + (r (i, (M.step s i).1)).toNat := by
      intro r
      cases hr : r (i, (M.step s i).1) with
      | false => simp [trace, hr]
      | true => simp [trace, hr]
    rw [hcount, hcount]
    omega

end Machine
