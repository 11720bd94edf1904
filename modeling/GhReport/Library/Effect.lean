import Mathlib.Logic.Basic

/-! # Stateful computations that may stop

A computation moves a state and returns a value, or stops; a stop keeps the
state as it was when the computation stopped.
-/

namespace Except

variable {ε ε' α β : Type}

theorem bind_eq_ok_iff {x : Except ε α} {f : α → Except ε β} {b : β} :
    (x >>= f) = .ok b ↔ ∃ a, x = .ok a ∧ f a = .ok b := by
  constructor
  · intro h
    cases x with
    | ok a => exact ⟨a, rfl, h⟩
    | error e => cases h
  · rintro ⟨a, rfl, h⟩
    exact h

@[simp] theorem mapError_eq_ok_iff {x : Except ε α} {f : ε → ε'} {a : α} :
    x.mapError f = .ok a ↔ x = .ok a := by
  constructor
  · intro h
    cases x with
    | ok b =>
      cases h
      rfl
    | error e => cases h
  · rintro rfl
    rfl

theorem length_of_mapM_ok {f : α → Except ε β} {as : List α} {bs : List β}
    (h : as.mapM f = .ok bs) : bs.length = as.length := by
  induction as generalizing bs with
  | nil =>
    cases h
    rfl
  | cons a as ih =>
    rw [List.mapM_cons] at h
    obtain ⟨b, -, h⟩ := bind_eq_ok_iff.mp h
    obtain ⟨bs', hbs', h⟩ := bind_eq_ok_iff.mp h
    cases h
    rw [List.length_cons, List.length_cons, ih hbs']

end Except

def Effect (ε σ α : Type) := σ → Except ε α × σ

namespace Effect

variable {ε σ α β : Type}

instance : Monad (Effect ε σ) where
  pure a := fun s => (.ok a, s)
  bind x f := fun s =>
    match x s with
    | (.ok a, s) => f a s
    | (.error e, s) => (.error e, s)

/-- A pure result; it does not touch the state. -/
def lift (x : Except ε α) : Effect ε σ α := fun s => (x, s)

def modify (f : σ → σ) : Effect ε σ Unit := fun s => (.ok (), f s)

/-- A computation on a part of the state. -/
def zoom {τ : Type} (get : σ → τ) (set : τ → σ → σ) (f : τ → Except ε α × τ) : Effect ε σ α :=
  fun s => ((f (get s)).1, set (f (get s)).2 s)

theorem bind_ok {x : Effect ε σ α} {f : α → Effect ε σ β} {s s₁ : σ} {a : α}
    (h : x s = (.ok a, s₁)) : (x >>= f) s = f a s₁ := by
  change (match x s with
    | (.ok a, s) => f a s
    | (.error e, s) => (.error e, s)) = _
  rw [h]

theorem bind_error {x : Effect ε σ α} {f : α → Effect ε σ β} {s s₁ : σ} {e : ε}
    (h : x s = (.error e, s₁)) : (x >>= f) s = (.error e, s₁) := by
  change (match x s with
    | (.ok a, s) => f a s
    | (.error e, s) => (.error e, s)) = _
  rw [h]

/--
`x` may be followed by anything: if it returns, the rest decides, and if it stops, `Q` holds of
the stop.
-/
theorem bind_rule {x : Effect ε σ α} {f : α → Effect ε σ β} {s : σ}
    {Q : Except ε β → σ → Prop}
    (hok : ∀ a s₁, x s = (.ok a, s₁) → Q (f a s₁).1 (f a s₁).2)
    (herror : ∀ e s₁, x s = (.error e, s₁) → Q (.error e) s₁) :
    Q ((x >>= f) s).1 ((x >>= f) s).2 := by
  cases h : x s with
  | mk r s₁ =>
    cases r with
    | ok a =>
      rw [bind_ok h]
      exact hok a s₁ h
    | error e =>
      rw [bind_error h]
      exact herror e s₁ h

/-- A condition on the state that `x` keeps, and what follows it. -/
theorem keeps_bind {I : σ → Prop} {x : Effect ε σ α} {f : α → Effect ε σ β} {s : σ}
    (hx : I (x s).2) (hf : ∀ a s₁, x s = (.ok a, s₁) → I s₁ → I (f a s₁).2) :
    I ((x >>= f) s).2 := by
  apply bind_rule (Q := fun _ s => I s)
  · intro a s₁ h
    rw [h] at hx
    exact hf a s₁ h hx
  · intro e s₁ h
    rw [h] at hx
    exact hx

/-- The rule for a pure result in front. -/
theorem lift_rule {x : Except ε α} {f : α → Effect ε σ β} {s : σ} {Q : Except ε β → σ → Prop}
    (hok : ∀ a, x = .ok a → Q (f a s).1 (f a s).2) (herror : ∀ e, x = .error e → Q (.error e) s) :
    Q ((lift x >>= f) s).1 ((lift x >>= f) s).2 := by
  apply bind_rule
  · rintro a s₁ h
    cases h
    exact hok a rfl
  · rintro e s₁ h
    cases h
    exact herror e rfl

end Effect
