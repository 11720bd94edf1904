import Mathlib.Data.Nat.Notation
import Mathlib.Logic.Function.Basic
import Mathlib.Logic.Relation
import Mathlib.Tactic.TypeStar

/-! # Loops with a measure

A loop takes steps until one returns. Every step that goes on lowers a measure,
so the loop returns from every state; what its steps keep decides what it returns.
-/

structure Loop (σ ω : Type*) where
  /-- Return with an answer, or go on from a state. -/
  step : σ → ω ⊕ σ
  measure : σ → ℕ
  decreasing : ∀ {s s'}, step s = .inr s' → measure s' < measure s

namespace Loop

variable {σ ω : Type*} (L : Loop σ ω)

/-- At most `fuel` steps. -/
def runFuel : ℕ → σ → Option ω
  | 0, _ => none
  | fuel + 1, s =>
    match L.step s with
    | .inl w => some w
    | .inr s' => runFuel fuel s'

variable {L}

theorem runFuel_inl {s : σ} {w : ω} (h : L.step s = .inl w) (fuel : ℕ) :
    L.runFuel (fuel + 1) s = some w := by
  rw [runFuel, h]

theorem runFuel_inr {s s' : σ} (h : L.step s = .inr s') (fuel : ℕ) :
    L.runFuel (fuel + 1) s = L.runFuel fuel s' := by
  rw [runFuel, h]

/-- Fuel above the measure is enough to return. -/
theorem runFuel_isSome {fuel : ℕ} {s : σ} (h : L.measure s < fuel) :
    (L.runFuel fuel s).isSome = true := by
  induction fuel generalizing s with
  | zero => exact absurd h (Nat.not_lt_zero _)
  | succ fuel ih =>
    cases hs : L.step s with
    | inl w =>
      rw [runFuel_inl hs]
      rfl
    | inr s' =>
      rw [runFuel_inr hs]
      exact ih (by have := L.decreasing hs; omega)

/-- More fuel does not change what is returned. -/
theorem runFuel_mono {fuel fuel' : ℕ} {s : σ} {w : ω} (h : L.runFuel fuel s = some w)
    (hle : fuel ≤ fuel') : L.runFuel fuel' s = some w := by
  induction fuel generalizing fuel' s with
  | zero => cases h
  | succ fuel ih =>
    obtain ⟨fuel', rfl⟩ : ∃ n, fuel' = n + 1 := ⟨fuel' - 1, by omega⟩
    cases hs : L.step s with
    | inl w' =>
      rw [runFuel_inl hs] at h ⊢
      exact h
    | inr s' =>
      rw [runFuel_inr hs] at h ⊢
      exact ih h (by omega)

variable (L) in
/-- What the loop returns. -/
def exec (s : σ) : ω := (L.runFuel (L.measure s + 1) s).get (runFuel_isSome (Nat.lt_succ_self _))

theorem runFuel_exec (s : σ) : L.runFuel (L.measure s + 1) s = some (L.exec s) :=
  (Option.some_get _).symm

theorem exec_inl {s : σ} {w : ω} (h : L.step s = .inl w) : L.exec s = w := by
  have hexec := runFuel_exec (L := L) s
  rw [runFuel_inl h] at hexec
  exact (Option.some.inj hexec).symm

theorem exec_inr {s s' : σ} (h : L.step s = .inr s') : L.exec s = L.exec s' := by
  have hexec := runFuel_exec (L := L) s
  rw [runFuel_inr h] at hexec
  have hmore : L.runFuel (L.measure s) s' = some (L.exec s') :=
    runFuel_mono (runFuel_exec s') (L.decreasing h)
  rw [hmore] at hexec
  exact (Option.some.inj hexec).symm

/-- Induction along the steps of a run: what is shown where the loop returns, back to its start. -/
theorem exec_induction {P : σ → ω → Prop} (hdone : ∀ s w, L.step s = .inl w → P s w)
    (hnext : ∀ s s', L.step s = .inr s' → P s' (L.exec s') → P s (L.exec s')) (s : σ) :
    P s (L.exec s) := by
  induction hm : L.measure s using Nat.strongRecOn generalizing s with
  | _ m ih =>
    cases hs : L.step s with
    | inl w =>
      rw [exec_inl hs]
      exact hdone s w hs
    | inr s' =>
      rw [exec_inr hs]
      exact hnext s s' hs (ih _ (hm ▸ L.decreasing hs) s' rfl)

/-! ## Traces -/

section Traces

variable {ε : Type*}

variable (L) in
/-- What at most `fuel` steps emit. -/
def traceFuel (emit : σ → List ε) : ℕ → σ → List ε
  | 0, _ => []
  | fuel + 1, s => emit s ++
    match L.step s with
    | .inl _ => []
    | .inr s' => traceFuel emit fuel s'

variable (L) in
/-- What the steps of a run emit, in order. -/
def trace (emit : σ → List ε) (s : σ) : List ε := L.traceFuel emit (L.measure s + 1) s

variable {emit : σ → List ε}

/-- Fuel above the measure does not show in what is emitted. -/
theorem traceFuel_eq {fuel fuel' : ℕ} {s : σ} (h : L.measure s < fuel)
    (h' : L.measure s < fuel') : L.traceFuel emit fuel s = L.traceFuel emit fuel' s := by
  induction fuel generalizing fuel' s with
  | zero => exact absurd h (Nat.not_lt_zero _)
  | succ fuel ih =>
    obtain ⟨fuel', rfl⟩ : ∃ n, fuel' = n + 1 := ⟨fuel' - 1, by omega⟩
    rw [traceFuel, traceFuel]
    cases hs : L.step s with
    | inl w => rfl
    | inr s' =>
      have hlt := L.decreasing hs
      exact congrArg (emit s ++ ·) (ih (by omega) (by omega))

theorem trace_inl {s : σ} {w : ω} (h : L.step s = .inl w) : L.trace emit s = emit s := by
  rw [trace, traceFuel, h]
  exact List.append_nil _

theorem trace_inr {s s' : σ} (h : L.step s = .inr s') :
    L.trace emit s = emit s ++ L.trace emit s' := by
  rw [trace, traceFuel, h]
  exact congrArg (emit s ++ ·) (traceFuel_eq (L.decreasing h) (Nat.lt_succ_self _))

variable (L) in
/-- The states in which a run takes its steps. -/
def visited (s : σ) : List σ := L.trace (fun s => [s]) s

/-- What is emitted is emitted state by state. -/
theorem trace_eq_flatMap (s : σ) : L.trace emit s = (L.visited s).flatMap emit := by
  refine L.exec_induction (P := fun s _ => L.trace emit s = (L.visited s).flatMap emit) ?_ ?_ s
  · intro s w hs
    rw [trace_inl hs, visited, trace_inl hs, List.flatMap_singleton]
  · intro s s' hs ih
    rw [trace_inr hs, visited, trace_inr hs, List.flatMap_append, List.flatMap_singleton, ih]
    rfl

end Traces

/-! ## Environments -/

section Environments

variable {ε : Type*}

/--
A loop meets an environment place by place: a step looks at its own place only, and goes on to a
later one.
-/
structure Unfolds (L : (ℕ → ε) → Loop σ ω) (place : σ → ℕ) : Prop where
  step_eq : ∀ env s, (L env).step s = (L fun _ => env (place s)).step s
  place_lt : ∀ {env s s'}, (L env).step s = .inr s' → place s < place s'

/-- A step goes on from the one state to the other, in some environment of such places. -/
def Goes (L : (ℕ → ε) → Loop σ ω) (P : ε → Prop) (s s' : σ) : Prop :=
  ∃ env, (∀ n, P (env n)) ∧ (L env).step s = .inr s'

theorem Goes.mono {L : (ℕ → ε) → Loop σ ω} {P Q : ε → Prop} (h : ∀ e, P e → Q e) {s s' : σ}
    (hs : Goes L P s s') : Goes L Q s s' := by
  obtain ⟨env, henv, hstep⟩ := hs
  exact ⟨env, fun n => h _ (henv n), hstep⟩

namespace Unfolds

variable {L : (ℕ → ε) → Loop σ ω} {P : ε → Prop} {place : σ → ℕ}

theorem step_congr (U : Unfolds L place) {env env' : ℕ → ε} {s : σ}
    (h : env (place s) = env' (place s)) : (L env).step s = (L env').step s := by
  rw [U.step_eq env, U.step_eq env', h]

/-- What lies before the place of a state does not show in what the loop returns from it. -/
theorem exec_congr (U : Unfolds L place) {env env' : ℕ → ε} {s : σ}
    (h : ∀ n, place s ≤ n → env n = env' n) :
    (L env).exec s = (L env').exec s := by
  have hrun := (L env).exec_induction
    (P := fun s w => (∀ n, place s ≤ n → env n = env' n) → w = (L env').exec s) ?_ ?_ s
  · exact hrun h
  · intro s w hs h
    rw [U.step_congr (h _ (Nat.le_refl _))] at hs
    exact (exec_inl hs).symm
  · intro s s' hs ih h
    have hlt := U.place_lt hs
    rw [U.step_congr (h _ (Nat.le_refl _))] at hs
    rw [exec_inr hs]
    exact ih fun n hn => h n (by omega)

/-- A run that meets its environment step by step returns what the loop returns in one. -/
theorem exists_exec_eq (U : Unfolds L place) {env : ℕ → ε} (henv : ∀ n, P (env n)) {s₀ s : σ}
    {w : ω} (h : Relation.ReflTransGen (Goes L P) s₀ s) (hs : (L env).step s = .inl w) :
    ∃ env, (∀ n, P (env n)) ∧ (L env).exec s₀ = w := by
  induction h using Relation.ReflTransGen.head_induction_on with
  | refl => exact ⟨env, henv, exec_inl hs⟩
  | @head s₀ s₁ hgoes _ ih =>
    obtain ⟨first, hfirst, hgoes⟩ := hgoes
    obtain ⟨later, hlater, hexec⟩ := ih
    have hlt := U.place_lt hgoes
    let env := Function.update later (place s₀) (first (place s₀))
    have hplace : first (place s₀) = env (place s₀) :=
      (Function.update_self (place s₀) (first (place s₀)) later).symm
    rw [U.step_congr hplace] at hgoes
    refine ⟨env, ?_, ?_⟩
    · exact (Function.forall_update_iff later fun _ e => P e).mpr
        ⟨hfirst _, fun n _ => hlater n⟩
    · rw [exec_inr hgoes, ← hexec]
      exact U.exec_congr fun n hn => Function.update_of_ne (by omega) ..

end Unfolds

end Environments

end Loop
