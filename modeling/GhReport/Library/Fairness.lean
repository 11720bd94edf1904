import GhReport.Library.Machine
import Mathlib.Data.Set.Basic
import Mathlib.Order.OrderIsoNat

/-! # Guarded actions and fair behaviours

A system moves by actions that may or may not be enabled. A behaviour is an endless
run that may pause; it is fair to a set of actions if it does not pass by one
for ever that stays enabled.
-/

structure ActionSystem (σ α : Type*) where
  start : σ
  next : σ → α → Option σ

namespace ActionSystem

variable {σ α : Type*}

/-- The machine that tries actions; one that is not enabled changes nothing. -/
def machine (S : ActionSystem σ α) : Machine σ α Bool where
  step s a :=
    match S.next s a with
    | some s' => (true, s')
    | none => (false, s)

/-- The state after some actions were tried. -/
def reached (S : ActionSystem σ α) (as : List α) : σ := S.machine.after S.start as

def Enabled (S : ActionSystem σ α) (F : Set α) (s : σ) : Prop := ∃ a ∈ F, (S.next s a).isSome

structure Behaviour (S : ActionSystem σ α) where
  state : ℕ → σ
  start_eq : state 0 = S.start
  next_eq : ∀ n, state (n + 1) = state n ∨ ∃ a, S.next (state n) a = some (state (n + 1))

section Reached

variable {S : ActionSystem σ α}

theorem reached_append (as : List α) (a : α) :
    S.reached (as ++ [a]) = (S.machine.step (S.reached as) a).2 :=
  Machine.after_append ..

theorem step_of_next {s s' : σ} {a : α} (h : S.next s a = some s') :
    S.machine.step s a = (true, s') := by
  simp only [machine, h]

theorem step_of_not_next {s : σ} {a : α} (h : S.next s a = none) :
    S.machine.step s a = (false, s) := by
  simp only [machine, h]

/-- What every enabled action keeps holds whatever is tried. -/
theorem invariant {I : σ → Prop} (hstart : I S.start)
    (hnext : ∀ s a s', I s → S.next s a = some s' → I s') (as : List α) : I (S.reached as) := by
  refine Machine.invariant (fun s a hs => ?_) hstart as
  cases h : S.next s a with
  | none => rwa [step_of_not_next h]
  | some s' =>
    rw [step_of_next h]
    exact hnext s a s' hs h

end Reached

namespace Behaviour

variable {S : ActionSystem σ α} (b : S.Behaviour)

/-- One of the actions may be what was done at a time. -/
def Takes (F : Set α) (n : ℕ) : Prop := ∃ a ∈ F, S.next (b.state n) a = some (b.state (n + 1))

def FairTo (F : Set α) : Prop :=
  ∀ n, (∀ m ≥ n, S.Enabled F (b.state m)) → ∃ m ≥ n, b.Takes F m

variable {b}

/-- Every state of a behaviour is one that some actions lead to. -/
theorem exists_reached (n : ℕ) : ∃ as, b.state n = S.reached as := by
  induction n with
  | zero => exact ⟨[], b.start_eq⟩
  | succ n ih =>
    obtain ⟨as, has⟩ := ih
    rcases b.next_eq n with h | ⟨a, h⟩
    · exact ⟨as, h.trans has⟩
    · refine ⟨as ++ [a], ?_⟩
      rw [reached_append, ← has, step_of_next h]

/-- What holds at a time and is never lost holds from then on. -/
theorem holds_from {P : σ → Prop} (hnext : ∀ s a s', P s → S.next s a = some s' → P s') {n : ℕ}
    (h : P (b.state n)) {m : ℕ} (hm : n ≤ m) : P (b.state m) := by
  induction hm with
  | refl => exact h
  | @step m _ ih =>
    rcases b.next_eq m with heq | ⟨a, ha⟩
    · rwa [heq]
    · exact hnext _ a _ ih ha

/-- A number that no action raises settles. -/
theorem exists_settled {f : σ → ℕ} (hnext : ∀ n, f (b.state (n + 1)) ≤ f (b.state n)) :
    ∃ n, ∀ m ≥ n, f (b.state m) = f (b.state n) := by
  have hanti : Antitone fun n => f (b.state n) := antitone_nat_of_succ_le hnext
  obtain ⟨n, hn⟩ := WellFoundedLT.antitone_chain_condition hanti
  exact ⟨n, fun m hm => (hn m hm).symm⟩

/--
If as long as a condition holds one of the actions is enabled, and the condition is
lost to `Q` only, and a step by one of the actions loses it, then `Q` comes about.
-/
theorem FairTo.eventually {F : Set α} (hfair : b.FairTo F) {P Q : σ → Prop} {n : ℕ}
    (hP : P (b.state n)) (henabled : ∀ m ≥ n, P (b.state m) → S.Enabled F (b.state m))
    (hkeep : ∀ m ≥ n, P (b.state m) → P (b.state (m + 1)) ∨ Q (b.state (m + 1)))
    (htake : ∀ m ≥ n, P (b.state m) → b.Takes F m → Q (b.state (m + 1))) :
    ∃ m ≥ n, Q (b.state m) := by
  by_contra! hnever
  have hstays : ∀ m ≥ n, P (b.state m) := by
    intro m hm
    induction hm with
    | refl => exact hP
    | @step m hm ih => exact (hkeep m hm ih).resolve_right (hnever _ (Nat.le_succ_of_le hm))
  obtain ⟨m, hm, htakes⟩ := hfair n fun m hm => henabled m hm (hstays m hm)
  exact hnever _ (Nat.le_succ_of_le hm) (htake m hm (hstays m hm) htakes)

/--
If every action makes a number smaller, the behaviour comes to rest, and where it
rests nothing that it is fair to is enabled.
-/
theorem exists_rest {f : σ → ℕ}
    (hnext : ∀ n a, S.next (b.state n) a = some (b.state (n + 1)) →
      f (b.state (n + 1)) < f (b.state n)) :
    ∃ n, (∀ m ≥ n, b.state m = b.state n) ∧ ∀ F, b.FairTo F → ¬ S.Enabled F (b.state n) := by
  obtain ⟨n, hn⟩ := b.exists_settled (f := f) fun m => by
    rcases b.next_eq m with heq | ⟨a, ha⟩
    · rw [heq]
    · exact (hnext m a ha).le
  have hidle : ∀ m ≥ n, ∀ a, S.next (b.state m) a ≠ some (b.state (m + 1)) := by
    intro m hm a ha
    have hlt := hnext m a ha
    rw [hn m hm, hn (m + 1) (Nat.le_succ_of_le hm)] at hlt
    exact lt_irrefl _ hlt
  have hrest : ∀ m ≥ n, b.state m = b.state n := by
    intro m hm
    induction hm with
    | refl => rfl
    | @step m hm ih =>
      rcases b.next_eq m with heq | ⟨a, ha⟩
      · exact heq.trans ih
      · exact absurd ha (hidle m hm a)
  refine ⟨n, hrest, fun F hfair henabled => ?_⟩
  obtain ⟨m, hm, a, -, ha⟩ := hfair n fun m hm => hrest m hm ▸ henabled
  exact hidle m hm a ha

end Behaviour

/-! ## Behaviours that come to rest -/

section Script

variable (S : ActionSystem σ α)

/-- The actions are tried in turn, and then nothing is done any more. -/
def script (as : List α) : S.Behaviour where
  state n := S.reached (as.take n)
  start_eq := rfl
  next_eq n := by
    rcases Nat.lt_or_ge n as.length with hlt | hge
    · rw [List.take_succ_eq_append_getElem hlt, reached_append]
      cases h : S.next (S.reached (as.take n)) as[n] with
      | none => exact .inl (by rw [step_of_not_next h])
      | some s' => exact .inr ⟨as[n], by rw [step_of_next h, h]⟩
    · rw [List.take_of_length_le hge, List.take_of_length_le (Nat.le_succ_of_le hge)]
      exact .inl rfl

variable {S}

theorem script_fairTo {as : List α} {F : Set α} (h : ¬ S.Enabled F (S.reached as)) :
    (S.script as).FairTo F := by
  intro n henabled
  have hlast : S.Enabled F (S.reached (as.take (max n as.length))) :=
    henabled _ (Nat.le_max_left ..)
  rw [List.take_of_length_le (Nat.le_max_right ..)] at hlast
  exact absurd hlast h

/-- What changes nothing may be done for ever. -/
theorem script_fairTo_of_loop {as : List α} {F : Set α} {a : α} (ha : a ∈ F)
    (h : S.next (S.reached as) a = some (S.reached as)) : (S.script as).FairTo F := by
  intro n _
  refine ⟨max n as.length, Nat.le_max_left .., a, ha, ?_⟩
  have hlast : as.length ≤ max n as.length := Nat.le_max_right ..
  change S.next (S.reached (as.take _)) a = some (S.reached (as.take _))
  rw [List.take_of_length_le hlast, List.take_of_length_le (Nat.le_succ_of_le hlast)]
  exact h

end Script

end ActionSystem
