import GhReport.Library.Fairness
import Mathlib.Algebra.GroupWithZero.Nat
import Mathlib.Data.Fintype.Card

/-! # The token bucket

The tokens there are follow from the clock alone, and a worker that takes one needs no
other. The checked bucket caps what the clock has generated; the documented formula
caps what is left of it, and that is another bucket.
-/

namespace GhReport.Spec.TokenBucket

/-- Where the capacity cuts off. -/
inductive Cap where
  | generated
  | available

structure Bucket where
  capacity : ℕ
  ratePerTick : ℕ
  ticks : ℕ
  cap : Cap

structure State (n : ℕ) where
  clock : ℕ
  consumed : ℕ
  done : Fin n → Bool

inductive Action (n : ℕ) where
  | attemptDebit (w : Fin n)
  | clockTick

variable {n : ℕ}

def Bucket.available (t : Bucket) (clock consumed : ℕ) : ℕ :=
  match t.cap with
  | .generated => min t.capacity (clock * t.ratePerTick) - consumed
  | .available => min t.capacity (clock * t.ratePerTick - consumed)

/-- A worker tries once, whether or not it gets a token. -/
def attemptDebit (t : Bucket) (s : State n) (w : Fin n) : Option (State n) :=
  if s.done w then none
  else
    let consumed :=
      if 1 ≤ t.available s.clock s.consumed then s.consumed + 1 else s.consumed
    some { s with consumed := consumed, done := Function.update s.done w true }

def clockTick (t : Bucket) (s : State n) : Option (State n) :=
  if s.clock < t.ticks then some { s with clock := s.clock + 1 } else none

def system (n : ℕ) (t : Bucket) : ActionSystem (State n) (Action n) where
  start := ⟨0, 0, fun _ => false⟩
  next s a :=
    match a with
    | .attemptDebit w => attemptDebit t s w
    | .clockTick => clockTick t s

/-! ## Steps -/

inductive Moves (t : Bucket) (s : State n) : Action n → State n → Prop
  | debit {w : Fin n} (hdone : s.done w = false) (h : 1 ≤ t.available s.clock s.consumed) :
      Moves t s (.attemptDebit w)
        { s with consumed := s.consumed + 1, done := Function.update s.done w true }
  | refuse {w : Fin n} (hdone : s.done w = false) (h : ¬ 1 ≤ t.available s.clock s.consumed) :
      Moves t s (.attemptDebit w) { s with done := Function.update s.done w true }
  | tick (h : s.clock < t.ticks) : Moves t s .clockTick { s with clock := s.clock + 1 }

variable {t : Bucket} {s s' : State n} {a : Action n} {w : Fin n}

theorem next_iff : (system n t).next s a = some s' ↔ Moves t s a s' := by
  constructor
  · intro h
    cases a with
    | attemptDebit w =>
      simp only [system, attemptDebit] at h
      split_ifs at h with hdone havailable
      · cases h
        exact .debit (by simpa using hdone) havailable
      · cases h
        exact .refuse (by simpa using hdone) havailable
    | clockTick =>
      simp only [system, clockTick] at h
      split_ifs at h with hclock
      cases h
      exact .tick hclock
  · rintro (⟨hdone, h⟩ | ⟨hdone, h⟩ | h)
    · simp [system, attemptDebit, hdone, h]
    · simp [system, attemptDebit, hdone, h]
    · simp [system, clockTick, h]

/-- The workers that have not tried yet. -/
def State.waiting (s : State n) : Finset (Fin n) := Finset.univ.filter fun w => s.done w = false

theorem mem_waiting : w ∈ s.waiting ↔ s.done w = false := by
  simp [State.waiting]

theorem waiting_update (s : State n) (w : Fin n) (consumed : ℕ) :
    State.waiting { s with consumed := consumed, done := Function.update s.done w true } =
      s.waiting.erase w := by
  ext v
  rw [Finset.mem_erase, mem_waiting, mem_waiting]
  rcases eq_or_ne v w with rfl | hne
  · simp
  · simp [hne]

/-! ## What every step keeps -/

/-- No more is consumed than the clock has generated, nor by more workers than have tried. -/
structure Valid (t : Bucket) (s : State n) : Prop where
  clock_le : s.clock ≤ t.ticks
  consumed_le : s.consumed ≤ s.clock * t.ratePerTick
  waiting_le : s.consumed + s.waiting.card ≤ n
  capped : t.cap = .generated → s.consumed ≤ t.capacity
  empty : t.capacity = 0 → s.consumed = 0

theorem Bucket.consumed_lt_of_available {clock consumed : ℕ}
    (h : 1 ≤ t.available clock consumed) :
    consumed < clock * t.ratePerTick ∧ 0 < t.capacity ∧
      (t.cap = .generated → consumed < t.capacity) := by
  unfold Bucket.available at h
  split at h
  · exact ⟨by omega, by omega, fun _ => by omega⟩
  · rename_i hcap
    refine ⟨by omega, by omega, fun hcap' => ?_⟩
    rw [hcap] at hcap'
    cases hcap'

theorem Valid.move (h : Valid t s) (hmove : Moves t s a s') : Valid t s' := by
  cases hmove with
  | @debit w hdone havailable =>
    obtain ⟨hgenerated, hcapacity, hcapped⟩ := Bucket.consumed_lt_of_available havailable
    refine ⟨h.clock_le, hgenerated, ?_, hcapped, fun hzero => by omega⟩
    have hcard := Finset.card_erase_add_one (mem_waiting.mpr hdone)
    have hwaiting := h.waiting_le
    rw [waiting_update]
    dsimp only
    omega
  | @refuse w hdone =>
    refine ⟨h.clock_le, h.consumed_le, ?_, h.capped, h.empty⟩
    rw [waiting_update]
    exact (Nat.add_le_add_left (Finset.card_erase_le) _).trans h.waiting_le
  | tick hclock =>
    exact ⟨hclock, h.consumed_le.trans (Nat.mul_le_mul_right _ (Nat.le_succ _)), h.waiting_le,
      h.capped, h.empty⟩

theorem reached_valid (as : List (Action n)) : Valid t ((system n t).reached as) := by
  refine ActionSystem.invariant (I := Valid t) ⟨Nat.zero_le _, Nat.zero_le _, ?_,
    fun _ => Nat.zero_le _, fun _ => rfl⟩ (fun _ _ _ hs h => hs.move (next_iff.mp h)) as
  have hcard := Finset.card_le_univ (State.waiting (system n t).start)
  rw [Fintype.card_fin] at hcard
  exact (Nat.zero_add _).trans_le hcard

/--
However many workers there are, and whenever the clock ticks: no more is consumed than the
clock has generated, nor by more workers than have tried, and of the checked bucket no
more than its capacity, in all.
-/
theorem consumed_never_exceeds (t : Bucket) (as : List (Action n)) :
    let s := (system n t).reached as
    s.consumed ≤ s.clock * t.ratePerTick ∧ s.consumed + s.waiting.card ≤ n ∧
      (t.cap = .generated → s.consumed ≤ t.capacity) :=
  have h := reached_valid as
  ⟨h.consumed_le, h.waiting_le, h.capped⟩

/-! ## What a fair schedule brings about -/

theorem left_lt_of_moves (h : Moves t s a s') :
    t.ticks - s'.clock + s'.waiting.card < t.ticks - s.clock + s.waiting.card := by
  cases h with
  | debit hdone | refuse hdone =>
    rw [waiting_update]
    exact Nat.add_lt_add_left (Finset.card_erase_lt_of_mem (mem_waiting.mpr hdone)) _
  | tick hclock => exact Nat.add_lt_add_right (by dsimp only; omega) _

/-- If the clock ticks and every worker tries as long as it can, all of them are done. -/
theorem all_workers_eventually_done {t : Bucket} (b : (system n t).Behaviour)
    (hdebit : ∀ w, b.FairTo {.attemptDebit w}) (htick : b.FairTo {.clockTick}) :
    ∃ m, (∀ k ≥ m, b.state k = b.state m) ∧ (b.state m).clock = t.ticks ∧
      ∀ w, (b.state m).done w = true := by
  obtain ⟨m, hrest, hstill⟩ := b.exists_rest
    (f := fun s => t.ticks - s.clock + s.waiting.card) fun m a hnext =>
      left_lt_of_moves (next_iff.mp hnext)
  refine ⟨m, hrest, ?_, fun w => ?_⟩
  · obtain ⟨as, has⟩ := b.exists_reached m
    refine le_antisymm (has ▸ (reached_valid as).clock_le) (not_lt.mp fun hlt => ?_)
    exact hstill _ htick ⟨_, rfl, Option.isSome_of_mem (next_iff.mpr (.tick hlt))⟩
  · by_contra hundone
    have hdone : (b.state m).done w = false := by simpa using hundone
    refine hstill _ (hdebit w) ⟨_, rfl, ?_⟩
    by_cases havailable : 1 ≤ t.available (b.state m).clock (b.state m).consumed
    · exact Option.isSome_of_mem (next_iff.mpr (.debit hdone havailable))
    · exact Option.isSome_of_mem (next_iff.mpr (.refuse hdone havailable))

/-- The second worker is too late for the one token of the first tick. -/
def sampleDebits : List (Action 2) :=
  [.clockTick, .attemptDebit ⟨0, by decide⟩, .attemptDebit ⟨1, by decide⟩, .clockTick]

example :
    let b := (system 2 ⟨2, 1, 2, .generated⟩).script sampleDebits
    ∃ m, (∀ k ≥ m, b.state k = b.state m) ∧ (b.state m).clock = 2 ∧
      ∀ w, (b.state m).done w = true := by
  refine all_workers_eventually_done _ (fun w => ActionSystem.script_fairTo ?_)
    (ActionSystem.script_fairTo ?_)
  · rintro ⟨a, rfl, henabled⟩
    revert w
    decide
  · rintro ⟨a, rfl, henabled⟩
    revert henabled
    decide

/-! ## The documented formula -/

section Documented

variable {capacity rate ticks : ℕ}

theorem reached_ticks {k : ℕ} (hk : k ≤ t.ticks) :
    (system n t).reached (List.replicate k .clockTick) = ⟨k, 0, fun _ => false⟩ := by
  induction k with
  | zero => rfl
  | succ k ih =>
    have hmove := Moves.tick (t := t) (s := ⟨k, 0, fun _ : Fin n => false⟩) hk
    rw [List.replicate_succ', ActionSystem.reached_append, ih (Nat.le_of_succ_le hk),
      ActionSystem.step_of_next (next_iff.mpr hmove)]

/-- All the ticks, and then the first workers one after the other. -/
def burst (n ticks j : ℕ) : List (Action n) :=
  List.replicate ticks .clockTick ++ ((List.finRange n).take j).map .attemptDebit

theorem reached_burst (hcapacity : 0 < capacity) {j : ℕ} (hj : j ≤ n) :
    (system n ⟨capacity, rate, ticks, .available⟩).reached (burst n ticks j) =
      ⟨ticks, min j (ticks * rate), fun w => w < j⟩ := by
  induction j with
  | zero =>
    rw [burst, List.take_zero, List.map_nil, List.append_nil, reached_ticks le_rfl]
    simp
  | succ j ih =>
    have hlast : burst n ticks (j + 1) = burst n ticks j ++ [.attemptDebit ⟨j, hj⟩] := by
      rw [burst, burst, List.take_succ_eq_append_getElem (by rwa [List.length_finRange])]
      simp
    have hdone : Function.update (fun w : Fin n => decide (w.val < j)) ⟨j, hj⟩ true =
        fun w => decide (w.val < j + 1) := by
      funext w
      rcases eq_or_ne w ⟨j, hj⟩ with rfl | hne
      · simp
      · have : w.val ≠ j := fun h => hne (Fin.ext h)
        rw [Function.update_of_ne hne]
        congr 1
        exact propext (by omega)
    rw [hlast, ActionSystem.reached_append, ih (Nat.le_of_succ_le hj)]
    rcases Nat.lt_or_ge j (ticks * rate) with hlt | hge
    · have hmove := Moves.debit (t := ⟨capacity, rate, ticks, .available⟩)
        (s := ⟨ticks, min j (ticks * rate), fun w : Fin n => decide (w.val < j)⟩) (w := ⟨j, hj⟩)
        (by simp) (by simp only [Bucket.available]; omega)
      have hmin : min (j + 1) (ticks * rate) = min j (ticks * rate) + 1 := by omega
      rw [ActionSystem.step_of_next (next_iff.mpr hmove), hdone, hmin]
    · have hmove := Moves.refuse (t := ⟨capacity, rate, ticks, .available⟩)
        (s := ⟨ticks, min j (ticks * rate), fun w : Fin n => decide (w.val < j)⟩) (w := ⟨j, hj⟩)
        (by simp) (by simp only [Bucket.available]; omega)
      have hmin : min (j + 1) (ticks * rate) = min j (ticks * rate) := by omega
      rw [ActionSystem.step_of_next (next_iff.mpr hmove), hdone, hmin]

/--
By the documented formula the capacity bounds what is ever consumed just if there are
too few workers or ticks to consume more, or no token is ever available.
-/
theorem documented_within_capacity_iff (n capacity rate ticks : ℕ) :
    (∀ as : List (Action n),
        ((system n ⟨capacity, rate, ticks, .available⟩).reached as).consumed ≤ capacity) ↔
      capacity = 0 ∨ min n (ticks * rate) ≤ capacity := by
  constructor
  · intro h
    rcases Nat.eq_zero_or_pos capacity with hzero | hpos
    · exact .inl hzero
    · have hburst := h (burst n ticks n)
      rw [reached_burst hpos le_rfl] at hburst
      exact .inr hburst
  · intro h as
    have hvalid := reached_valid (t := ⟨capacity, rate, ticks, .available⟩) as
    rcases h with hzero | hle
    · exact (hvalid.empty hzero).trans_le (Nat.zero_le _)
    · have hgenerated := hvalid.consumed_le.trans (Nat.mul_le_mul_right rate hvalid.clock_le)
      have hworkers := (Nat.le_add_right _ _).trans hvalid.waiting_le
      exact (le_min hworkers hgenerated).trans hle

end Documented

end GhReport.Spec.TokenBucket
