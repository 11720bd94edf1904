import GhReport.Library.Fairness
import Mathlib.Algebra.GroupWithZero.Nat
import Mathlib.Data.Fintype.Card

/-! # The budget gate

Workers acquire permits from a common count of calls. Where the count is at its
limit, one of them is elected to reset it. A call that turns out to be free is refunded;
the gate before that was mended, which refunds nothing, is modelled beside it.
-/

namespace GhReport.Spec.BudgetGate

inductive WorkerState where
  | idle
  | parked
deriving DecidableEq

structure Worker where
  state : WorkerState
  doneThisEpoch : Bool
deriving DecidableEq

/-- How an acquired call turns out. -/
inductive Outcome where
  | real
  | free304

structure Gate where
  limit : ℕ
  epochs : ℕ
  refunds : Bool

structure State (n : ℕ) where
  calls : ℕ
  realSpend : ℕ
  resetting : Bool
  totalEpochs : ℕ
  workers : Fin n → Worker

inductive Action (n : ℕ) where
  | acquireFastPath (w : Fin n) (outcome : Outcome)
  | acquireElectReset (w : Fin n)
  | acquireParkOnFull (w : Fin n)

variable {n : ℕ}

def State.set (s : State n) (w : Fin n) (x : Worker) : State n :=
  { s with workers := Function.update s.workers w x }

/-- A worker that is still to acquire a permit in this epoch. -/
def State.acquires (s : State n) (w : Fin n) : Bool :=
  (s.workers w).state = .idle && !(s.workers w).doneThisEpoch

/-- A refund stops at nothing; before the gate was mended there was none. -/
def Gate.refund (g : Gate) (calls : ℕ) : ℕ := if g.refunds ∧ 0 < calls then calls - 1 else calls

def acquireFastPath (g : Gate) (s : State n) (w : Fin n) (outcome : Outcome) : Option (State n) :=
  if s.acquires w ∧ s.calls < g.limit ∧ s.totalEpochs < g.epochs then
    let acquired := { s with calls := s.calls + 1 }.set w ⟨(s.workers w).state, true⟩
    match outcome with
    | .real => some { acquired with realSpend := acquired.realSpend + 1 }
    | .free304 => some { acquired with calls := g.refund acquired.calls }
  else none

def Worker.wake (x : Worker) : Worker where
  state := if x.state = .parked then .idle else x.state
  doneThisEpoch := false

/-- The pause of the elected worker is not seen by any other. -/
def acquireElectReset (g : Gate) (s : State n) (w : Fin n) : Option (State n) :=
  if s.acquires w ∧ g.limit ≤ s.calls ∧ s.resetting = false ∧ s.totalEpochs < g.epochs then
    some ⟨0, 0, false, s.totalEpochs + 1, fun w => (s.workers w).wake⟩
  else none

def acquireParkOnFull (g : Gate) (s : State n) (w : Fin n) : Option (State n) :=
  if s.acquires w ∧ g.limit ≤ s.calls ∧ s.resetting = true then
    some (s.set w { s.workers w with state := .parked })
  else none

def system (n : ℕ) (g : Gate) : ActionSystem (State n) (Action n) where
  start := ⟨0, 0, false, 0, fun _ => ⟨.idle, false⟩⟩
  next s a :=
    match a with
    | .acquireFastPath w outcome => acquireFastPath g s w outcome
    | .acquireElectReset w => acquireElectReset g s w
    | .acquireParkOnFull w => acquireParkOnFull g s w

@[simp] theorem set_workers_self (s : State n) (w : Fin n) (x : Worker) :
    (s.set w x).workers w = x :=
  Function.update_self ..

theorem set_workers_of_ne {v w : Fin n} (hne : v ≠ w) (s : State n) (x : Worker) :
    (s.set w x).workers v = s.workers v :=
  Function.update_of_ne hne ..

/-! ## Steps -/

inductive Moves (g : Gate) (s : State n) : Action n → State n → Prop
  | real {w : Fin n} (hacquires : s.acquires w = true) (hcalls : s.calls < g.limit)
      (hepochs : s.totalEpochs < g.epochs) :
      Moves g s (.acquireFastPath w .real)
        ({ s with calls := s.calls + 1, realSpend := s.realSpend + 1 }.set w
          ⟨(s.workers w).state, true⟩)
  | free {w : Fin n} (hacquires : s.acquires w = true) (hcalls : s.calls < g.limit)
      (hepochs : s.totalEpochs < g.epochs) :
      Moves g s (.acquireFastPath w .free304)
        ({ s with calls := g.refund (s.calls + 1) }.set w ⟨(s.workers w).state, true⟩)
  | reset {w : Fin n} (hacquires : s.acquires w = true) (hcalls : g.limit ≤ s.calls)
      (hresetting : s.resetting = false) (hepochs : s.totalEpochs < g.epochs) :
      Moves g s (.acquireElectReset w)
        ⟨0, 0, false, s.totalEpochs + 1, fun w => (s.workers w).wake⟩
  | park {w : Fin n} (hacquires : s.acquires w = true) (hcalls : g.limit ≤ s.calls)
      (hresetting : s.resetting = true) :
      Moves g s (.acquireParkOnFull w) (s.set w { s.workers w with state := .parked })

variable {g : Gate} {s s' : State n} {a : Action n} {w : Fin n}

theorem next_iff : (system n g).next s a = some s' ↔ Moves g s a s' := by
  constructor
  · intro h
    cases a with
    | acquireFastPath w outcome =>
      simp only [system, acquireFastPath] at h
      split at h
      · rename_i henabled
        cases outcome <;> cases h
        · exact .real henabled.1 henabled.2.1 henabled.2.2
        · exact .free henabled.1 henabled.2.1 henabled.2.2
      · cases h
    | acquireElectReset w =>
      simp only [system, acquireElectReset] at h
      split_ifs at h with henabled
      cases h
      exact .reset henabled.1 henabled.2.1 henabled.2.2.1 henabled.2.2.2
    | acquireParkOnFull w =>
      simp only [system, acquireParkOnFull] at h
      split_ifs at h with henabled
      cases h
      exact .park henabled.1 henabled.2.1 henabled.2.2
  · rintro (⟨hacquires, hcalls, hepochs⟩ | ⟨hacquires, hcalls, hepochs⟩ |
      ⟨hacquires, hcalls, hresetting, hepochs⟩ | ⟨hacquires, hcalls, hresetting⟩)
    · simp [system, acquireFastPath, hacquires, hcalls, hepochs, State.set]
    · simp [system, acquireFastPath, hacquires, hcalls, hepochs, State.set]
    · simp [system, acquireElectReset, hacquires, hcalls, hresetting, hepochs]
    · simp [system, acquireParkOnFull, hacquires, hcalls, hresetting]

theorem Gate.refund_succ (hrefunds : g.refunds = true) (calls : ℕ) :
    g.refund (calls + 1) = calls := by
  rw [Gate.refund, if_pos ⟨hrefunds, Nat.succ_pos calls⟩, Nat.add_sub_cancel]

theorem Gate.refund_of_not (hrefunds : g.refunds = false) (calls : ℕ) :
    g.refund calls = calls := by
  simp [Gate.refund, hrefunds]

theorem Gate.refund_le (calls : ℕ) : g.refund calls ≤ calls := by
  unfold Gate.refund
  split_ifs
  · exact Nat.sub_le ..
  · exact le_rfl

theorem Gate.le_refund_succ (calls : ℕ) : calls ≤ g.refund (calls + 1) := by
  cases hrefunds : g.refunds with
  | true => rw [Gate.refund_succ hrefunds]
  | false =>
    rw [Gate.refund_of_not hrefunds]
    exact Nat.le_succ calls

/-! ## What every step keeps -/

structure Valid (g : Gate) (s : State n) : Prop where
  calls_le : s.calls ≤ g.limit
  realSpend_le : s.realSpend ≤ s.calls
  resetting_eq : s.resetting = false
  idle : ∀ w, (s.workers w).state = .idle
  totalEpochs_le : s.totalEpochs ≤ g.epochs

theorem idle_set (h : ∀ v, (s.workers v).state = .idle) (w v : Fin n) :
    ((s.set w ⟨(s.workers w).state, true⟩).workers v).state = .idle := by
  rcases eq_or_ne v w with rfl | hne
  · rw [set_workers_self]
    exact h v
  · rw [set_workers_of_ne hne]
    exact h v

theorem Valid.move (h : Valid g s) (hmove : Moves g s a s') : Valid g s' := by
  cases hmove with
  | real _ hcalls =>
    exact ⟨hcalls, Nat.succ_le_succ h.realSpend_le, h.resetting_eq, idle_set h.idle _,
      h.totalEpochs_le⟩
  | free _ hcalls =>
    exact ⟨(g.refund_le _).trans hcalls, h.realSpend_le.trans (g.le_refund_succ _),
      h.resetting_eq, idle_set h.idle _, h.totalEpochs_le⟩
  | reset _ _ _ hepochs =>
    refine ⟨Nat.zero_le _, le_rfl, rfl, fun v => ?_, hepochs⟩
    simp [Worker.wake, h.idle v]
  | park _ _ hresetting =>
    rw [h.resetting_eq] at hresetting
    cases hresetting

theorem reached_valid (as : List (Action n)) : Valid g ((system n g).reached as) :=
  ActionSystem.invariant ⟨Nat.zero_le _, le_rfl, rfl, fun _ => rfl, Nat.zero_le _⟩
    (fun _ _ _ hs h => hs.move (next_iff.mp h)) as

/-- As an election is over before anyone sees it, nobody is ever told to wait for it. -/
theorem Valid.not_park (h : Valid g s) (w : Fin n) :
    ¬ (system n g).Enabled {.acquireParkOnFull w} s := by
  rintro ⟨a, rfl, henabled⟩
  obtain ⟨s', hnext⟩ := Option.isSome_iff_exists.mp henabled
  cases next_iff.mp hnext with
  | park _ _ hresetting =>
    rw [h.resetting_eq] at hresetting
    cases hresetting

/-- Calls that were not made do not count, as long as they are refunded. -/
theorem exact_move (hrefunds : g.refunds = true) (h : s.calls = s.realSpend)
    (hmove : Moves g s a s') : s'.calls = s'.realSpend := by
  cases hmove with
  | real => exact congrArg Nat.succ h
  | free => exact (g.refund_succ hrefunds _).trans h
  | reset => rfl
  | park => exact h

/--
However many workers there are, and in whatever order they act: the count is the calls
that were really made in the epoch, it is within its limit, nobody is ever parked,
and a reset is called for only when as many calls as the limit were really made.
-/
theorem calls_tracks_only_real_spend (limit epochs : ℕ) (as : List (Action n)) :
    let s := (system n ⟨limit, epochs, true⟩).reached as
    s.calls = s.realSpend ∧ s.calls ≤ limit ∧ (∀ w, (s.workers w).state = .idle) ∧
      ∀ w, ¬ (system n ⟨limit, epochs, true⟩).Enabled {.acquireParkOnFull w} s ∧
        ((system n ⟨limit, epochs, true⟩).Enabled {.acquireElectReset w} s →
          s.realSpend = limit) := by
  intro s
  have h : Valid ⟨limit, epochs, true⟩ s := reached_valid as
  have hexact : s.calls = s.realSpend :=
    ActionSystem.invariant (I := fun s => s.calls = s.realSpend) rfl
      (fun _ _ _ hs h => exact_move rfl hs (next_iff.mp h)) as
  refine ⟨hexact, h.calls_le, h.idle, fun w => ⟨h.not_park w, ?_⟩⟩
  rintro ⟨a, rfl, henabled⟩
  obtain ⟨s', hnext⟩ := Option.isSome_iff_exists.mp henabled
  cases next_iff.mp hnext with
  | reset _ hcalls => exact hexact ▸ le_antisymm h.calls_le hcalls

/--
Without refunds the count is of calls that were really made for as long as
no call turns out to be free, and no longer.
-/
theorem unrefunded_tracks_iff (limit epochs : ℕ) (as : List (Action n)) :
    let S := system n ⟨limit, epochs, false⟩
    (∀ before, before <+: as → (S.reached before).calls ≤ (S.reached before).realSpend) ↔
      ∀ before w, before ++ [.acquireFastPath w .free304] <+: as →
        S.next (S.reached before) (.acquireFastPath w .free304) = none := by
  intro S
  constructor
  · intro htracks before w hbefore
    by_contra hnext
    obtain ⟨s', hnext⟩ := Option.ne_none_iff_exists'.mp hnext
    have hle := htracks _ hbefore
    have hspend : (S.reached before).realSpend ≤ (S.reached before).calls :=
      (reached_valid before).realSpend_le
    rw [ActionSystem.reached_append, ActionSystem.step_of_next hnext] at hle
    cases next_iff.mp hnext with
    | free =>
      change Gate.refund ⟨limit, epochs, false⟩ ((S.reached before).calls + 1) ≤
        (S.reached before).realSpend at hle
      rw [Gate.refund_of_not rfl] at hle
      omega
  · intro hfree before hbefore
    induction before using List.reverseRecOn with
    | nil => exact le_rfl
    | append_singleton before a ih =>
      have hle := ih ((List.prefix_append ..).trans hbefore)
      rw [ActionSystem.reached_append]
      cases hnext : S.next (S.reached before) a with
      | none => rwa [ActionSystem.step_of_not_next hnext]
      | some s' =>
        rw [ActionSystem.step_of_next hnext]
        cases next_iff.mp hnext with
        | real => exact Nat.succ_le_succ hle
        | @free w =>
          rw [hfree before w hbefore] at hnext
          cases hnext
        | reset => exact le_rfl
        | park => exact hle

/-! ## What a fair schedule brings about -/

/-- The workers that are still to acquire a permit in this epoch. -/
def State.unserved (s : State n) : Finset (Fin n) :=
  Finset.univ.filter fun w => (s.workers w).doneThisEpoch = false

theorem mem_unserved : w ∈ s.unserved ↔ (s.workers w).doneThisEpoch = false := by
  simp [State.unserved]

theorem card_unserved_le (s : State n) : s.unserved.card ≤ n :=
  (Finset.card_le_univ _).trans_eq (Fintype.card_fin n)

theorem card_unserved_set_lt (h : s.acquires w = true) :
    (s.set w ⟨(s.workers w).state, true⟩).unserved.card < s.unserved.card := by
  have hundone : (s.workers w).doneThisEpoch = false := by
    simpa [State.acquires] using (Bool.and_eq_true_iff.mp h).2
  refine Finset.card_lt_card (Finset.ssubset_iff_subset_ne.mpr ⟨fun v hv => ?_, fun heq => ?_⟩)
  · rw [mem_unserved] at hv ⊢
    rcases eq_or_ne v w with rfl | hne
    · exact hundone
    · rwa [set_workers_of_ne hne] at hv
  · have hw : w ∈ s.unserved := mem_unserved.mpr hundone
    rw [← heq, mem_unserved, set_workers_self] at hw
    cases hw

/-- Every step serves a worker, or uses up an epoch. -/
def State.left (g : Gate) (s : State n) : ℕ :=
  (g.epochs - s.totalEpochs) * (n + 1) + s.unserved.card

theorem left_lt_of_moves (h : Valid g s) (hmove : Moves g s a s') : s'.left g < s.left g := by
  cases hmove with
  | real hacquires | free hacquires =>
    exact Nat.add_lt_add_left (card_unserved_set_lt hacquires) _
  | reset _ _ _ hepochs =>
    -- the workers of the next epoch are fewer than what an epoch counts for
    refine lt_of_lt_of_le (Nat.add_lt_add_left (Nat.lt_succ_of_le (card_unserved_le _)) _) ?_
    have hsplit : g.epochs - s.totalEpochs = g.epochs - (s.totalEpochs + 1) + 1 := by omega
    rw [State.left, hsplit, Nat.succ_mul]
    exact Nat.le_add_right ..
  | park _ _ hresetting =>
    rw [h.resetting_eq] at hresetting
    cases hresetting

/--
With or without refunds: if every worker acquires or resets as long as it can, the gate
comes to rest, and it does so only when all epochs are used up or every worker is served.
-/
theorem gate_comes_to_rest {g : Gate} (b : (system n g).Behaviour)
    (hfast : ∀ w, b.FairTo {.acquireFastPath w .real, .acquireFastPath w .free304})
    (hreset : ∀ w, b.FairTo {.acquireElectReset w}) :
    ∃ m, (∀ k ≥ m, b.state k = b.state m) ∧
      ((b.state m).totalEpochs = g.epochs ∨
        ∀ w, ((b.state m).workers w).doneThisEpoch = true) := by
  have hvalid : ∀ m, Valid g (b.state m) := fun m => by
    obtain ⟨as, has⟩ := b.exists_reached m
    exact has ▸ reached_valid as
  obtain ⟨m, hrest, hstill⟩ := b.exists_rest (f := State.left g) fun m a hnext =>
    left_lt_of_moves (hvalid m) (next_iff.mp hnext)
  refine ⟨m, hrest, or_iff_not_imp_left.mpr fun hepochs w => ?_⟩
  have hlt : (b.state m).totalEpochs < g.epochs :=
    lt_of_le_of_ne (hvalid m).totalEpochs_le hepochs
  by_contra hundone
  have hacquires : (b.state m).acquires w = true := by
    simpa [State.acquires, (hvalid m).idle w] using hundone
  rcases Nat.lt_or_ge (b.state m).calls g.limit with hcalls | hcalls
  · exact hstill _ (hfast w) ⟨_, .inl rfl,
      Option.isSome_of_mem (next_iff.mpr (.real hacquires hcalls hlt))⟩
  · exact hstill _ (hreset w) ⟨_, rfl,
      Option.isSome_of_mem (next_iff.mpr (.reset hacquires hcalls (hvalid m).resetting_eq hlt))⟩

/-- Two calls, a reset by the third worker, and an epoch in which one of three calls is free. -/
def sampleEpochs : List (Action 3) :=
  [.acquireFastPath 0 .real, .acquireFastPath 1 .real, .acquireElectReset 2,
    .acquireFastPath 0 .free304, .acquireFastPath 1 .real, .acquireFastPath 2 .real]

theorem gate_comes_to_rest_epochs :
    let b := (system 3 ⟨2, 2, true⟩).script sampleEpochs
    ∃ m, (∀ k ≥ m, b.state k = b.state m) ∧
      ((b.state m).totalEpochs = 2 ∨ ∀ w, ((b.state m).workers w).doneThisEpoch = true) := by
  refine gate_comes_to_rest _ (fun w => ActionSystem.script_fairTo ?_)
    fun w => ActionSystem.script_fairTo ?_
  · rintro ⟨a, rfl | rfl, henabled⟩
    all_goals
      revert w
      decide
  · rintro ⟨a, rfl, henabled⟩
    revert w
    decide

end GhReport.Spec.BudgetGate
