import Mathlib.Data.Nat.Basic

/-! # Ceilings of the call budget

An epoch of the call budget starts with a run, or when the window of the server
has rolled. Its ceiling is what the server reported less a buffer, and a floor
where nothing would be left. Just above the buffer the ceiling is below the floor.
-/

namespace GhReport.GitHub

structure NonZeroU64 where
  get : ℕ
  ne_zero : get ≠ 0
deriving DecidableEq

def NonZeroU64.new (n : ℕ) : Option NonZeroU64 := if h : n ≠ 0 then some ⟨n, h⟩ else none

def apiBudgetLimit : ℕ := 4000

def ceilingBuffer : ℕ := 100

def ceilingFloor : NonZeroU64 := ⟨10, by decide⟩

def windowEntitlement (limit : Option UInt32) : ℕ := (limit.map UInt32.toNat).getD apiBudgetLimit

def ceilingFromEntitlement (entitlement : ℕ) : NonZeroU64 :=
  (NonZeroU64.new (entitlement - ceilingBuffer)).getD ceilingFloor

def effectiveBudgetCeiling (remaining : Option UInt32) : ℕ :=
  match remaining with
  | none => apiBudgetLimit
  | some r => (ceilingFromEntitlement r.toNat).get

inductive Replenished where
  | cancelled
  | ceiling (limit : NonZeroU64)
deriving DecidableEq

/-- What the policy answers once it has waited, or was cancelled while it did. -/
def replenish (cancelled : Bool) (limit : Option UInt32) : Replenished :=
  if cancelled then .cancelled else .ceiling (ceilingFromEntitlement (windowEntitlement limit))

/-! ## Readings -/

/-- What is left of the reading after the buffer is less than the floor, but not nothing. -/
def JustAboveBuffer (reading : ℕ) : Prop :=
  ceilingBuffer < reading ∧ reading < ceilingBuffer + ceilingFloor.get

theorem get_ceilingFromEntitlement (entitlement : ℕ) :
    (ceilingFromEntitlement entitlement).get =
      if entitlement ≤ ceilingBuffer then ceilingFloor.get else entitlement - ceilingBuffer := by
  unfold ceilingFromEntitlement NonZeroU64.new
  by_cases h : entitlement ≤ ceilingBuffer
  · rw [if_pos h, dif_neg (not_not.mpr (Nat.sub_eq_zero_of_le h))]
    rfl
  · rw [if_neg h, dif_pos (Nat.sub_ne_zero_of_lt (not_le.mp h))]
    rfl

theorem floor_le_ceiling_iff (entitlement : ℕ) :
    ceilingFloor.get ≤ (ceilingFromEntitlement entitlement).get ↔
      ¬ JustAboveBuffer entitlement := by
  rw [get_ceilingFromEntitlement, JustAboveBuffer]
  split <;> omega

theorem ceiling_le_ceiling_iff {entitlement entitlement' : ℕ} (h : entitlement ≤ entitlement') :
    (ceilingFromEntitlement entitlement).get ≤ (ceilingFromEntitlement entitlement').get ↔
      ¬ (entitlement ≤ ceilingBuffer ∧ JustAboveBuffer entitlement') := by
  rw [get_ceilingFromEntitlement, get_ceilingFromEntitlement, JustAboveBuffer]
  split <;> split <;> omega

theorem not_justAboveBuffer_apiBudgetLimit : ¬ JustAboveBuffer apiBudgetLimit := by
  unfold JustAboveBuffer
  decide

theorem floor_le_effectiveBudgetCeiling_iff (remaining : Option UInt32) :
    ceilingFloor.get ≤ effectiveBudgetCeiling remaining ↔
      ∀ r ∈ remaining, ¬ JustAboveBuffer r.toNat := by
  cases remaining with
  | none => exact iff_of_true (by decide) nofun
  | some r =>
    rw [effectiveBudgetCeiling, floor_le_ceiling_iff]
    simp only [Option.mem_def, Option.some.injEq, forall_eq']

theorem floor_le_windowCeiling_iff (limit : Option UInt32) :
    ceilingFloor.get ≤ (ceilingFromEntitlement (windowEntitlement limit)).get ↔
      ∀ l ∈ limit, ¬ JustAboveBuffer l.toNat := by
  rw [floor_le_ceiling_iff]
  cases limit with
  | none => exact iff_of_true not_justAboveBuffer_apiBudgetLimit nofun
  | some l => simp only [windowEntitlement, Option.map_some, Option.getD_some, Option.mem_def,
      Option.some.injEq, forall_eq']

/-! ## Epochs -/

/-- What starts an epoch, with what the server last reported. -/
inductive EpochStart where
  | run (remaining : Option UInt32)
  | replenished (cancelled : Bool) (limit : Option UInt32)

/-- The ceiling that the gate is given, if it is given one. -/
def EpochStart.ceiling? : EpochStart → Option ℕ
  | run remaining => some (effectiveBudgetCeiling remaining)
  | replenished cancelled limit =>
    match replenish cancelled limit with
    | .cancelled => none
    | .ceiling limit => some limit.get

/-- The reading that the ceiling is made of. -/
def EpochStart.reading? : EpochStart → Option UInt32
  | run remaining => remaining
  | replenished cancelled limit => if cancelled then none else limit

theorem floor_le_ceiling?_iff (start : EpochStart) :
    (∀ c ∈ start.ceiling?, ceilingFloor.get ≤ c) ↔
      ∀ r ∈ start.reading?, ¬ JustAboveBuffer r.toNat := by
  cases start with
  | run remaining =>
    rw [EpochStart.reading?, ← floor_le_effectiveBudgetCeiling_iff]
    simp only [EpochStart.ceiling?, Option.mem_def, Option.some.injEq, forall_eq']
  | replenished cancelled limit =>
    cases cancelled with
    | true => exact iff_of_true nofun nofun
    | false =>
      rw [EpochStart.reading?, if_neg Bool.false_ne_true, ← floor_le_windowCeiling_iff]
      simp only [EpochStart.ceiling?, replenish, Bool.false_eq_true, if_false, Option.mem_def,
        Option.some.injEq, forall_eq']

/--
The ceilings keep to the floor exactly when no reading is just above the buffer, in every sequence
of epochs, and grow with the readings exactly when none rises to just above the buffer.
-/
theorem budgetCeiling_law_iff (remaining limit : Option UInt32) (starts : List EpochStart)
    {r r' : UInt32} (h : r ≤ r') :
    (ceilingFloor.get ≤ effectiveBudgetCeiling remaining ↔
      ∀ r ∈ remaining, ¬ JustAboveBuffer r.toNat) ∧
    (ceilingFloor.get ≤ (ceilingFromEntitlement (windowEntitlement limit)).get ↔
      ∀ l ∈ limit, ¬ JustAboveBuffer l.toNat) ∧
    ((∀ c ∈ starts.filterMap EpochStart.ceiling?, ceilingFloor.get ≤ c) ↔
      ∀ r ∈ starts.filterMap EpochStart.reading?, ¬ JustAboveBuffer r.toNat) ∧
    (effectiveBudgetCeiling (some r) ≤ effectiveBudgetCeiling (some r') ↔
      ¬ (r.toNat ≤ ceilingBuffer ∧ JustAboveBuffer r'.toNat)) ∧
    ((ceilingFromEntitlement (windowEntitlement (some r))).get ≤
        (ceilingFromEntitlement (windowEntitlement (some r'))).get ↔
      ¬ (r.toNat ≤ ceilingBuffer ∧ JustAboveBuffer r'.toNat)) := by
  have hle : r.toNat ≤ r'.toNat := UInt32.le_iff_toNat_le.mp h
  refine ⟨floor_le_effectiveBudgetCeiling_iff remaining, floor_le_windowCeiling_iff limit, ?_,
    ceiling_le_ceiling_iff hle, ceiling_le_ceiling_iff hle⟩
  simp only [List.mem_filterMap, forall_exists_index, and_imp]
  constructor
  · intro hfloor r start hstart hr
    exact (floor_le_ceiling?_iff start).mp (fun c hc => hfloor c start hstart hc) r hr
  · intro hreadings c start hstart hc
    exact (floor_le_ceiling?_iff start).mpr (fun r hr => hreadings r start hstart hr) c hc

/-- A trough throttles the run, and a full window does not throttle it further. -/
theorem budgetCeiling_law_iff_trough :
    ceilingFloor.get ≤ effectiveBudgetCeiling (some 40) ∧
      effectiveBudgetCeiling (some 40) ≤ effectiveBudgetCeiling (some 5000) := by
  have hle : (40 : UInt32) ≤ 5000 := by decide
  obtain ⟨hfloor, -, -, hmono, -⟩ := budgetCeiling_law_iff (some 40) (some 5000) [] hle
  constructor
  · refine hfloor.mpr ?_
    rintro _ ⟨⟩ ⟨hbuffer, -⟩
    exact absurd hbuffer (by decide)
  · refine hmono.mpr ?_
    rintro ⟨-, -, hbound⟩
    exact absurd hbound (by decide)

/-- From 100 remaining calls to 101, the ceiling falls from the floor to a single call. -/
theorem not_floor_le_effectiveBudgetCeiling :
    (¬ ∀ remaining, ceilingFloor.get ≤ effectiveBudgetCeiling remaining) ∧
      ¬ ∀ r r' : UInt32, r ≤ r' →
        effectiveBudgetCeiling (some r) ≤ effectiveBudgetCeiling (some r') := by
  constructor
  · exact fun hclaim => absurd (hclaim (some 101)) (by decide)
  · exact fun hclaim => absurd (hclaim 100 101 (by decide)) (by decide)

end GhReport.GitHub
