import Mathlib.Logic.Function.Iterate
import Mathlib.Order.Basic

/-! # The Gregorian calendar

The calendar is given by the day that follows each date. A count of days is then
as many steps from the first of January 1970.
-/

/-- A date; months and days count from one. -/
structure Date where
  year : ℕ
  month : ℕ
  day : ℕ
deriving DecidableEq

namespace Date

def isLeap (year : ℕ) : Bool := year % 4 = 0 && (year % 100 ≠ 0 || year % 400 = 0)

/-- The days of a month, in a leap year or another. -/
def monthLength (leap : Bool) (month : ℕ) : ℕ :=
  match month with
  | 4 | 6 | 9 | 11 => 30
  | 2 => if leap then 29 else 28
  | _ => 31

theorem monthLength_of_ne_two {month : ℕ} (h : month ≠ 2) (leap leap' : Bool) :
    monthLength leap month = monthLength leap' month := by
  unfold monthLength
  split
  any_goals rfl
  exact absurd rfl h

def daysInMonth (year month : ℕ) : ℕ := monthLength (isLeap year) month

/-- The day after. -/
def next (d : Date) : Date :=
  if d.day < daysInMonth d.year d.month then { d with day := d.day + 1 }
  else if d.month < 12 then ⟨d.year, d.month + 1, 1⟩
  else ⟨d.year + 1, 1, 1⟩

def epoch : Date := ⟨1970, 1, 1⟩

/-- The date a number of days after the epoch. -/
def afterDays (n : ℕ) : Date := next^[n] epoch

theorem afterDays_succ (n : ℕ) : afterDays (n + 1) = (afterDays n).next :=
  Function.iterate_succ_apply' next n epoch

/-- A month of the year, and a day of the month. -/
structure Valid (d : Date) : Prop where
  month_pos : 1 ≤ d.month
  month_le : d.month ≤ 12
  day_pos : 1 ≤ d.day
  day_le : d.day ≤ daysInMonth d.year d.month

theorem daysInMonth_pos (year month : ℕ) : 1 ≤ daysInMonth year month := by
  unfold daysInMonth monthLength
  split
  any_goals decide
  split <;> decide

theorem daysInMonth_le (year month : ℕ) : daysInMonth year month ≤ 31 := by
  unfold daysInMonth monthLength
  split
  any_goals decide
  split <;> decide

theorem Valid.next {d : Date} (h : d.Valid) : d.next.Valid := by
  unfold Date.next
  split
  · rename_i hd
    exact ⟨h.month_pos, h.month_le, Nat.le_add_left .., hd⟩
  · split
    · rename_i hm
      exact ⟨Nat.le_add_left .., hm, Nat.le_refl 1, daysInMonth_pos ..⟩
    · exact ⟨Nat.le_refl 1, Nat.le_add_left 1 11, Nat.le_refl 1, daysInMonth_pos ..⟩

theorem valid_afterDays (n : ℕ) : (afterDays n).Valid := by
  induction n with
  | zero => exact ⟨Nat.le_refl 1, by decide, Nat.le_refl 1, daysInMonth_pos ..⟩
  | succ n ih =>
    rw [afterDays_succ]
    exact ih.next

/-- A date before another, by year, month and day. -/
def Before (a b : Date) : Prop :=
  a.year < b.year ∨ a.year = b.year ∧ (a.month < b.month ∨ a.month = b.month ∧ a.day < b.day)

theorem Before.trans {a b c : Date} (hab : a.Before b) (hbc : b.Before c) : a.Before c := by
  unfold Before at *
  omega

theorem before_next (d : Date) : d.Before d.next := by
  unfold Date.next Before
  split
  · exact .inr ⟨rfl, .inr ⟨rfl, Nat.lt_succ_self _⟩⟩
  · split
    · exact .inr ⟨rfl, .inl (Nat.lt_succ_self _)⟩
    · exact .inl (Nat.lt_succ_self _)

/-- Later days have later dates. -/
theorem before_afterDays {m n : ℕ} (h : m < n) : (afterDays m).Before (afterDays n) := by
  induction h with
  | refl =>
    rw [afterDays_succ]
    exact before_next _
  | step _ ih =>
    rw [afterDays_succ]
    exact ih.trans (before_next _)

end Date
