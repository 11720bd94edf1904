import GhReport.Library.Calendar
import GhReport.Library.FixedWidth
import Mathlib.Data.String.Basic

/-! # The time of a log line

A log line is stamped with the wall clock. The date is worked out from the count
of days by arithmetic on eras of 400 years that begin in March.
-/

namespace GhReport.Infra

open Date FixedWidth

/-! ## The date of a day -/

/-- The year of an era that a day of the era falls in. -/
def yearOfEra (doe : ℕ) : ℕ := (doe - doe / 1460 + doe / 36524 - doe / 146096) / 365

/-- The date of a count of days since the epoch; nothing is negative. -/
def civilDate (days : ℕ) : Date :=
  let z := days + 719468
  let era := z / 146097
  let doe := z % 146097
  let yoe := yearOfEra doe
  let y := yoe + era * 400
  let doy := doe - (365 * yoe + yoe / 4 - yoe / 100)
  let mp := (5 * doy + 2) / 153
  let d := doy - (153 * mp + 2) / 5 + 1
  let m := if mp < 10 then mp + 3 else mp - 9
  let y := if m ≤ 2 then y + 1 else y
  ⟨y, m, d⟩

/-! ## Years of an era -/

/-- The first day of a year of the era. -/
def yearStart (yoe : ℕ) : ℕ := 365 * yoe + yoe / 4 - yoe / 100

/-- The days of a year that begins in March: the leap day is that of the next civil year. -/
def yearLength (yoe : ℕ) : ℕ := if isLeap (yoe + 1) then 366 else 365

theorem yearOfEra_mono {a b : ℕ} (h : a ≤ b) : yearOfEra a ≤ yearOfEra b := by
  have hquarter : ∀ n, n / 146096 = n / 36524 / 4 := fun n => by rw [Nat.div_div_eq_div_mul]
  have hcentury : a / 36524 ≤ b / 36524 := Nat.div_le_div_right h
  unfold yearOfEra
  rw [hquarter, hquarter]
  apply Nat.div_le_div_right
  omega

theorem yearOfEra_bounds : ∀ yoe < 400, yearOfEra (yearStart yoe) = yoe ∧
    yearOfEra (yearStart yoe + yearLength yoe - 1) = yoe := by
  decide +kernel

theorem yearStart_succ : ∀ yoe < 399, yearStart (yoe + 1) = yearStart yoe + yearLength yoe := by
  decide +kernel

theorem yearLength_pos (yoe : ℕ) : 0 < yearLength yoe := by
  unfold yearLength
  split <;> decide

/-- A day of the era lies in the year that is worked out for it. -/
theorem yearOfEra_spec {doe : ℕ} (h : doe < 146097) :
    yearOfEra doe < 400 ∧ yearStart (yearOfEra doe) ≤ doe ∧
      doe < yearStart (yearOfEra doe) + yearLength (yearOfEra doe) := by
  have hlast : yearOfEra doe ≤ 399 := yearOfEra_mono (b := 146096) (by omega)
  refine ⟨by omega, ?_, ?_⟩
  · by_contra hlt
    rcases Nat.eq_zero_or_pos (yearOfEra doe) with h0 | hpos
    · rw [h0] at hlt
      exact hlt (Nat.zero_le _)
    · -- the day is at most the last of the year before
      have hs := yearStart_succ (yearOfEra doe - 1) (by omega)
      have hb := (yearOfEra_bounds (yearOfEra doe - 1) (by omega)).2
      rw [Nat.sub_add_cancel hpos] at hs
      have hle := yearOfEra_mono (show doe ≤ yearStart (yearOfEra doe - 1)
        + yearLength (yearOfEra doe - 1) - 1 by omega)
      omega
  · by_contra hge
    rcases Nat.lt_or_ge (yearOfEra doe) 399 with hyear | hyear
    · have hs := yearStart_succ _ hyear
      have hb := (yearOfEra_bounds (yearOfEra doe + 1) (by omega)).1
      have hle := yearOfEra_mono (show yearStart (yearOfEra doe + 1) ≤ doe by omega)
      omega
    · have hy : yearOfEra doe = 399 := by omega
      rw [hy] at hge
      exact hge h

theorem yearOfEra_eq {doe yoe : ℕ} (hy : yoe < 400) (hs : yearStart yoe ≤ doe)
    (hl : doe < yearStart yoe + yearLength yoe) : yearOfEra doe = yoe := by
  obtain ⟨hfirst, hend⟩ := yearOfEra_bounds yoe hy
  have hle := yearOfEra_mono hs
  have hge := yearOfEra_mono (show doe ≤ yearStart yoe + yearLength yoe - 1 by omega)
  omega

/-! ## Months of a year that begins in March -/

/-- The month and the day that are worked out for a day of the year. -/
def monthDay (doy : ℕ) : ℕ × ℕ :=
  let mp := (5 * doy + 2) / 153
  (if mp < 10 then mp + 3 else mp - 9, doy - (153 * mp + 2) / 5 + 1)

/-- The date of a day of the year that begins in March of a civil year. -/
def ofMarch (y doy : ℕ) : Date :=
  ⟨if (monthDay doy).1 ≤ 2 then y + 1 else y, (monthDay doy).1, (monthDay doy).2⟩

theorem civilDate_eq (days : ℕ) :
    civilDate days = ofMarch
      (yearOfEra ((days + 719468) % 146097) + (days + 719468) / 146097 * 400)
      ((days + 719468) % 146097 - yearStart (yearOfEra ((days + 719468) % 146097))) :=
  rfl

/-- A day of the year is followed by the next of its month, or by the first of the next month. -/
theorem monthDay_succ (leap : Bool) : ∀ doy < 365, doy < (if leap then 365 else 364) →
    (monthDay doy).2 < monthLength leap (monthDay doy).1 ∧
        monthDay (doy + 1) = ((monthDay doy).1, (monthDay doy).2 + 1) ∨
      ¬ (monthDay doy).2 < monthLength leap (monthDay doy).1 ∧ (monthDay doy).1 ≠ 2 ∧
        ((monthDay doy).1 < 12 ∧ monthDay (doy + 1) = ((monthDay doy).1 + 1, 1) ∨
          (monthDay doy).1 = 12 ∧ monthDay (doy + 1) = (1, 1)) := by
  cases leap with
  | true => decide +kernel
  | false => decide +kernel

/-- January and February belong to the next civil year, whose leap day is theirs. -/
theorem daysInMonth_ofMarch (y doy : ℕ) :
    daysInMonth (ofMarch y doy).year (ofMarch y doy).month =
      monthLength (isLeap (y + 1)) (monthDay doy).1 := by
  unfold daysInMonth
  by_cases hm : (monthDay doy).1 = 2
  · simp [ofMarch, hm]
  · exact monthLength_of_ne_two hm _ _

theorem next_ofMarch {y doy : ℕ} (h : doy + 1 < if isLeap (y + 1) then 366 else 365) :
    (ofMarch y doy).next = ofMarch y (doy + 1) := by
  have hlt : doy < if isLeap (y + 1) then 365 else 364 := by
    split at h <;> split <;> omega
  have hmonth := monthDay_succ (isLeap (y + 1)) doy (by split at hlt <;> omega) hlt
  unfold Date.next
  rw [daysInMonth_ofMarch]
  rcases hmonth with ⟨hd, hs⟩ | ⟨hd, hfeb, ⟨hm, hs⟩ | ⟨hm, hs⟩⟩
  · rw [if_pos (by exact hd)]
    simp [ofMarch, hs]
  · rw [if_neg (by exact hd), if_pos (by exact hm)]
    have hyear : (monthDay doy).1 + 1 ≤ 2 ↔ (monthDay doy).1 ≤ 2 := by omega
    simp [ofMarch, hs, hyear]
  · rw [if_neg (by exact hd), if_neg (by simp [ofMarch, hm])]
    simp [ofMarch, hs, hm]

/-- The year ends with February. -/
theorem next_ofMarch_last (y : ℕ) :
    (ofMarch y ((if isLeap (y + 1) then 366 else 365) - 1)).next = ofMarch (y + 1) 0 := by
  unfold Date.next
  rw [daysInMonth_ofMarch]
  cases isLeap (y + 1) with
  | true => rfl
  | false => rfl

/-! ## Days -/

theorem isLeap_era (yoe era : ℕ) : isLeap (yoe + era * 400 + 1) = isLeap (yoe + 1) := by
  have h4 : (yoe + era * 400 + 1) % 4 = (yoe + 1) % 4 := by omega
  have h100 : (yoe + era * 400 + 1) % 100 = (yoe + 1) % 100 := by omega
  have h400 : (yoe + era * 400 + 1) % 400 = (yoe + 1) % 400 := by omega
  simp only [isLeap, h4, h100, h400]

/-- The last day of a year of the era is followed by the first of the next. -/
theorem civilDate_succ (days : ℕ) : civilDate (days + 1) = (civilDate days).next := by
  rw [civilDate_eq, civilDate_eq]
  have hdoe : (days + 719468) % 146097 < 146097 := Nat.mod_lt _ (by decide)
  have hnext : (days + 1 + 719468) / 146097 = (days + 719468) / 146097 ∧
        (days + 1 + 719468) % 146097 = (days + 719468) % 146097 + 1 ∧
        (days + 719468) % 146097 < 146096 ∨
      (days + 1 + 719468) / 146097 = (days + 719468) / 146097 + 1 ∧
        (days + 1 + 719468) % 146097 = 0 ∧ (days + 719468) % 146097 = 146096 := by omega
  generalize (days + 719468) / 146097 = era at *
  generalize (days + 719468) % 146097 = doe at *
  obtain ⟨hy, hs, hl⟩ := yearOfEra_spec hdoe
  generalize hyoe : yearOfEra doe = yoe at *
  have hleap : yearLength yoe = if isLeap (yoe + era * 400 + 1) then 366 else 365 := by
    rw [isLeap_era]
    rfl
  have hlast : doe + 1 = yearStart yoe + yearLength yoe →
      (ofMarch (yoe + era * 400) (doe - yearStart yoe)).next =
        ofMarch (yoe + era * 400 + 1) 0 := by
    intro h
    rw [← next_ofMarch_last, ← hleap, show doe - yearStart yoe = yearLength yoe - 1 by omega]
  rcases hnext with ⟨he, hd, hlt⟩ | ⟨he, hd, heq⟩
  · rw [he, hd]
    rcases Nat.lt_or_ge (doe + 1) (yearStart yoe + yearLength yoe) with hin | hout
    · rw [yearOfEra_eq hy (hs.trans (Nat.le_succ doe)) hin, Nat.sub_add_comm hs,
        next_ofMarch (by omega)]
    · have hend : doe + 1 = yearStart yoe + yearLength yoe := by omega
      have hyear : yoe < 399 := by
        by_contra hge
        obtain rfl : yoe = 399 := by omega
        have : yearStart 399 + yearLength 399 = 146097 := by decide
        omega
      have hstart : doe + 1 = yearStart (yoe + 1) := by rw [yearStart_succ yoe hyear, hend]
      rw [hlast hend, hstart, yearOfEra_eq (by omega) le_rfl
        (Nat.lt_add_of_pos_right (yearLength_pos _)), Nat.sub_self, Nat.add_right_comm]
  · -- the era ends with its last year
    have hyear : yoe = 399 := by rw [← hyoe, heq]; decide
    subst hyear
    have hend : doe + 1 = yearStart 399 + yearLength 399 := by
      rw [heq]
      decide
    rw [hlast hend, he, hd, show yearOfEra 0 = 0 from rfl, show yearStart 0 = 0 from rfl,
      show 0 + (era + 1) * 400 = 399 + era * 400 + 1 by omega]

theorem civilDate_zero : civilDate 0 = epoch := by decide

/-- The date is as many days after the epoch as were counted. -/
theorem civilDate_eq_afterDays (days : ℕ) : civilDate days = afterDays days := by
  induction days with
  | zero => exact civilDate_zero
  | succ days ih => rw [civilDate_succ, ih, afterDays_succ]

/-! ## The stamp -/

/-- The stamp of a time, which is nanoseconds since the epoch; a time before it reads as zero. -/
def formatRfc3339 (now : ℕ) : String :=
  let secs := now / 10 ^ 9
  let micros := now % 10 ^ 9 / 1000
  let days := secs / 86400
  let daySecs := secs % 86400
  let hour := daySecs / 3600
  let minute := daySecs % 3600 / 60
  let second := daySecs % 60
  let date := civilDate days
  String.ofList (zeroPad 4 date.year ++ '-' :: (zeroPad 2 date.month ++ '-' ::
    (zeroPad 2 date.day ++ 'T' :: (zeroPad 2 hour ++ ':' :: (zeroPad 2 minute ++ ':' ::
      (zeroPad 2 second ++ '.' :: (zeroPad 6 micros ++ ['Z'])))))))

/-- The fields of a stamp. -/
def stampFields : List Field :=
  [⟨4, '-'⟩, ⟨2, '-'⟩, ⟨2, 'T'⟩, ⟨2, ':'⟩, ⟨2, ':'⟩, ⟨2, '.'⟩, ⟨6, 'Z'⟩]

/-- A time of day, to the microsecond. -/
structure DayTime where
  hour : ℕ
  minute : ℕ
  second : ℕ
  micros : ℕ
  hour_lt : hour < 24
  minute_lt : minute < 60
  second_lt : second < 60
  micros_lt : micros < 10 ^ 6

/-- The microseconds since midnight. -/
def DayTime.total (t : DayTime) : ℕ :=
  ((t.hour * 60 + t.minute) * 60 + t.second) * 10 ^ 6 + t.micros

def stampValues (date : Date) (t : DayTime) : List ℕ :=
  [date.year, date.month, date.day, t.hour, t.minute, t.second, t.micros]

/-- A stamp is the date and the time of day whose microseconds since the epoch are the clock's. -/
theorem formatRfc3339_eq (now : ℕ) : ∃ (days : ℕ) (t : DayTime),
    now / 1000 = days * (86400 * 10 ^ 6) + t.total ∧
      formatRfc3339 now = String.ofList (print stampFields (stampValues (afterDays days) t)) := by
  refine ⟨now / 10 ^ 9 / 86400, ⟨now / 10 ^ 9 % 86400 / 3600, now / 10 ^ 9 % 86400 % 3600 / 60,
    now / 10 ^ 9 % 86400 % 60, now % 10 ^ 9 / 1000, ?_, ?_, ?_, ?_⟩, ?_, ?_⟩
  · omega
  · omega
  · omega
  · omega
  · simp only [DayTime.total]
    omega
  · rw [← civilDate_eq_afterDays]
    rfl

/-! ## Order -/

/-- The first nanosecond of the year 10000, which has five digits. -/
def yearTenThousand : ℕ := 253402300800 * 10 ^ 9

theorem year_le {days : ℕ} (h : days ≤ 2932896) : (afterDays days).year ≤ 9999 := by
  have hlast : afterDays 2932896 = ⟨9999, 12, 31⟩ := by
    rw [← civilDate_eq_afterDays]
    decide
  rcases Nat.lt_or_eq_of_le h with hlt | rfl
  · have hbefore := before_afterDays hlt
    rw [hlast] at hbefore
    unfold Before at hbefore
    dsimp only at hbefore
    omega
  · rw [hlast]

theorem fits_stampValues {days : ℕ} (h : days ≤ 2932896) (t : DayTime) :
    Fits stampFields (stampValues (afterDays days) t) := by
  have hyear := year_le h
  have hvalid := valid_afterDays days
  have hmonth := hvalid.month_le
  have hday := hvalid.day_le.trans (daysInMonth_le ..)
  have hhour := t.hour_lt
  have hminute := t.minute_lt
  have hsecond := t.second_lt
  have hmicros := t.micros_lt
  refine ⟨by decide, ?_, by decide, ?_, by decide, ?_, by decide, ?_, by decide, ?_, by decide, ?_,
    by decide, ?_, trivial⟩
  all_goals
    dsimp only
    omega

/-- An earlier time has the smaller fields, in their order. -/
theorem stampValues_lt {m n : ℕ} {t u : DayTime}
    (h : m * (86400 * 10 ^ 6) + t.total < n * (86400 * 10 ^ 6) + u.total) :
    stampValues (afterDays m) t < stampValues (afterDays n) u := by
  have ht := t.hour_lt
  have hu := u.hour_lt
  have ht' := t.minute_lt
  have hu' := u.minute_lt
  have ht'' := t.second_lt
  have hu'' := u.second_lt
  have ht₆ := t.micros_lt
  have hu₆ := u.micros_lt
  simp only [DayTime.total] at h
  simp only [stampValues, List.cons_lt_cons_iff]
  rcases Nat.lt_trichotomy m n with hlt | rfl | hgt
  · have hbefore := before_afterDays hlt
    unfold Before at hbefore
    tauto
  · have hlex : t.hour < u.hour ∨ t.hour = u.hour ∧ (t.minute < u.minute ∨
        t.minute = u.minute ∧ (t.second < u.second ∨
          t.second = u.second ∧ t.micros < u.micros)) := by omega
    tauto
  · omega

theorem formatRfc3339_lt {a b : ℕ} (hb : b < yearTenThousand) (h : a / 1000 < b / 1000) :
    formatRfc3339 a < formatRfc3339 b := by
  obtain ⟨m, t, ha, htext⟩ := formatRfc3339_eq a
  obtain ⟨n, u, hb', htext'⟩ := formatRfc3339_eq b
  have ht := t.hour_lt
  rw [ha, hb'] at h
  unfold yearTenThousand at hb
  have hn : n ≤ 2932896 := by omega
  have hm : m ≤ 2932896 := by
    have hu := u.hour_lt
    have hu' := u.minute_lt
    have hu'' := u.second_lt
    have hu₆ := u.micros_lt
    simp only [DayTime.total] at h
    omega
  rw [htext, htext', String.lt_iff_toList_lt, String.toList_ofList, String.toList_ofList]
  exact print_lt (fits_stampValues hm t) (fits_stampValues hn u) (stampValues_lt h)

theorem formatRfc3339_congr {a b : ℕ} (h : a / 1000 = b / 1000) :
    formatRfc3339 a = formatRfc3339 b := by
  have hsecs : a / 10 ^ 9 = b / 10 ^ 9 := by omega
  have hmicros : a % 10 ^ 9 / 1000 = b % 10 ^ 9 / 1000 := by omega
  simp only [formatRfc3339, hsecs, hmicros]

/-- Until the year 10000 the stamps are in the order of their times, to the microsecond. -/
theorem formatRfc3339_lt_iff {a b : ℕ} (ha : a < yearTenThousand) (hb : b < yearTenThousand) :
    formatRfc3339 a < formatRfc3339 b ↔ a / 1000 < b / 1000 := by
  constructor
  · intro h
    by_contra hge
    rcases Nat.lt_or_eq_of_le (Nat.le_of_not_lt hge) with hlt | heq
    · exact lt_asymm h (formatRfc3339_lt ha hlt)
    · rw [formatRfc3339_congr heq] at h
      exact lt_irrefl _ h
  · exact formatRfc3339_lt hb

theorem formatRfc3339_leap_day :
    formatRfc3339 1709251199999999999 < formatRfc3339 1709251200000000000 ↔
      1709251199999999999 / 1000 < 1709251200000000000 / 1000 :=
  formatRfc3339_lt_iff (by decide) (by decide)

end GhReport.Infra
