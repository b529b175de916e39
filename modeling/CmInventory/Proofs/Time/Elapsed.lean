import CmInventory.Proofs.Time.ReadBack
import Mathlib.Tactic.IntervalCases

/-!
# Elapsed time

The days of the calendar are numbered without gaps (`Calendar.dayNumber_tomorrow`), so an instant has a number of
nanoseconds since the start of the year 1970. Between ordinary instants, those without a second numbered 60, the
elapsed time is the difference of these numbers (`Instant.since_eq_sub`), and however far apart two instants are, it
is not too long for a signed interval (`Instant.since_le_greatestSigned`).
-/

namespace CmInventory

/-! ## Days -/

namespace Calendar

/-- The date, as year, month and day, after a date. -/
def tomorrow (year : Int) (month day : Nat) : Int × Nat × Nat :=
  if day < daysInMonth year month then (year, month, day + 1)
  else if month < 12 then (year, month + 1, 1)
  else (year + 1, 1, 1)

theorem isLeapYear_iff (year : Int) :
    isLeapYear year = true ↔ year % 4 = 0 ∧ (year % 100 ≠ 0 ∨ year % 400 = 0) := by
  simp [isLeapYear]

/-- The day after the last one of February is the first of March, with which a year of the count starts. -/
theorem dayNumber_march (year : Int) : dayNumber year 3 1 = dayNumber year 2 (daysInMonth year 2) + 1 := by
  have hleap := isLeapYear_iff year
  cases h : isLeapYear year with
  | true =>
      have := hleap.1 h
      simp [dayNumber, daysInMonth, h, daysInCycle]
      omega
  | false =>
      have := mt hleap.2 (h ▸ Bool.false_ne_true)
      simp [dayNumber, daysInMonth, h, daysInCycle]
      omega

/-- The first day of a month has the number after that of the last day of the month before. -/
theorem dayNumber_nextMonth (year : Int) {month : Nat} (hmonth : 1 ≤ month ∧ month < 12) :
    dayNumber year (month + 1) 1 = dayNumber year month (daysInMonth year month) + 1 := by
  rcases hmonth with ⟨hfirst, hlast⟩
  interval_cases month
  -- How long February is depends on the year, so the arithmetic of the other months does not apply.
  case «2» => exact dayNumber_march year
  all_goals
    simp [dayNumber, daysInMonth]
    omega

theorem dayNumber_nextYear (year : Int) : dayNumber (year + 1) 1 1 = dayNumber year 12 31 + 1 := by
  simp [dayNumber]
  omega

/-- The next date has the next number. -/
theorem dayNumber_tomorrow {year : Int} {month day : Nat} (hmonth : 1 ≤ month ∧ month ≤ 12)
    (hday : day ≤ daysInMonth year month) :
    dayNumber (tomorrow year month day).1 (tomorrow year month day).2.1 (tomorrow year month day).2.2 =
      dayNumber year month day + 1 := by
  rw [tomorrow]
  split
  · simp only [dayNumber]
    omega
  · rename_i hlast
    obtain rfl : day = daysInMonth year month := by omega
    split
    · exact dayNumber_nextMonth year ⟨hmonth.1, by assumption⟩
    · obtain rfl : month = 12 := by omega
      exact dayNumber_nextYear year

-- The count starts at the beginning of the year 1970, so the day before it has the number -1.
example : dayNumber 1969 12 31 = -1 ∧ dayNumber 1970 1 1 = 0 := by decide

end Calendar

/-! ## Instants -/

namespace Instant

/-- Whether an instant is written without a second numbered 60. -/
def IsOrdinary (t : Instant) : Prop :=
  t.second < 60

instance (t : Instant) : Decidable t.IsOrdinary :=
  inferInstanceAs (Decidable (t.second < 60))

/-- The nanoseconds from the start of the year 1970 to an ordinary instant. -/
def sinceEpoch (t : Instant) : Int :=
  (t.dayNumber * 86400 + t.hour * 3600 + t.minute * 60 + t.second) * 1000000000 + t.nanosecond

theorem secondOfDay_of_ordinary {t : Instant} (h : t.IsOrdinary) :
    t.secondOfDay = t.hour * 3600 + t.minute * 60 + t.second ∧ t.nanosOfSecond = t.nanosecond := by
  have hsecond : t.second < 60 := h
  constructor
  · rw [secondOfDay, Nat.min_eq_left (by omega)]
  · rw [nanosOfSecond, if_neg (by omega), add_zero]

/-- Between ordinary instants the elapsed time is a difference of whole numbers. -/
theorem since_eq_sub {t s : Instant} (ht : t.IsOrdinary) (hs : s.IsOrdinary) :
    t.since s = t.sinceEpoch - s.sinceEpoch := by
  have hsecond : t.second ≠ 60 ∧ s.second ≠ 60 := ⟨Nat.ne_of_lt ht, Nat.ne_of_lt hs⟩
  rcases secondOfDay_of_ordinary ht with ⟨htDay, htNanos⟩
  rcases secondOfDay_of_ordinary hs with ⟨hsDay, hsNanos⟩
  simp only [since, if_neg hsecond.1, if_neg hsecond.2, ite_self, htNanos, hsNanos]
  rw [htDay, hsDay, sinceEpoch, sinceEpoch]
  omega

theorem dayNumber_bounds (t : Instant) : -100000000 < t.dayNumber ∧ t.dayNumber < 100000000 := by
  have hyear := t.isYear
  have hmonth := t.isMonth
  have hday : t.day ≤ 31 := Nat.le_trans t.isDay.2 (daysInMonth_le t.year t.month)
  simp only [dayNumber, Calendar.dayNumber, Calendar.daysInCycle, Calendar.epochOffset]
  split <;> split <;> omega

theorem secondOfDay_bounds (t : Instant) :
    (0 ≤ t.secondOfDay ∧ t.secondOfDay < 86400) ∧ 0 ≤ t.nanosOfSecond ∧ t.nanosOfSecond < 2000000000 := by
  have htime := t.isTime
  simp only [secondOfDay, nanosOfSecond]
  split <;> omega

/-- However far apart two instants are, the time between them is not too long for a signed interval. -/
theorem since_le_greatestSigned (t s : Instant) : t.since s ≤ Interval.greatestSigned := by
  have htDay := t.dayNumber_bounds
  have hsDay := s.dayNumber_bounds
  have htSecond := t.secondOfDay_bounds
  have hsSecond := s.secondOfDay_bounds
  simp only [since, Interval.greatestSigned]
  split <;> split <;> (try split) <;> omega

end Instant
end CmInventory
