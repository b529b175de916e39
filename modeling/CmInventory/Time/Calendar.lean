/-!
# The calendar

Dates of the proleptic Gregorian calendar and their count in days. The count starts a year in March,
so that the leap day is the last of a year, and takes four centuries as the unit after which the
calendar repeats.
-/

namespace CmInventory
namespace Calendar

/-- Whether a year has 366 days. -/
def isLeapYear (year : Int) : Bool :=
  year % 4 == 0 && (year % 100 != 0 || year % 400 == 0)

def daysInMonth (year : Int) (month : Nat) : Nat :=
  if month = 2 then if isLeapYear year then 29 else 28
  else if month = 4 ∨ month = 6 ∨ month = 9 ∨ month = 11 then 30
  else 31

/-- The days of four centuries. -/
def daysInCycle : Int := 146097

/-- The day, counted from the start of a cycle on the first of March, of 1 January 1970. -/
def epochOffset : Int := 719468

/-- The number of days from 1 January 1970 to a date. -/
def dayNumber (year : Int) (month day : Nat) : Int :=
  let y : Int := if month ≤ 2 then year - 1 else year
  let cycle := y / 400
  let yearOfCycle := y - cycle * 400
  let monthFromMarch : Int := if 2 < month then (month : Int) - 3 else month + 9
  let dayOfYear := (153 * monthFromMarch + 2) / 5 + (day : Int) - 1
  let dayOfCycle := yearOfCycle * 365 + yearOfCycle / 4 - yearOfCycle / 100 + dayOfYear
  cycle * daysInCycle + dayOfCycle - epochOffset

/-- The date, as year, month and day, that is a number of days after 1 January 1970. -/
def dateOf (number : Int) : Int × Nat × Nat :=
  let z := number + epochOffset
  let cycle := z / daysInCycle
  let dayOfCycle := z - cycle * daysInCycle
  let yearOfCycle :=
    (dayOfCycle - dayOfCycle / 1460 + dayOfCycle / 36524 - dayOfCycle / 146096) / 365
  let dayOfYear := dayOfCycle - (365 * yearOfCycle + yearOfCycle / 4 - yearOfCycle / 100)
  let monthFromMarch := (5 * dayOfYear + 2) / 153
  let day := dayOfYear - (153 * monthFromMarch + 2) / 5 + 1
  let month := if monthFromMarch < 10 then monthFromMarch + 3 else monthFromMarch - 9
  let year := yearOfCycle + cycle * 400 + (if month ≤ 2 then 1 else 0)
  (year, month.toNat, day.toNat)

end Calendar
end CmInventory
