import CmInventory.Time.Calendar

/-!
# Instants

An instant is a point in time to the nanosecond, kept as its date and time of day in universal time.
A minute may have a second numbered 60; it counts as an addition to the second before it.
-/

namespace CmInventory

/-- A date and time of day in universal time. -/
structure Instant where
  year : Int
  month : Nat
  day : Nat
  hour : Nat
  minute : Nat
  second : Nat
  nanosecond : Nat
  isYear : -262143 ≤ year ∧ year ≤ 262142
  isMonth : 1 ≤ month ∧ month ≤ 12
  isDay : 1 ≤ day ∧ day ≤ Calendar.daysInMonth year month
  isTime : hour < 24 ∧ minute < 60 ∧ second ≤ 60 ∧ nanosecond < 1000000000
  deriving DecidableEq

namespace Instant

def epoch : Instant where
  year := 1970
  month := 1
  day := 1
  hour := 0
  minute := 0
  second := 0
  nanosecond := 0
  isYear := by decide
  isMonth := by decide
  isDay := by decide
  isTime := by decide

instance : Inhabited Instant := ⟨epoch⟩

/-- The instant with the given date and time of day, if they exist. -/
def ofFields? (year : Int) (month day hour minute second nanosecond : Nat) : Option Instant :=
  if isYear : -262143 ≤ year ∧ year ≤ 262142 then
    if isMonth : 1 ≤ month ∧ month ≤ 12 then
      if isDay : 1 ≤ day ∧ day ≤ Calendar.daysInMonth year month then
        if isTime : hour < 24 ∧ minute < 60 ∧ second ≤ 60 ∧ nanosecond < 1000000000 then
          some ⟨year, month, day, hour, minute, second, nanosecond, isYear, isMonth, isDay, isTime⟩
        else none
      else none
    else none
  else none

theorem ofFields?_self (t : Instant) :
    ofFields? t.year t.month t.day t.hour t.minute t.second t.nanosecond = some t := by
  simp [ofFields?, t.isYear, t.isMonth, t.isDay, t.isTime]

/-- The day of the instant, counted from 1 January 1970. -/
def dayNumber (t : Instant) : Int :=
  Calendar.dayNumber t.year t.month t.day

/-- The second of the day, in which a second numbered 60 counts as the one before it. -/
def secondOfDay (t : Instant) : Int :=
  t.hour * 3600 + t.minute * 60 + (min t.second 59 : Nat)

/-- The nanoseconds since the start of that second. -/
def nanosOfSecond (t : Instant) : Int :=
  t.nanosecond + (if t.second = 60 then 1000000000 else 0)

/-- The instant a number of nanoseconds after the start of the year 1970. -/
def ofNanos? (n : Int) : Option Instant :=
  let seconds := n / 1000000000
  let (year, month, day) := Calendar.dateOf (seconds / 86400)
  let ofDay := (seconds % 86400).toNat
  ofFields? year month day (ofDay / 3600) (ofDay / 60 % 60) (ofDay % 60) (n % 1000000000).toNat

/-- The instant a number of minutes later. -/
def addMinutes? (t : Instant) (minutes : Int) : Option Instant :=
  if minutes = 0 then some t
  else
    let total := t.dayNumber * 1440 + t.hour * 60 + t.minute + minutes
    let (year, month, day) := Calendar.dateOf (total / 1440)
    let ofDay := (total % 1440).toNat
    ofFields? year month day (ofDay / 60) (ofDay % 60) t.second t.nanosecond

/-- The nanoseconds from `s` to `t`. A second numbered 60 counts where it lies between the two. -/
def since (t s : Instant) : Int :=
  let seconds := (t.dayNumber - s.dayNumber) * 86400 + t.secondOfDay - s.secondOfDay
  -- A second numbered 60 lies between the two if it belongs to the earlier one.
  let passed : Int :=
    if s.secondOfDay < t.secondOfDay then (if s.second = 60 then 1 else 0)
    else if t.secondOfDay < s.secondOfDay then (if t.second = 60 then -1 else 0)
    else 0
  (seconds + passed) * 1000000000 + (t.nanosOfSecond - s.nanosOfSecond)

end Instant
end CmInventory
