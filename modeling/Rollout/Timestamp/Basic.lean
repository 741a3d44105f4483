-- SUMMARY: Instants of the calendar in coordinated universal time, and the span between two of them.

/-!
# Timestamps

A timestamp is a date of the Gregorian calendar, extended in both directions, with a time of day in
coordinated universal time. Second 60 is a leap second. Spans are counted in nanoseconds.
-/
namespace Rollout

/-- Every fourth year is a leap year, without the centuries that four does not divide again. -/
def isLeapYear (year : Int) : Bool :=
  year % 4 = 0 && (year % 100 ≠ 0 || year % 400 = 0)

/-- The number of days of a month, zero for a number that is no month. -/
def daysInMonth (year : Int) (month : Nat) : Nat :=
  match month with
  | 1 | 3 | 5 | 7 | 8 | 10 | 12 => 31
  | 4 | 6 | 9 | 11 => 30
  | 2 => if isLeapYear year then 29 else 28
  | _ => 0

/-- A date and a time of day. -/
structure Timestamp where
  year : Int
  month : Nat
  day : Nat
  hour : Nat
  minute : Nat
  second : Nat
  nano : Nat
  day_valid : 1 ≤ day ∧ day ≤ daysInMonth year month := by decide
  time_valid : hour < 24 ∧ minute < 60 ∧ second ≤ 60 ∧ nano < 1000000000 := by decide
  deriving DecidableEq, Repr

namespace Timestamp

/-- The timestamp with the given fields, if they name one. -/
def ofFields? (year : Int) (month day hour minute second nano : Nat) : Option Timestamp :=
  if hd : 1 ≤ day ∧ day ≤ daysInMonth year month then
    if ht : hour < 24 ∧ minute < 60 ∧ second ≤ 60 ∧ nano < 1000000000 then
      some ⟨year, month, day, hour, minute, second, nano, hd, ht⟩
    else none
  else none

/-- The start of the year 1970. -/
def epoch : Timestamp :=
  { year := 1970, month := 1, day := 1, hour := 0, minute := 0, second := 0, nano := 0 }

/-! ## Day numbers

The years are counted from March, so that the leap day is the last day of its year. Four hundred
such years have 146097 days, and the day 0 is the first day of 1970. -/

def dayNumber (year : Int) (month day : Nat) : Int :=
  let y := if month ≤ 2 then year - 1 else year
  let era := y.fdiv 400
  let yearOfEra := y - era * 400
  let monthFromMarch : Int := (month + 9) % 12
  let dayOfYear := (153 * monthFromMarch + 2) / 5 + day - 1
  era * 146097 + (yearOfEra * 365 + yearOfEra / 4 - yearOfEra / 100 + dayOfYear) - 719468

/-- The year, month and day with a given number. -/
def dateOfDayNumber (number : Int) : Int × Nat × Nat :=
  let z := number + 719468
  let era := z.fdiv 146097
  let dayOfEra := z - era * 146097
  let yearOfEra := (dayOfEra - dayOfEra / 1460 + dayOfEra / 36524 - dayOfEra / 146096) / 365
  let dayOfYear := dayOfEra - (365 * yearOfEra + yearOfEra / 4 - yearOfEra / 100)
  let monthFromMarch := (5 * dayOfYear + 2) / 153
  let day := dayOfYear - (153 * monthFromMarch + 2) / 5 + 1
  let month := if monthFromMarch < 10 then monthFromMarch + 3 else monthFromMarch - 9
  (yearOfEra + era * 400 + (if month ≤ 2 then 1 else 0), month.toNat, day.toNat)

def minuteOfDay (t : Timestamp) : Nat := 60 * t.hour + t.minute

/-- The timestamp a number of minutes later; seconds stay as they are. -/
def addMinutes? (t : Timestamp) (minutes : Int) : Option Timestamp :=
  let total := dayNumber t.year t.month t.day * 1440 + t.minuteOfDay + minutes
  let (year, month, day) := dateOfDayNumber (total.fdiv 1440)
  let rest := (total.fmod 1440).toNat
  ofFields? year month day (rest / 60) (rest % 60) t.second t.nano

/-- The timestamp a number of days later. -/
def addDays? (t : Timestamp) (days : Int) : Option Timestamp := t.addMinutes? (days * 1440)

/-- The timestamp a number of nanoseconds after the start of 1970. -/
def ofNanos? (nanos : Int) : Option Timestamp := do
  let t ← epoch.addMinutes? (nanos.fdiv 60000000000)
  let rest := (nanos.fmod 60000000000).toNat
  ofFields? t.year t.month t.day t.hour t.minute (rest / 1000000000) (rest % 1000000000)

/-! ## Spans -/

/-- The second of the day, in which a leap second counts as part of the second before it. -/
def secondOfDay (t : Timestamp) : Int := 3600 * t.hour + 60 * t.minute + min t.second 59

/-- The nanoseconds since the start of that second. -/
def fraction (t : Timestamp) : Int := t.nano + (if t.second = 60 then 1000000000 else 0)

/-- The nanoseconds from `start` to `stop`. The days have 86400 seconds; a leap second counts where
it lies between the two times of day. -/
def nanosBetween (start stop : Timestamp) : Int :=
  let days := dayNumber stop.year stop.month stop.day - dayNumber start.year start.month start.day
  let leap : Int :=
    if stop.secondOfDay > start.secondOfDay then
      if start.fraction ≥ 1000000000 then 1 else 0
    else if stop.secondOfDay < start.secondOfDay then
      if stop.fraction ≥ 1000000000 then -1 else 0
    else 0
  (days * 86400 + (stop.secondOfDay - start.secondOfDay) + leap) * 1000000000
    + (stop.fraction - start.fraction)

/-- The full seconds between two timestamps in either order. -/
def secondsBetween (start stop : Timestamp) : Nat := (nanosBetween start stop).natAbs / 1000000000

end Timestamp

end Rollout
