/-!
# The proleptic Gregorian calendar

Days are counted from 1970-01-01, which is day 0. Years begin in March for the arithmetic, so that
the leap day is the last day of a year; an `era` is a cycle of 400 such years, 146097 days.
-/
namespace ZoneHistory.Calendar

/-- Milliseconds in a day. -/
def dayMillis : Int := 86400000

def isLeap (year : Int) : Bool :=
  year % 4 == 0 && (year % 100 != 0 || year % 400 == 0)

/-- The lengths of the months of a common year. -/
def commonMonths : List Int := [31, 28, 31, 30, 31, 30, 31, 31, 30, 31, 30, 31]

/-- The number of days of a month. Months from 0 down to -11 are counted back from December. For
a month beyond -11 to 12 the program fails; the value given here is not one of its own. -/
def daysInMonth (year month : Int) : Int :=
  commonMonths.getD ((month - 1) % 12).toNat 0 + (if month = 2 && isLeap year then 1 else 0)

/-- The day of a date; a day beyond the end of its month runs on into the next. -/
def daysFromEpoch (year month day : Int) : Int :=
  let marchYear := if month ≤ 2 then year - 1 else year
  let era := marchYear / 400
  let yearOfEra := marchYear - era * 400
  let marchMonth := (month + 9) % 12
  let dayOfYear := (153 * marchMonth + 2) / 5 + day - 1
  let dayOfEra := yearOfEra * 365 + yearOfEra / 4 - yearOfEra / 100 + dayOfYear
  era * 146097 + dayOfEra - 719468

/-- The day of the week of a day, Monday being 1 and Sunday 7. -/
def isoWeekday (days : Int) : Int := (days + 3) % 7 + 1

structure Date where
  year : Int
  month : Int
  day : Int
  deriving DecidableEq

/-- The date of a day. -/
def dateOfDay (days : Int) : Date :=
  let shifted := days + 719468
  let era := shifted / 146097
  let dayOfEra := shifted - era * 146097
  let yearOfEra :=
    (dayOfEra - dayOfEra / 1460 + dayOfEra / 36524 - dayOfEra / 146096) / 365
  let dayOfYear := dayOfEra - (365 * yearOfEra + yearOfEra / 4 - yearOfEra / 100)
  let marchMonth := (5 * dayOfYear + 2) / 153
  let month := if marchMonth < 10 then marchMonth + 3 else marchMonth - 9
  ⟨yearOfEra + era * 400 + (if month ≤ 2 then 1 else 0), month,
    dayOfYear - (153 * marchMonth + 2) / 5 + 1⟩

/-- The year in which an instant falls, in UTC. -/
def yearOf (millis : Int) : Int := (dateOfDay (millis / dayMillis)).year

/-- The instant at which a year begins, in UTC. -/
def yearStart (year : Int) : Int := daysFromEpoch year 1 1 * dayMillis

example : daysFromEpoch 1970 1 1 = 0 := by decide
example : daysInMonth 1900 2 = 28 ∧ daysInMonth 2000 2 = 29 := by decide
example : dateOfDay (daysFromEpoch (-4) 2 29) = ⟨-4, 2, 29⟩ := by decide

end ZoneHistory.Calendar
