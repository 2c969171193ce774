import ZoneHistory.Calendar

/-!
# Days and times of a year

A `DateSpec` names a local time in every year: a month, a day of it, a weekday to move to from that
day, and a time of day. It is resolved in a year by `DateSpec.localMillis`.
-/
namespace ZoneHistory

/-- The clock that a time of day is read on. -/
inductive Clock where
  /-- Local time with savings. -/
  | wall
  /-- Local time without savings. -/
  | standard
  | universal
  deriving DecidableEq, Repr

/-- How far a clock is ahead of universal time. -/
def Clock.offset (clock : Clock) (standardOffset save : Int) : Int :=
  match clock with
  | .universal => 0
  | .standard => standardOffset
  | .wall => standardOffset + save

structure DateSpec where
  month : Int
  /-- The day of the month, or -1 for the last one. -/
  day : Int
  /-- The weekday to move to, Monday being 1 and Sunday 7; 0 stays on the day. -/
  weekday : Int
  /-- Whether to move forward to the weekday, rather than back. -/
  advance : Bool
  /-- Milliseconds from midnight. -/
  time : Int
  clock : Clock
  deriving DecidableEq, Repr

namespace DateSpec

/-- Midnight of the first day of the year. -/
def startOfYear : DateSpec := ⟨1, 1, 0, false, 0, .wall⟩

/-- The day from which the weekday is sought. -/
def anchor (spec : DateSpec) (year : Int) : Int :=
  Calendar.daysFromEpoch year spec.month
    (if spec.day = -1 then Calendar.daysInMonth year spec.month else spec.day)

/-- The day that is meant in a year. -/
def resolveDay (spec : DateSpec) (year : Int) : Int :=
  let days := spec.anchor year
  if spec.weekday = 0 then days
  else if spec.advance then days + (spec.weekday - Calendar.isoWeekday days) % 7
  else days - (Calendar.isoWeekday days - spec.weekday) % 7

/-- The local time that is meant in a year, in milliseconds from the start of 1970. -/
def localMillis (spec : DateSpec) (year : Int) : Int :=
  spec.resolveDay year * Calendar.dayMillis + spec.time

end DateSpec

end ZoneHistory
