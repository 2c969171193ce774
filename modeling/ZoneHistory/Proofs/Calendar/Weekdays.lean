import Mathlib.Order.Bounds.Basic
import ZoneHistory.Proofs.Calendar.Dates

/-!
# Weekdays of dates

The weekdays follow one another without a break, so of any seven days in a row each has a weekday of
its own. A date spec means the nearest day of its weekday on one side of the day from which the
weekday is sought. A month has more than seven days, so its last Sunday is not in the month before.
-/
namespace ZoneHistory

namespace Calendar

variable {month weekday : Int}

/-! ## The nearest day of a weekday -/

/-- Monday follows Sunday. -/
theorem isoWeekday_add_one (days : Int) :
    isoWeekday (days + 1) = if isoWeekday days = 7 then 1 else isoWeekday days + 1 := by
  by_cases hsunday : isoWeekday days = 7
  · rw [if_pos hsunday]
    simp only [isoWeekday] at hsunday ⊢
    omega
  · rw [if_neg hsunday]
    simp only [isoWeekday] at hsunday ⊢
    omega

/-- A day is of a weekday if it is as far off, but for whole weeks, as the weekdays are apart. -/
theorem isoWeekday_eq_iff {day : Int} (days : Int) (hweekday : 1 ≤ weekday ∧ weekday ≤ 7) :
    isoWeekday day = weekday ↔ (day - days) % 7 = (weekday - isoWeekday days) % 7 := by
  simp only [isoWeekday]
  omega

theorem isLeast_weekday (days : Int) (hweekday : 1 ≤ weekday ∧ weekday ≤ 7) :
    IsLeast {day | days ≤ day ∧ isoWeekday day = weekday}
      (days + (weekday - isoWeekday days) % 7) := by
  refine ⟨⟨by omega, (isoWeekday_eq_iff days hweekday).mpr (by omega)⟩, ?_⟩
  rintro day ⟨hbehind, hday⟩
  rw [isoWeekday_eq_iff days hweekday] at hday
  omega

theorem isGreatest_weekday (days : Int) (hweekday : 1 ≤ weekday ∧ weekday ≤ 7) :
    IsGreatest {day | day ≤ days ∧ isoWeekday day = weekday}
      (days - (isoWeekday days - weekday) % 7) := by
  refine ⟨⟨by omega, (isoWeekday_eq_iff days hweekday).mpr (by omega)⟩, ?_⟩
  rintro day ⟨hbefore, hday⟩
  rw [isoWeekday_eq_iff days hweekday] at hday
  omega

/-! ## The days of a month -/

/-- The days whose dates are in a month of a year. -/
def monthDays (year month : Int) : Set Int :=
  {day | (dateOfDay day).year = year ∧ (dateOfDay day).month = month}

theorem mem_monthDays_iff {year day : Int} (hmonth : 1 ≤ month ∧ month ≤ 12) :
    day ∈ monthDays year month ↔
      daysFromEpoch year month 1 ≤ day ∧
        day < daysFromEpoch year month 1 + daysInMonth year month := by
  constructor
  · rintro ⟨rfl, rfl⟩
    obtain ⟨⟨hfirst, hlast⟩, hday⟩ := valid_dateOfDay day
    have hdate := daysFromEpoch_dateOfDay day
    rw [gregorian.day _ _ _ hfirst hlast] at hdate
    omega
  · rintro ⟨hbegun, hgoing⟩
    obtain ⟨dayOfMonth, hday⟩ :
        ∃ dayOfMonth, day = daysFromEpoch year month 1 + dayOfMonth - 1 :=
      ⟨day - daysFromEpoch year month 1 + 1, by omega⟩
    have hvalid : Date.Valid ⟨year, month, dayOfMonth⟩ :=
      ⟨hmonth, by dsimp only; omega, by dsimp only; omega⟩
    rw [← gregorian.day _ _ _ hmonth.1 hmonth.2] at hday
    have hdate := dateOfDay_daysFromEpoch hvalid
    rw [← hday] at hdate
    exact ⟨congrArg Date.year hdate, congrArg Date.month hdate⟩

theorem isGreatest_monthDays (year : Int) (hmonth : 1 ≤ month ∧ month ≤ 12) :
    IsGreatest (monthDays year month)
      (daysFromEpoch year month (daysInMonth year month)) := by
  have hlength := (daysInMonth_bounds year month).1
  have hlast := gregorian.day year month (daysInMonth year month) hmonth.1 hmonth.2
  refine ⟨(mem_monthDays_iff hmonth).mpr (by omega), fun day hday => ?_⟩
  rw [mem_monthDays_iff hmonth] at hday
  omega

/-- The last day of a weekday that is not behind the month is in the month. -/
theorem isGreatest_weekday_of_month {year last day : Int} (hmonth : 1 ≤ month ∧ month ≤ 12)
    (hlast : IsGreatest (monthDays year month) last)
    (hday : IsGreatest {day | day ≤ last ∧ isoWeekday day = weekday} day) (hnear : last - 6 ≤ day) :
    IsGreatest {day | day ∈ monthDays year month ∧ isoWeekday day = weekday} day := by
  obtain ⟨⟨hbefore, hweekday⟩, hmax⟩ := hday
  have hlength := (daysInMonth_bounds year month).1
  have hends : daysFromEpoch year month (daysInMonth year month) = last :=
    (isGreatest_monthDays year hmonth).unique hlast
  rw [gregorian.day _ _ _ hmonth.1 hmonth.2] at hends
  refine ⟨⟨(mem_monthDays_iff hmonth).mpr (by omega), hweekday⟩, ?_⟩
  rintro other ⟨hother, hsame⟩
  exact hmax ⟨hlast.2 hother, hsame⟩

end Calendar

namespace DateSpec

open Calendar

/-- A day as a date spec means it in a year, with the day from which the weekday is sought. -/
structure Means (spec : DateSpec) (year anchor day : Int) : Prop where
  last : spec.day = -1 → IsGreatest (monthDays year spec.month) anchor
  date : spec.day ≠ -1 → anchor = daysFromEpoch year spec.month spec.day
  stays : spec.weekday = 0 → day = anchor
  forward : spec.weekday ≠ 0 → spec.advance = true →
    IsLeast {day | anchor ≤ day ∧ isoWeekday day = spec.weekday} day
  back : spec.weekday ≠ 0 → spec.advance = false →
    IsGreatest {day | day ≤ anchor ∧ isoWeekday day = spec.weekday} day

variable {spec : DateSpec}

theorem means_resolveDay (year : Int) (hmonth : 1 ≤ spec.month ∧ spec.month ≤ 12)
    (hweekday : 0 ≤ spec.weekday ∧ spec.weekday ≤ 7) :
    spec.Means year (spec.anchor year) (spec.resolveDay year) where
  last hlast := by
    rw [anchor, if_pos hlast]
    exact isGreatest_monthDays year hmonth
  date hdate := by rw [anchor, if_neg hdate]
  stays hzero := by simp only [resolveDay, if_pos hzero]
  forward hne hadvance := by
    simp only [resolveDay, if_neg hne, if_pos hadvance]
    exact isLeast_weekday _ (by omega)
  back hne hback := by
    simp only [resolveDay, if_neg hne, hback, Bool.false_eq_true, if_false]
    exact isGreatest_weekday _ (by omega)

/-- The local time that a date spec means is its time of day on the day of its date, or on the last
day of its month, or on the nearest day of its weekday from there on or from there back. Sought back
from the end of a month, that is the last day of the weekday in the month. The weekdays go round
from the first of January 1970, a Thursday. -/
theorem localMillis_means (spec : DateSpec) (year : Int)
    (hmonth : 1 ≤ spec.month ∧ spec.month ≤ 12) (hweekday : 0 ≤ spec.weekday ∧ spec.weekday ≤ 7) :
    (∃ anchor day, spec.Means year anchor day ∧
        spec.localMillis year = 86400000 * day + spec.time ∧
        (spec.day = -1 → spec.weekday ≠ 0 → spec.advance = false →
          IsGreatest {day | day ∈ monthDays year spec.month ∧ isoWeekday day = spec.weekday}
            day)) ∧
      isoWeekday 0 = 4 ∧
      ∀ days, isoWeekday (days + 1) = if isoWeekday days = 7 then 1 else isoWeekday days + 1 := by
  have hmeans := means_resolveDay year hmonth hweekday
  refine ⟨⟨_, _, hmeans, ?_, fun hlast hne hback => ?_⟩, by decide, isoWeekday_add_one⟩
  · rw [localMillis, dayMillis, Int.mul_comm]
  · exact isGreatest_weekday_of_month hmonth (hmeans.last hlast) (hmeans.back hne hback)
      (resolveDay_bounds spec year).1

/-- The last Sunday of February, at two o'clock. -/
def lastSunday : DateSpec := ⟨2, -1, 7, false, 7200000, .wall⟩

/-- 1900 is no leap year, and its February ends on a Wednesday. -/
theorem localMillis_lastSunday :
    ∃ anchor day, anchor = daysFromEpoch 1900 2 28 ∧ day = daysFromEpoch 1900 2 25 ∧
      lastSunday.Means 1900 anchor day ∧
      lastSunday.localMillis 1900 = 86400000 * day + 7200000 ∧
      IsGreatest {day | day ∈ monthDays 1900 2 ∧ isoWeekday day = 7} day := by
  obtain ⟨⟨anchor, day, hmeans, hlocal, hlast⟩, -⟩ :=
    localMillis_means lastSunday 1900 (by decide) (by decide)
  have hanchor : anchor = daysFromEpoch 1900 2 28 :=
    (hmeans.last rfl).unique (isGreatest_monthDays 1900 (by decide))
  have hday : 86400000 * day + 7200000 = 86400000 * daysFromEpoch 1900 2 25 + 7200000 :=
    hlocal.symm.trans (by decide)
  exact ⟨anchor, day, hanchor, by omega, hmeans, hlocal, hlast rfl (by decide) rfl⟩

end DateSpec

end ZoneHistory
