import ZoneHistory.DateSpec

/-!
# Bounds of dates

A date stands in its year or behind it, at most as many days as its day says. A year begins after
all years before it, and where it begins is bounded by its number.
-/
namespace ZoneHistory

namespace Calendar

variable {month day : Int}

/-- The days before the first of March of a year, from some day on. -/
def daysBeforeMarch (year : Int) : Int :=
  year / 400 * 146097 + (year % 400 * 365 + year % 400 / 4 - year % 400 / 100)

theorem daysBeforeMarch_step (year : Int) :
    daysBeforeMarch (year - 1) + 365 ≤ daysBeforeMarch year ∧
      daysBeforeMarch year ≤ daysBeforeMarch (year - 1) + 366 := by
  simp only [daysBeforeMarch]
  omega

theorem daysBeforeMarch_mono {first later : Int} (h : first ≤ later) :
    daysBeforeMarch first ≤ daysBeforeMarch later := by
  simp only [daysBeforeMarch]
  omega

theorem daysFromEpoch_eq (year : Int) (hmonth : 1 ≤ month ∧ month ≤ 12) :
    daysFromEpoch year month day =
      if month ≤ 2 then daysBeforeMarch (year - 1) + 31 * (month - 1) + day - 719163
      else daysBeforeMarch year + (153 * (month - 3) + 2) / 5 + day - 719469 := by
  simp only [daysFromEpoch, daysBeforeMarch]
  split <;> omega

theorem daysFromEpoch_newYear (year : Int) :
    daysFromEpoch year 1 1 = daysBeforeMarch (year - 1) - 719162 := by
  rw [daysFromEpoch_eq year (by decide), if_pos (by decide)]
  omega

theorem newYear_mono {first later : Int} (h : first ≤ later) :
    daysFromEpoch first 1 1 ≤ daysFromEpoch later 1 1 := by
  have hmarch : daysBeforeMarch (first - 1) ≤ daysBeforeMarch (later - 1) :=
    daysBeforeMarch_mono (by omega)
  rw [daysFromEpoch_newYear, daysFromEpoch_newYear]
  omega

theorem newYear_bounds {year bound : Int} (hlow : -bound ≤ year) (hhigh : year ≤ bound) :
    -(366 * bound + 720000) ≤ daysFromEpoch year 1 1 ∧
      daysFromEpoch year 1 1 ≤ 366 * bound + 720000 := by
  rw [daysFromEpoch_newYear, daysBeforeMarch]
  omega

/-- A date stands in its year or behind it, at most as many days as its day says. -/
theorem daysFromEpoch_bounds (year day : Int) (hmonth : 1 ≤ month ∧ month ≤ 12) :
    daysFromEpoch year 1 1 + (day - 1) ≤ daysFromEpoch year month day ∧
      daysFromEpoch year month day ≤ daysFromEpoch year 1 1 + (day + 334) := by
  have hstep := daysBeforeMarch_step year
  rw [daysFromEpoch_newYear, daysFromEpoch_eq year hmonth]
  split <;> omega

/-- The December of a year is its last month. -/
theorem daysFromEpoch_december (year : Int) :
    daysFromEpoch year 12 1 + 31 = daysFromEpoch (year + 1) 1 1 := by
  rw [daysFromEpoch_newYear, daysFromEpoch_eq year (by decide), if_neg (by decide),
    Int.add_sub_cancel]
  omega

theorem monthStart_add_le (year : Int) {first later : Int} (hfirst : 1 ≤ first)
    (hlater : later ≤ 12) (h : first + 3 ≤ later) :
    daysFromEpoch year first 1 + 89 ≤ daysFromEpoch year later 1 := by
  have hmarch := daysBeforeMarch_step year
  rw [daysFromEpoch_eq year (by omega), daysFromEpoch_eq year (by omega)]
  split <;> split <;> omega

theorem newYear_add_le (year : Int) :
    daysFromEpoch year 1 1 + 365 ≤ daysFromEpoch (year + 1) 1 1 := by
  have hmarch := (daysBeforeMarch_step year).1
  rw [daysFromEpoch_newYear, daysFromEpoch_newYear, Int.add_sub_cancel]
  omega

theorem monthStart_november (year : Int) :
    daysFromEpoch year 11 1 + 61 = daysFromEpoch (year + 1) 1 1 := by
  rw [← daysFromEpoch_december, daysFromEpoch_eq year (by decide), if_neg (by decide),
    daysFromEpoch_eq year (by decide), if_neg (by decide)]
  omega

theorem daysInMonth_bounds (year month : Int) :
    28 ≤ daysInMonth year month ∧ daysInMonth year month ≤ 32 := by
  have hindex : ((month - 1) % 12).toNat < 12 := by omega
  have hcommon : ∀ index < 12, 28 ≤ commonMonths.getD index 0 ∧ commonMonths.getD index 0 ≤ 31 := by
    decide
  have hmonth := hcommon _ hindex
  rw [daysInMonth]
  split <;> omega

end Calendar

namespace DateSpec

variable {spec : DateSpec}

theorem anchor_bounds (year : Int) (hmonth : 1 ≤ spec.month ∧ spec.month ≤ 12)
    (hday : -1 ≤ spec.day) :
    Calendar.daysFromEpoch year 1 1 - 1 ≤ spec.anchor year ∧
      spec.anchor year ≤ Calendar.daysFromEpoch year 1 1 + (max spec.day 32 + 334) := by
  have hlast := Calendar.daysInMonth_bounds year spec.month
  rw [anchor]
  split
  · have hbounds := Calendar.daysFromEpoch_bounds year
      (Calendar.daysInMonth year spec.month) hmonth
    omega
  · have hbounds := Calendar.daysFromEpoch_bounds year spec.day hmonth
    omega

/-- Moving to a weekday does not cross a whole week. -/
theorem resolveDay_bounds (spec : DateSpec) (year : Int) :
    spec.anchor year - 6 ≤ spec.resolveDay year ∧ spec.resolveDay year ≤ spec.anchor year + 6 := by
  simp only [resolveDay]
  split
  · omega
  · split <;> omega

/-- The local time that is meant in a year lies in the year, a week before it, or as many days
behind it as the day says. -/
theorem localMillis_bounds (year : Int) (hmonth : 1 ≤ spec.month ∧ spec.month ≤ 12)
    (hday : -1 ≤ spec.day) :
    (Calendar.daysFromEpoch year 1 1 - 7) * Calendar.dayMillis + spec.time ≤
        spec.localMillis year ∧
      spec.localMillis year ≤
        (Calendar.daysFromEpoch year 1 1 + (max spec.day 32 + 340)) * Calendar.dayMillis +
          spec.time := by
  have hanchor := anchor_bounds year hmonth hday
  have hresolve := resolveDay_bounds spec year
  rw [localMillis, Calendar.dayMillis]
  omega

end DateSpec

end ZoneHistory
