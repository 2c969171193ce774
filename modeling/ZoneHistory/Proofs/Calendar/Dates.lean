import ZoneHistory.Proofs.Calendar.Gregorian

/-!
# Dates of days

The date of a day is one of the calendar, and it is the only one that falls on the day. The year of
an instant is the one that has begun and has not ended.
-/
namespace ZoneHistory.Calendar

/-- A date with a month of the year and a day of the month. -/
structure Date.Valid (date : Date) : Prop where
  month : 1 ≤ date.month ∧ date.month ≤ 12
  day : 1 ≤ date.day ∧ date.day ≤ daysInMonth date.year date.month

/-! ## The year of a day -/

/-- A day of a cycle of 400 years by its century, the four years of the century, the year of these
and the day of the year. The leap day is the last day of its four years; the last four years of a
century have none, but in the fourth century. -/
structure CycleDay (dayOfEra : Int) where
  century : Int
  fours : Int
  year : Int
  dayOfYear : Int
  century_bounds : 0 ≤ century ∧ century ≤ 3
  fours_bounds : 0 ≤ fours ∧ fours ≤ 24
  year_bounds : 0 ≤ year ∧ year ≤ 3
  dayOfYear_bounds : 0 ≤ dayOfYear ∧
    (dayOfYear ≤ 364 ∨ dayOfYear = 365 ∧ year = 3 ∧ (fours < 24 ∨ century = 3))
  total : dayOfEra = 36524 * century + 1461 * fours + 365 * year + dayOfYear

namespace CycleDay

theorem nonempty {dayOfEra : Int} (h : 0 ≤ dayOfEra ∧ dayOfEra < 146097) :
    Nonempty (CycleDay dayOfEra) := by
  obtain ⟨century, ofCentury, htotal, hcentury, hofCentury⟩ : ∃ century ofCentury : Int,
      dayOfEra = 36524 * century + ofCentury ∧ (0 ≤ century ∧ century ≤ 3) ∧ 0 ≤ ofCentury ∧
        (ofCentury < 36524 ∨ ofCentury = 36524 ∧ century = 3) := by
    by_cases hlast : dayOfEra = 146096
    · exact ⟨3, 36524, by omega⟩
    · exact ⟨dayOfEra / 36524, dayOfEra % 36524, by omega⟩
  obtain ⟨year, dayOfYear, hofFours, hyear, hdayOfYear⟩ : ∃ year dayOfYear : Int,
      ofCentury % 1461 = 365 * year + dayOfYear ∧ (0 ≤ year ∧ year ≤ 3) ∧ 0 ≤ dayOfYear ∧
        (dayOfYear < 365 ∨ dayOfYear = 365 ∧ year = 3) := by
    by_cases hlast : ofCentury % 1461 = 1460
    · exact ⟨3, 365, by omega⟩
    · exact ⟨ofCentury % 1461 / 365, ofCentury % 1461 % 365, by omega⟩
  have hfours : 0 ≤ ofCentury / 1461 ∧ ofCentury / 1461 ≤ 24 := by omega
  exact ⟨⟨century, ofCentury / 1461, year, dayOfYear, hcentury, hfours, hyear, by omega, by omega⟩⟩

variable {dayOfEra : Int} (d : CycleDay dayOfEra)

/-- The years of the cycle before that of the day. -/
def yearOfEra : Int := 100 * d.century + 4 * d.fours + d.year

/-- Without the leap days before it a day is as many days into the cycle as common years say. -/
theorem yearOfEra_eq :
    (dayOfEra - dayOfEra / 1460 + dayOfEra / 36524 - dayOfEra / 146096) / 365 = d.yearOfEra := by
  obtain ⟨century, fours, year, dayOfYear, hcentury, hfours, hyear, hday, htotal⟩ := d
  have hlast : dayOfEra < 36524 * (century + 1) ∨ dayOfEra = 146096 ∧ century = 3 := by omega
  have hcenturies : dayOfEra / 36524 - dayOfEra / 146096 = century := by
    rcases hlast with hlt | ⟨rfl, rfl⟩
    · have hle : 36524 * century ≤ dayOfEra := by omega
      clear htotal hday
      have hdiv : dayOfEra / 36524 = century := by omega
      have hzero : dayOfEra / 146096 = 0 := by omega
      omega
    · decide
  have hfourths : dayOfEra / 1460 =
      25 * century + fours + (24 * century + fours + 365 * year + dayOfYear) / 1460 := by
    omega
  simp only [yearOfEra]
  omega

theorem daysBeforeMarch_add (era : Int) :
    daysBeforeMarch (d.yearOfEra + era * 400) + d.dayOfYear = era * 146097 + dayOfEra := by
  obtain ⟨century, fours, year, dayOfYear, hcentury, hfours, hyear, hday, htotal⟩ := d
  simp only [yearOfEra, daysBeforeMarch]
  omega

theorem dayOfYear_lt (era : Int) :
    d.dayOfYear < if LeapYear (d.yearOfEra + era * 400 + 1) then 366 else 365 := by
  have hday := d.dayOfYear_bounds
  by_cases hleap : LeapYear (d.yearOfEra + era * 400 + 1)
  · rw [if_pos hleap]
    omega
  · have hcentury := d.century_bounds
    have hfours := d.fours_bounds
    rw [if_neg hleap]
    simp only [LeapYear, yearOfEra] at hleap
    omega

end CycleDay

/-! ## The date of a day -/

/-- The date of a day of a year that begins in March. -/
def Date.ofMarch (marchYear dayOfYear : Int) : Date :=
  let marchMonth := (5 * dayOfYear + 2) / 153
  let month := if marchMonth < 10 then marchMonth + 3 else marchMonth - 9
  ⟨marchYear + (if month ≤ 2 then 1 else 0), month, dayOfYear - (153 * marchMonth + 2) / 5 + 1⟩

theorem exists_dateOfDay_eq (days : Int) :
    ∃ marchYear dayOfYear, dateOfDay days = Date.ofMarch marchYear dayOfYear ∧
      days = daysBeforeMarch marchYear + dayOfYear - 719468 ∧ 0 ≤ dayOfYear ∧
        dayOfYear < if LeapYear (marchYear + 1) then 366 else 365 := by
  obtain ⟨era, hera⟩ : ∃ era, era = (days + 719468) / 146097 := ⟨_, rfl⟩
  obtain ⟨d⟩ : Nonempty (CycleDay (days + 719468 - era * 146097)) := CycleDay.nonempty (by omega)
  have hday := d.daysBeforeMarch_add era
  refine ⟨d.yearOfEra + era * 400, d.dayOfYear, ?_, by omega, d.dayOfYear_bounds.1,
    d.dayOfYear_lt era⟩
  have hofYear : days + 719468 - era * 146097 -
      (365 * d.yearOfEra + d.yearOfEra / 4 - d.yearOfEra / 100) = d.dayOfYear := by
    obtain ⟨century, fours, year, dayOfYear, hcentury, hfours, hyear, hday, htotal⟩ := d
    simp only [CycleDay.yearOfEra]
    omega
  simp only [dateOfDay, ← hera, d.yearOfEra_eq, hofYear, Date.ofMarch]

namespace Date

variable {marchYear dayOfYear : Int}

/-- January and February are the last months of a year that begins in March. -/
theorem exists_ofMarch_eq (marchYear : Int) (h : 0 ≤ dayOfYear ∧ dayOfYear ≤ 365) :
    ∃ marchMonth day, 1 ≤ day ∧ dayOfYear + 1 = (153 * marchMonth + 2) / 5 + day ∧
      dayOfYear < (153 * (marchMonth + 1) + 2) / 5 ∧
      (0 ≤ marchMonth ∧ marchMonth ≤ 9 ∧
          ofMarch marchYear dayOfYear = ⟨marchYear, marchMonth + 3, day⟩ ∨
        10 ≤ marchMonth ∧ marchMonth ≤ 11 ∧
          ofMarch marchYear dayOfYear = ⟨marchYear + 1, marchMonth - 9, day⟩) := by
  refine ⟨(5 * dayOfYear + 2) / 153, dayOfYear - (153 * ((5 * dayOfYear + 2) / 153) + 2) / 5 + 1,
    by omega, by omega, by omega, ?_⟩
  by_cases hdecember : (5 * dayOfYear + 2) / 153 < 10
  · refine Or.inl ⟨by omega, by omega, ?_⟩
    simp only [ofMarch, if_pos hdecember]
    rw [if_neg (by omega), Int.add_zero]
  · refine Or.inr ⟨by omega, by omega, ?_⟩
    simp only [ofMarch, if_neg hdecember]
    rw [if_pos (by omega)]

theorem daysFromEpoch_ofMarch (h : 0 ≤ dayOfYear ∧ dayOfYear ≤ 365) :
    daysFromEpoch (ofMarch marchYear dayOfYear).year (ofMarch marchYear dayOfYear).month
        (ofMarch marchYear dayOfYear).day =
      daysBeforeMarch marchYear + dayOfYear - 719468 := by
  obtain ⟨marchMonth, day, -, hday, -, ⟨hfirst, hlast, heq⟩ | ⟨hfirst, hlast, heq⟩⟩ :=
    exists_ofMarch_eq marchYear h
  · rw [heq]
    dsimp only
    rw [daysFromEpoch_eq _ (by omega), if_neg (by omega)]
    omega
  · rw [heq]
    dsimp only
    rw [daysFromEpoch_eq _ (by omega), if_pos (by omega), Int.add_sub_cancel]
    omega

theorem valid_ofMarch (hfirst : 0 ≤ dayOfYear)
    (hlast : dayOfYear < if LeapYear (marchYear + 1) then 366 else 365) :
    (ofMarch marchYear dayOfYear).Valid := by
  have hyear : dayOfYear ≤ 365 := by split at hlast <;> omega
  obtain ⟨marchMonth, day, hone, hday, hnext, ⟨hmarch, hdecember, heq⟩ | ⟨hjanuary, hend, heq⟩⟩ :=
    exists_ofMarch_eq marchYear ⟨hfirst, hyear⟩
  · have hindex : (marchMonth + 3 + 9) % 12 = marchMonth := by omega
    have hlength : daysInMonth marchYear (marchMonth + 3) = _ :=
      daysInMonth_of_ne marchYear (by omega) (by omega)
    rw [hindex] at hlength
    rw [heq]
    exact ⟨⟨by dsimp only; omega, by dsimp only; omega⟩, hone, by dsimp only; omega⟩
  · rw [heq]
    refine ⟨⟨by dsimp only; omega, by dsimp only; omega⟩, hone, ?_⟩
    obtain rfl | rfl : marchMonth = 10 ∨ marchMonth = 11 := by omega
    · have hlength : daysInMonth (marchYear + 1) (10 - 9) = 31 :=
        gregorian.long _ 1 (by decide)
      dsimp only
      omega
    · have hlength : daysInMonth (marchYear + 1) (11 - 9) =
          if LeapYear (marchYear + 1) then 29 else 28 := gregorian.february _
      dsimp only
      rw [hlength]
      split at hlast
      · next hleap =>
        rw [if_pos hleap]
        omega
      · next hcommon =>
        rw [if_neg hcommon]
        omega

end Date

theorem valid_dateOfDay (days : Int) : (dateOfDay days).Valid := by
  obtain ⟨marchYear, dayOfYear, heq, -, hfirst, hlast⟩ := exists_dateOfDay_eq days
  rw [heq]
  exact Date.valid_ofMarch hfirst hlast

theorem daysFromEpoch_dateOfDay (days : Int) :
    daysFromEpoch (dateOfDay days).year (dateOfDay days).month (dateOfDay days).day = days := by
  obtain ⟨marchYear, dayOfYear, heq, hdays, hfirst, hlast⟩ := exists_dateOfDay_eq days
  have hyear : dayOfYear ≤ 365 := by split at hlast <;> omega
  rw [heq, Date.daysFromEpoch_ofMarch ⟨hfirst, hyear⟩, hdays]

/-! ## The only date of a day -/

theorem monthStart_mono (year : Int) {first later : Int} (hfirst : 1 ≤ first) (hlater : later ≤ 12)
    (h : first ≤ later) : daysFromEpoch year first 1 ≤ daysFromEpoch year later 1 := by
  have hmarch := daysBeforeMarch_step year
  rw [daysFromEpoch_eq year (by omega), daysFromEpoch_eq year (by omega)]
  split <;> split <;> omega

namespace Date.Valid

variable {date : Date}

/-- A date stands in its year. -/
theorem mem_year (h : date.Valid) :
    daysFromEpoch date.year 1 1 ≤ daysFromEpoch date.year date.month date.day ∧
      daysFromEpoch date.year date.month date.day < daysFromEpoch (date.year + 1) 1 1 := by
  obtain ⟨⟨hfirst, hlast⟩, hday⟩ := h
  rw [gregorian.day _ _ _ hfirst hlast, gregorian.year]
  have hjanuary : daysFromEpoch date.year 1 1 ≤ daysFromEpoch date.year date.month 1 :=
    monthStart_mono date.year (by decide) hlast hfirst
  refine ⟨by omega, ?_⟩
  by_cases hdecember : date.month = 12
  · rw [hdecember] at hday ⊢
    omega
  · have hnext := gregorian.month date.year date.month hfirst (by omega)
    have hmono : daysFromEpoch date.year (date.month + 1) 1 ≤ daysFromEpoch date.year 12 1 :=
      monthStart_mono date.year (by omega) (by decide) (by omega)
    have hpositive := (daysInMonth_bounds date.year 12).1
    omega

/-- The year of a date is the only one that has begun by its day and has not ended. -/
theorem year_eq (h : date.Valid) {year : Int}
    (hbegun : daysFromEpoch year 1 1 ≤ daysFromEpoch date.year date.month date.day)
    (hgoing : daysFromEpoch date.year date.month date.day < daysFromEpoch (year + 1) 1 1) :
    date.year = year := by
  obtain ⟨hfirst, hlast⟩ := h.mem_year
  rcases Int.lt_trichotomy date.year year with hbefore | heq | hbehind
  · have hmono : daysFromEpoch (date.year + 1) 1 1 ≤ daysFromEpoch year 1 1 :=
      newYear_mono (by omega)
    omega
  · exact heq
  · have hmono : daysFromEpoch (year + 1) 1 1 ≤ daysFromEpoch date.year 1 1 :=
      newYear_mono (by omega)
    omega

theorem monthStart_le (h : date.Valid) :
    daysFromEpoch date.year date.month 1 ≤ daysFromEpoch date.year date.month date.day := by
  have hday := h.day
  rw [gregorian.day _ _ date.day h.month.1 h.month.2]
  omega

/-- The month of a date is the last that has begun by its day. -/
theorem le_month (h : date.Valid) {month : Int} (hmonth : month ≤ 12)
    (hbegun : daysFromEpoch date.year month 1 ≤ daysFromEpoch date.year date.month date.day) :
    month ≤ date.month := by
  obtain ⟨⟨hfirst, hlast⟩, hday⟩ := h
  rw [gregorian.day _ _ date.day hfirst hlast] at hbegun
  refine Int.not_lt.mp fun hlater => ?_
  have hnext := gregorian.month date.year date.month hfirst (by omega)
  have hmono : daysFromEpoch date.year (date.month + 1) 1 ≤ daysFromEpoch date.year month 1 :=
    monthStart_mono date.year (by omega) hmonth (by omega)
  omega

/-- No two dates fall on one day. -/
theorem eq_of_daysFromEpoch_eq {other : Date} (h : date.Valid) (hother : other.Valid)
    (heq : daysFromEpoch date.year date.month date.day =
      daysFromEpoch other.year other.month other.day) :
    date = other := by
  obtain ⟨year, month, day⟩ := date
  obtain ⟨otherYear, otherMonth, otherDay⟩ := other
  obtain ⟨hbegun, hgoing⟩ := hother.mem_year
  rw [← heq] at hbegun hgoing
  obtain rfl : year = otherYear := h.year_eq hbegun hgoing
  have hmonth := h.monthStart_le
  have hotherMonth := hother.monthStart_le
  rw [heq] at hmonth
  rw [← heq] at hotherMonth
  obtain rfl : month = otherMonth :=
    Int.le_antisymm (hother.le_month h.month.2 hmonth) (h.le_month hother.month.2 hotherMonth)
  have hday := gregorian.day year month day h.month.1 h.month.2
  have hotherDay := gregorian.day year month otherDay h.month.1 h.month.2
  obtain rfl : day = otherDay := by
    dsimp only at heq
    omega
  rfl

end Date.Valid

theorem dateOfDay_daysFromEpoch {date : Date} (h : date.Valid) :
    dateOfDay (daysFromEpoch date.year date.month date.day) = date :=
  (valid_dateOfDay _).eq_of_daysFromEpoch_eq h (daysFromEpoch_dateOfDay _)

/-! ## The year of an instant -/

theorem yearOf_bounds (millis : Int) :
    daysFromEpoch (yearOf millis) 1 1 * dayMillis ≤ millis ∧
      millis < daysFromEpoch (yearOf millis + 1) 1 1 * dayMillis := by
  obtain ⟨hfirst, hlast⟩ := (valid_dateOfDay (millis / dayMillis)).mem_year
  rw [daysFromEpoch_dateOfDay] at hfirst hlast
  simp only [yearOf, dayMillis] at hfirst hlast ⊢
  omega

theorem yearOf_inverse :
    (∀ millis, daysFromEpoch (yearOf millis) 1 1 * dayMillis ≤ millis ∧
      millis < daysFromEpoch (yearOf millis + 1) 1 1 * dayMillis) ∧
    ∀ year month day time, 1 ≤ month → month ≤ 12 → 1 ≤ day → day ≤ daysInMonth year month →
      0 ≤ time → time < dayMillis →
        yearOf (daysFromEpoch year month day * dayMillis + time) = year := by
  refine ⟨yearOf_bounds, fun year month day time hfirst hlast hone hday hmidnight htime => ?_⟩
  have hvalid : Date.Valid ⟨year, month, day⟩ := ⟨⟨hfirst, hlast⟩, hone, hday⟩
  have hsame : (daysFromEpoch year month day * dayMillis + time) / dayMillis =
      daysFromEpoch year month day := by
    simp only [dayMillis] at htime ⊢
    omega
  rw [yearOf, hsame, dateOfDay_daysFromEpoch hvalid]

example : yearOf (-1) = 1969 := by decide

end ZoneHistory.Calendar
