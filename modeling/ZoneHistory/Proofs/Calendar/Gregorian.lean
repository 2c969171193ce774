import Mathlib.Data.Int.Init
import ZoneHistory.Proofs.Calendar

/-!
# The proleptic Gregorian calendar

A calendar counts the days on from 1970-01-01 and back from it. A month begins when the one before
it is over, and a year when its December is over, so that the lengths of the months leave no choice:
the days of dates are those of the Gregorian calendar, in every year.
-/
namespace ZoneHistory.Calendar

/-- Every fourth year is a leap year, of the centuries every fourth. -/
def LeapYear (year : Int) : Prop := 4 ∣ year ∧ (¬100 ∣ year ∨ 400 ∣ year)

instance (year : Int) : Decidable (LeapYear year) := inferInstanceAs (Decidable (_ ∧ _))

/-- Days of dates that go by the Gregorian lengths of the months. -/
structure Gregorian (dayOf : Int → Int → Int → Int) (monthLength : Int → Int → Int) : Prop where
  epoch : dayOf 1970 1 1 = 0
  day : ∀ year month day, 1 ≤ month → month ≤ 12 →
    dayOf year month day = dayOf year month 1 + day - 1
  month : ∀ year month, 1 ≤ month → month ≤ 11 →
    dayOf year (month + 1) 1 = dayOf year month 1 + monthLength year month
  year : ∀ year, dayOf (year + 1) 1 1 = dayOf year 12 1 + monthLength year 12
  february : ∀ year, monthLength year 2 = if LeapYear year then 29 else 28
  short : ∀ year, ∀ month ∈ [4, 6, 9, 11], monthLength year month = 30
  long : ∀ year, ∀ month ∈ [1, 3, 5, 7, 8, 10, 12], monthLength year month = 31

variable {month : Int}

/-! ## The lengths of months and years -/

theorem isLeap_eq_true_iff (year : Int) : isLeap year = true ↔ LeapYear year := by
  simp only [isLeap, LeapYear, Bool.and_eq_true, Bool.or_eq_true, beq_iff_eq, bne_iff_ne]
  omega

theorem daysInMonth_february (year : Int) :
    daysInMonth year 2 = if LeapYear year then 29 else 28 := by
  have hcommon : commonMonths.getD (((2 : Int) - 1) % 12).toNat 0 = 28 := by decide
  simp only [daysInMonth, hcommon, decide_true, Bool.true_and, isLeap_eq_true_iff]
  split <;> rfl

/-- Counted from March on, the months take up whole days of multiples of 30.6 days; February is cut
off by the end of the year. -/
theorem daysInMonth_of_ne (year : Int) (hmonth : 1 ≤ month ∧ month ≤ 12) (hne : month ≠ 2) :
    daysInMonth year month =
      (153 * ((month + 9) % 12 + 1) + 2) / 5 - (153 * ((month + 9) % 12) + 2) / 5 := by
  have hcommon : ∀ index < 12, index ≠ 1 → commonMonths.getD index 0 =
      (153 * (((index : Int) + 1 + 9) % 12 + 1) + 2) / 5 -
        (153 * (((index : Int) + 1 + 9) % 12) + 2) / 5 := by
    decide
  have hindex : ((month - 1) % 12).toNat = (month - 1).toNat := by omega
  have hlength : daysInMonth year month = commonMonths.getD (month - 1).toNat 0 := by
    simp [daysInMonth, hne, hindex]
  rw [hlength, hcommon _ (by omega) (by omega), Int.toNat_of_nonneg (by omega), Int.sub_add_cancel]

theorem daysBeforeMarch_add_one (year : Int) :
    daysBeforeMarch year = daysBeforeMarch (year - 1) + (if LeapYear year then 366 else 365) := by
  split
  · next hleap =>
    simp only [LeapYear, daysBeforeMarch] at hleap ⊢
    omega
  · next hcommon =>
    simp only [LeapYear, daysBeforeMarch] at hcommon ⊢
    omega

/-- A month is as long as it is to the next. -/
theorem daysFromEpoch_nextMonth (year : Int) (hmonth : 1 ≤ month ∧ month ≤ 11) :
    daysFromEpoch year (month + 1) 1 = daysFromEpoch year month 1 + daysInMonth year month := by
  rw [daysFromEpoch_eq year (by omega), daysFromEpoch_eq year (by omega)]
  by_cases hfebruary : month = 2
  · subst hfebruary
    rw [daysInMonth_february, if_neg (by decide), if_pos (by decide), daysBeforeMarch_add_one year]
    split <;> omega
  · rw [daysInMonth_of_ne year (by omega) hfebruary]
    obtain rfl | hmarch : month = 1 ∨ (month + 9) % 12 = month - 3 := by omega
    · omega
    · rw [hmarch, if_neg (by omega), if_neg (by omega)]
      omega

theorem daysFromEpoch_nextYear (year : Int) :
    daysFromEpoch (year + 1) 1 1 = daysFromEpoch year 12 1 + daysInMonth year 12 := by
  rw [← daysFromEpoch_december, daysInMonth_of_ne year (by decide) (by decide)]
  rfl

/-! ## One calendar -/

namespace Gregorian

variable {dayOf other : Int → Int → Int → Int} {monthLength otherLength : Int → Int → Int}

theorem monthLength_eq (h : Gregorian dayOf monthLength) (hother : Gregorian other otherLength)
    (year : Int) (hmonth : 1 ≤ month ∧ month ≤ 12) :
    monthLength year month = otherLength year month := by
  obtain rfl | hshort | hlong : month = 2 ∨ month ∈ ([4, 6, 9, 11] : List Int) ∨
      month ∈ ([1, 3, 5, 7, 8, 10, 12] : List Int) := by
    simp only [List.mem_cons, List.not_mem_nil, or_false]
    omega
  · rw [h.february, hother.february]
  · rw [h.short year month hshort, hother.short year month hshort]
  · rw [h.long year month hlong, hother.long year month hlong]

/-- Two calendars are as far apart at the start of a month as at the start of its year. -/
theorem sub_eq (h : Gregorian dayOf monthLength) (hother : Gregorian other otherLength)
    (year : Int) (hfirst : 1 ≤ month) (hlast : month ≤ 12) :
    dayOf year month 1 - other year month 1 = dayOf year 1 1 - other year 1 1 := by
  induction month, hfirst using Int.leInduction with
  | base => rfl
  | succ month hfirst ih =>
    have hlength : monthLength year month = otherLength year month :=
      h.monthLength_eq hother year (by omega)
    have hnext := h.month year month hfirst (by omega)
    have hnextOther := hother.month year month hfirst (by omega)
    have hmonth := ih (by omega)
    omega

theorem eq_newYear (h : Gregorian dayOf monthLength) (hother : Gregorian other otherLength)
    (year : Int) : dayOf year 1 1 = other year 1 1 := by
  have hstep : ∀ year, dayOf (year + 1) 1 1 - other (year + 1) 1 1 =
      dayOf year 1 1 - other year 1 1 := by
    intro year
    have hlength : monthLength year 12 = otherLength year 12 :=
      h.monthLength_eq hother year (by decide)
    have hdecember : dayOf year 12 1 - other year 12 1 = dayOf year 1 1 - other year 1 1 :=
      h.sub_eq hother year (by decide) (by decide)
    have hnext := h.year year
    have hnextOther := hother.year year
    omega
  have hoffset : ∀ years : Int, dayOf (1970 + years) 1 1 - other (1970 + years) 1 1 = 0 := by
    intro years
    -- From 1970 on and back from it.
    induction years with
    | zero => rw [Int.add_zero, h.epoch, hother.epoch, Int.sub_self]
    | succ years ih => rw [← Int.add_assoc, hstep, ih]
    | pred years ih =>
      have hback := hstep (1970 + (-years - 1))
      rw [Int.add_assoc, Int.sub_add_cancel, ih] at hback
      exact hback.symm
  have hyear := hoffset (year - 1970)
  rw [Int.add_comm, Int.sub_add_cancel] at hyear
  omega

/-- The lengths of the months determine the day of every date. -/
theorem unique (h : Gregorian dayOf monthLength) (hother : Gregorian other otherLength)
    (year day : Int) (hfirst : 1 ≤ month) (hlast : month ≤ 12) :
    dayOf year month day = other year month day := by
  have hmonth := h.sub_eq hother year hfirst hlast
  have hyear := h.eq_newYear hother year
  have hday := h.day year month day hfirst hlast
  have hdayOther := hother.day year month day hfirst hlast
  omega

end Gregorian

theorem gregorian : Gregorian daysFromEpoch daysInMonth where
  epoch := by decide
  day year month day hfirst hlast := by
    rw [daysFromEpoch_eq year ⟨hfirst, hlast⟩, daysFromEpoch_eq year ⟨hfirst, hlast⟩]
    split <;> omega
  month year month hfirst hlast := daysFromEpoch_nextMonth year ⟨hfirst, hlast⟩
  year := daysFromEpoch_nextYear
  february := daysInMonth_february
  short year month hmonth := by
    have hne : month ≠ 2 := by rintro rfl; revert hmonth; decide
    simp only [List.mem_cons, List.not_mem_nil, or_false] at hmonth
    rw [daysInMonth_of_ne year (by omega) hne]
    omega
  long year month hmonth := by
    have hne : month ≠ 2 := by rintro rfl; revert hmonth; decide
    simp only [List.mem_cons, List.not_mem_nil, or_false] at hmonth
    rw [daysInMonth_of_ne year (by omega) hne]
    omega

/-- The days of dates are those of the proleptic Gregorian calendar, and no other numbering of the
days goes by its months. -/
theorem gregorian_daysFromEpoch :
    Gregorian daysFromEpoch daysInMonth ∧
      ∀ dayOf monthLength, Gregorian dayOf monthLength → ∀ year month day, 1 ≤ month → month ≤ 12 →
        dayOf year month day = daysFromEpoch year month day :=
  ⟨gregorian, fun _ _ h year _ day hfirst hlast => h.unique gregorian year day hfirst hlast⟩

example : daysFromEpoch 1900 3 1 - daysFromEpoch 1900 2 1 = 28 := by decide

end ZoneHistory.Calendar
