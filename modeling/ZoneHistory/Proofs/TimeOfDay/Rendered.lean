import ZoneHistory.Calendar.Timestamp
import ZoneHistory.Proofs.TimeOfDay

/-!
# Rendered times

Every number of milliseconds has a written form down to the millisecond, and it is read back from
it, unless its hours are too long to be read. A minus sign in front of a time that is read turns its
value round.
-/
namespace ZoneHistory.TimeOfDay

open Text (Digit spell number)

/-- A number of milliseconds as hours, minutes, seconds and thousandths of a second. -/
def render (millis : Int) : String :=
  (if millis < 0 then "-" else "") ++ toString (millis.natAbs / 3600000) ++ ":" ++
    Calendar.padded 2 (millis.natAbs / 60000 % 60 : Nat) ++ ":" ++
    Calendar.padded 2 (millis.natAbs / 1000 % 60 : Nat) ++ "." ++
    Calendar.padded 3 (millis.natAbs % 1000 : Nat)

theorem toList_padded (width n : Nat) :
    (Calendar.padded width n).toList =
      List.replicate (width - (Nat.toDigits 10 n).length) '0' ++ Nat.toDigits 10 n := by
  have hdigits : toString (n : Int) = String.ofList (Nat.toDigits 10 n) := rfl
  rw [Calendar.padded, hdigits, String.toList_append, String.toList_ofList, String.toList_ofList,
    String.length_ofList]

theorem exists_padded (n width : Nat) (hwidth : 0 < width) (hn : n < 10 ^ width) :
    ∃ row, row.length = width ∧ number row = n ∧ spell row = (Calendar.padded width n).toList := by
  rw [toList_padded]
  exact Text.exists_padded hwidth hn

/-- A time with all of its groups at their full width and nothing behind them. -/
structure Padded where
  hours : List Digit
  minutes : List Digit
  seconds : List Digit
  fraction : List Digit
  hours_nonempty : hours ≠ []
  minutes_length : minutes.length = 2
  seconds_length : seconds.length = 2
  fraction_length : fraction.length = 3

namespace Padded

variable (time : Padded)

theorem minutes_nonempty : time.minutes ≠ [] := List.ne_nil_of_length_eq_add_one time.minutes_length

theorem seconds_nonempty : time.seconds ≠ [] := List.ne_nil_of_length_eq_add_one time.seconds_length

theorem fraction_nonempty : time.fraction ≠ [] :=
  List.ne_nil_of_length_eq_add_one time.fraction_length

def spelling : Spelling where
  hours := time.hours
  minutes := time.minutes
  seconds := time.seconds
  fraction := time.fraction
  letter := none
  lineFeed := false
  hours_nonempty := time.hours_nonempty
  minutes_length := Nat.le_of_eq time.minutes_length
  seconds_length := Nat.le_of_eq time.seconds_length
  fraction_length := Nat.le_of_eq time.fraction_length
  minutes_before h := absurd h time.minutes_nonempty
  seconds_before h := absurd h time.seconds_nonempty
  letter_ascii := nofun

theorem chars_spelling :
    time.spelling.chars =
      spell time.hours ++ ':' :: spell time.minutes ++ ':' :: spell time.seconds ++
        '.' :: spell time.fraction := by
  simp [Spelling.chars, Spelling.behindHours, Spelling.behindMinutes, Spelling.behindSeconds,
    spelling, spellEnd, time.minutes_nonempty, time.seconds_nonempty, time.fraction_nonempty]

theorem millis_spelling :
    time.spelling.millis =
      3600000 * number time.hours + 60000 * number time.minutes + 1000 * number time.seconds +
        number time.fraction := by
  simp [Spelling.millis, spelling, time.fraction_length]

end Padded

/-- The groups of a number of milliseconds, as they are rendered. -/
theorem exists_padded_groups (millis : Nat) :
    ∃ time : Padded,
      (number time.hours = millis / 3600000 ∧
        spell time.hours = (toString (millis / 3600000)).toList) ∧
      (number time.minutes = millis / 60000 % 60 ∧
        spell time.minutes = (Calendar.padded 2 (millis / 60000 % 60 : Nat)).toList) ∧
      (number time.seconds = millis / 1000 % 60 ∧
        spell time.seconds = (Calendar.padded 2 (millis / 1000 % 60 : Nat)).toList) ∧
      number time.fraction = millis % 1000 ∧
        spell time.fraction = (Calendar.padded 3 (millis % 1000 : Nat)).toList := by
  obtain ⟨hours, hhours, hhoursNumber⟩ := Text.exists_numeral (millis / 3600000)
  obtain ⟨minutes, hminutesLength, hminutes⟩ :=
    exists_padded (millis / 60000 % 60) 2 (by decide) (by omega)
  obtain ⟨seconds, hsecondsLength, hseconds⟩ :=
    exists_padded (millis / 1000 % 60) 2 (by decide) (by omega)
  obtain ⟨fraction, hfractionLength, hfraction⟩ :=
    exists_padded (millis % 1000) 3 (by decide) (by omega)
  have hnonempty : hours ≠ [] := by
    rintro rfl
    exact Nat.toDigits_ne_nil hhours.symm
  refine ⟨⟨hours, minutes, seconds, fraction, hnonempty, hminutesLength, hsecondsLength,
    hfractionLength⟩, ⟨hhoursNumber, ?_⟩, hminutes, hseconds, hfraction⟩
  rw [hhours]
  exact Nat.toList_repr.symm

/-- A rendered time is a written one. -/
theorem exists_written_render (millis : Int) :
    ∃ time : Written, time.signedChars = (render millis).toList ∧ time.signedMillis = millis ∧
      (time.hours.length ≤ Text.maxDigits ↔ millis.natAbs / 3600000 < 10 ^ Text.maxDigits) := by
  obtain ⟨time, ⟨hhours, hhoursText⟩, ⟨hminutes, hminutesText⟩, ⟨hseconds, hsecondsText⟩, hfraction,
    hfractionText⟩ := exists_padded_groups millis.natAbs
  have hminutesLe : number time.minutes ≤ 59 := by omega
  have hsecondsLe : number time.seconds ≤ 59 := by omega
  refine ⟨⟨time.spelling, decide (millis < 0), hminutesLe, hsecondsLe⟩, ?_, ?_, ?_⟩
  · simp only [Written.signedChars, time.chars_spelling, render, String.toList_append, hhoursText,
      hminutesText, hsecondsText, hfractionText]
    by_cases hsign : millis < 0
    · simp [hsign]
    · simp [hsign]
  · rw [Written.signedMillis, time.millis_spelling, hhours, hminutes, hseconds, hfraction]
    by_cases hsign : millis < 0
    · rw [decide_eq_true hsign, if_pos rfl]
      omega
    · rw [decide_eq_false hsign, if_neg Bool.false_ne_true]
      omega
  · have hlength : time.spelling.hours.length =
        (Nat.toDigits 10 (millis.natAbs / 3600000)).length := by
      rw [← Text.length_spell]
      exact congrArg List.length (hhoursText.trans Nat.toList_repr)
    dsimp only
    rw [hlength]
    exact Nat.length_toDigits_le_iff (by decide) (by decide)

/-- What is read is what is written, with its value; a sign turns the value round, and a rendered
time is read back. -/
theorem parse_time_iff_written (field : String) :
    (∀ millis, parse field = .ok millis ↔
      ∃ time : Written, time.signedChars = field.toList ∧ time.hours.length ≤ Text.maxDigits ∧
        time.signedMillis = millis) ∧
    (parse field = .error (.invalidTime field) ↔
      ∀ time : Written, time.signedChars ≠ field.toList) ∧
    (∀ millis, parse field = .ok millis → field.toList.head? ≠ some '-' →
      parse ("-" ++ field) = .ok (-millis)) ∧
    ∀ millis, parse (render millis) =
      if millis.natAbs / 3600000 < 10 ^ Text.maxDigits then .ok millis
      else .error .numeralTooLong := by
  refine ⟨fun millis => parse_eq_ok_iff, parse_eq_invalidTime_iff, fun millis h hsign => ?_,
    fun millis => ?_⟩
  · obtain ⟨time, htime, hlength, rfl⟩ := parse_eq_ok_iff.mp h
    have hplus : time.negative = false := by
      rw [Bool.eq_false_iff]
      intro hnegative
      rw [← htime, Written.signedChars, if_pos hnegative] at hsign
      exact hsign rfl
    refine parse_eq_ok_iff.mpr ⟨{ time with negative := true }, ?_, hlength, ?_⟩
    · rw [Written.signedChars, hplus, if_neg Bool.false_ne_true] at htime
      rw [String.toList_append, ← htime]
      rfl
    · rw [Written.signedMillis, Written.signedMillis, hplus]
      rfl
  · obtain ⟨time, htime, hmillis, hlength⟩ := exists_written_render millis
    rw [parse_written htime, hmillis]
    simp only [hlength]

example : (parse (render (-7506500))).toOption = some (-7506500) := by decide +kernel

end ZoneHistory.TimeOfDay
