import ZoneHistory.Proofs.Digits
import ZoneHistory.Proofs.Reading.Numerals

/-!
# Written times

A time is written as rows of digits with marks before them, a sign before all of it and perhaps a
letter and a line feed behind. What is written so is read, with the value of its digits, and nothing
else is.
-/
namespace ZoneHistory.TimeOfDay

open Text (Digit NoDigitFirst spell number digitValues)

/-- Digits behind a mark; without digits the mark is left out as well. -/
def spellGroup (mark : Char) : List Digit → List Char
  | [] => []
  | d :: row => mark :: spell (d :: row)

/-- A letter and a line feed, each of which may be left out. -/
def spellEnd (letter : Option Char) (lineFeed : Bool) : List Char :=
  letter.toList ++ if lineFeed then ['\n'] else []

/-- A time as it is written without its sign; a group that is left out has no digits. -/
structure Spelling where
  hours : List Digit
  minutes : List Digit
  seconds : List Digit
  fraction : List Digit
  letter : Option Char
  lineFeed : Bool
  hours_nonempty : hours ≠ []
  minutes_length : minutes.length ≤ 2
  seconds_length : seconds.length ≤ 2
  fraction_length : fraction.length ≤ 3
  minutes_before : minutes = [] → seconds = []
  seconds_before : seconds = [] → fraction = []
  letter_ascii : ∀ c ∈ letter, c.isAlpha = true

namespace Spelling

/-- The characters behind the seconds, a fraction first. -/
def behindSeconds (time : Spelling) : List Char :=
  spellGroup '.' time.fraction ++ spellEnd time.letter time.lineFeed

def behindMinutes (time : Spelling) : List Char :=
  spellGroup ':' time.seconds ++ time.behindSeconds

def behindHours (time : Spelling) : List Char :=
  spellGroup ':' time.minutes ++ time.behindMinutes

def chars (time : Spelling) : List Char := spell time.hours ++ time.behindHours

/-- The digits of the groups. -/
def groups (time : Spelling) : Groups :=
  ⟨digitValues time.hours, digitValues time.minutes, digitValues time.seconds,
    digitValues time.fraction⟩

/-- The milliseconds of the written digits; those of the fraction are tenths, hundredths and
thousandths of a second. -/
def millis (time : Spelling) : Int :=
  3600000 * number time.hours + 60000 * number time.minutes + 1000 * number time.seconds +
    (number time.fraction * 10 ^ (3 - time.fraction.length) : Nat)

end Spelling

variable {text rest : List Char} {row : List Digit} {values : List Nat} {mark : Char}

/-! ## The end of a time -/

theorem isAsciiLetter_eq_isAlpha (c : Char) : isAsciiLetter c = c.isAlpha := by
  rw [Bool.eq_iff_iff, Text.isAlpha_iff]
  simp only [isAsciiLetter, Bool.or_eq_true, Bool.and_eq_true, decide_eq_true_eq, Char.le_def,
    UInt32.le_iff_toNat_le]
  exact or_comm

theorem endsWell_iff :
    endsWell rest = true ↔
      ∃ letter lineFeed, (∀ c ∈ letter, c.isAlpha = true) ∧ rest = spellEnd letter lineFeed := by
  constructor
  · intro h
    unfold endsWell at h
    split at h
    · exact ⟨none, false, nofun, rfl⟩
    · next c =>
      rw [isAsciiLetter_eq_isAlpha, Bool.or_eq_true, beq_iff_eq] at h
      rcases h with rfl | hletter
      · exact ⟨none, true, nofun, rfl⟩
      · exact ⟨some c, false, by simpa using hletter, rfl⟩
    · next c lineFeed =>
      rw [isAsciiLetter_eq_isAlpha, Bool.and_eq_true, beq_iff_eq] at h
      obtain ⟨hletter, rfl⟩ := h
      exact ⟨some c, true, by simpa using hletter, rfl⟩
    · cases h
  · rintro ⟨letter, lineFeed, hletter, rfl⟩
    cases letter with
    | none => cases lineFeed <;> rfl
    | some c =>
      have hc : isAsciiLetter c = true := (isAsciiLetter_eq_isAlpha c).trans (hletter c rfl)
      cases lineFeed <;> simp [spellEnd, endsWell, hc]

theorem Spelling.endsWell_spellEnd (time : Spelling) :
    endsWell (spellEnd time.letter time.lineFeed) = true :=
  endsWell_iff.mpr ⟨time.letter, time.lineFeed, time.letter_ascii, rfl⟩

/-! ## Groups of digits -/

@[simp]
theorem spellGroup_of_ne (mark : Char) (h : row ≠ []) :
    spellGroup mark row = mark :: spell row := by
  cases row with
  | nil => exact absurd rfl h
  | cons d row => rfl

theorem groupAfter_eq_some_iff {most : Nat} :
    groupAfter mark most text = some (values, rest) ↔
      ∃ row, values = digitValues row ∧ row.length ≤ most ∧ text = spellGroup mark row ++ rest ∧
        (row = [] → rest.head? ≠ some mark) ∧ (row ≠ [] → NoDigitFirst rest) := by
  constructor
  · intro h
    unfold groupAfter at h
    split at h
    · cases h
      exact ⟨[], rfl, Nat.zero_le _, rfl, nofun, nofun⟩
    · next c text =>
      split at h
      · next hmark =>
        dsimp only at h
        split at h
        · next hlength =>
          obtain ⟨row, htext, hvalues, hrest⟩ := Text.exists_row_of_spanDigits text
          cases h
          rw [hvalues, Text.length_digitValues] at hlength
          have hne : row ≠ [] := List.ne_nil_of_length_pos hlength.1
          refine ⟨row, hvalues, hlength.2, ?_, fun h => absurd h hne, fun _ => hrest⟩
          rw [spellGroup_of_ne mark hne, List.cons_append, ← htext, hmark]
        · cases h
      · next hmark =>
        cases h
        exact ⟨[], rfl, Nat.zero_le _, rfl, fun _ => by simpa using hmark, fun h => absurd rfl h⟩
  · rintro ⟨row, rfl, hlength, rfl, hmark, hrest⟩
    cases row with
    | nil =>
      have hhead := hmark rfl
      cases rest with
      | nil => rfl
      | cons c rest =>
        have hc : c ≠ mark := fun hc => hhead (congrArg some hc)
        rw [spellGroup, List.nil_append, groupAfter, if_neg hc]
        rfl
    | cons d row =>
      have hspan := Text.spanDigits_spell (d :: row) (hrest nofun)
      rw [spellGroup, List.cons_append, groupAfter, if_pos rfl]
      dsimp only
      rw [hspan, Text.length_digitValues, if_pos ⟨Nat.succ_pos _, hlength⟩]

/-- A group that can only be written behind an earlier one. -/
def groupBehind (earlier : List Nat) (mark : Char) (most : Nat) (text : List Char) :
    Option (List Nat × List Char) :=
  if earlier.isEmpty then some ([], text) else groupAfter mark most text

theorem groups?_eq (text : List Char) :
    groups? text =
      if (Text.spanDigits text).1.isEmpty then none
      else (groupAfter ':' 2 (Text.spanDigits text).2).bind fun minutes =>
        (groupBehind minutes.1 ':' 2 minutes.2).bind fun seconds =>
          (groupBehind seconds.1 '.' 3 seconds.2).bind fun fraction =>
            if endsWell fraction.2 then
              some ⟨(Text.spanDigits text).1, minutes.1, seconds.1, fraction.1⟩
            else none := by
  simp only [groups?, bind]
  split
  · rfl
  · refine congrArg _ (funext fun minutes => ?_)
    rw [groupBehind]
    split
    · refine congrArg _ (funext fun seconds => ?_)
      rw [groupBehind]
      split <;> rfl
    · refine congrArg _ (funext fun seconds => ?_)
      rw [groupBehind]
      split <;> rfl

theorem groupBehind_eq_some_iff {earlier : List Digit} {most : Nat} :
    groupBehind (digitValues earlier) mark most text = some (values, rest) ↔
      ∃ row, values = digitValues row ∧ row.length ≤ most ∧ text = spellGroup mark row ++ rest ∧
        (earlier = [] → row = []) ∧ (earlier ≠ [] → row = [] → rest.head? ≠ some mark) ∧
        (row ≠ [] → NoDigitFirst rest) := by
  cases earlier with
  | nil =>
    constructor
    · intro h
      cases h
      exact ⟨[], rfl, Nat.zero_le _, rfl, fun _ => rfl, fun h => absurd rfl h,
        fun h => absurd rfl h⟩
    · rintro ⟨row, rfl, -, rfl, hrow, -⟩
      rw [hrow rfl]
      rfl
  | cons d earlier =>
    refine groupAfter_eq_some_iff.trans (exists_congr fun row => ?_)
    simp

theorem noDigitFirst_spellGroup (hmark : Text.digit? mark = none) (hrest : NoDigitFirst rest) :
    NoDigitFirst (spellGroup mark row ++ rest) := by
  cases row with
  | nil => exact hrest
  | cons d row =>
    intro c hc
    rw [← Option.some.inj hc, hmark]

theorem head?_spellEnd {letter : Option Char} {lineFeed : Bool} {c : Char}
    (hletter : ∀ c ∈ letter, c.isAlpha = true) (h : c ∈ (spellEnd letter lineFeed).head?) :
    c.isAlpha = true ∨ c = '\n' := by
  cases letter with
  | some first =>
    obtain rfl : first = c := Option.some.inj h
    exact Or.inl (hletter first rfl)
  | none =>
    cases lineFeed with
    | false => cases h
    | true => exact Or.inr (Option.some.inj h).symm

theorem head?_spellEnd_ne {letter : Option Char} {lineFeed : Bool}
    (hletter : ∀ c ∈ letter, c.isAlpha = true) (hmark : mark.isAlpha = false)
    (hfeed : mark ≠ '\n') :
    (spellEnd letter lineFeed).head? ≠ some mark := by
  intro h
  rcases head?_spellEnd hletter h with halpha | rfl
  · rw [halpha] at hmark
    cases hmark
  · exact hfeed rfl

theorem noDigitFirst_spellEnd {letter : Option Char} {lineFeed : Bool}
    (hletter : ∀ c ∈ letter, c.isAlpha = true) : NoDigitFirst (spellEnd letter lineFeed) := by
  intro c hc
  rcases head?_spellEnd hletter hc with halpha | rfl
  · exact Text.digit?_of_isAlpha halpha
  · decide

theorem exists_of_groups?_eq_some {g : Groups} (h : groups? text = some g) :
    ∃ time : Spelling, time.chars = text ∧ time.groups = g := by
  rw [groups?_eq] at h
  obtain ⟨hours, htext, hhours, -⟩ := Text.exists_row_of_spanDigits text
  split at h
  · cases h
  · next hempty =>
    obtain ⟨⟨_, behindMinutes⟩, hminutes, h⟩ := Option.bind_eq_some_iff.mp h
    obtain ⟨minutes, rfl, hminutesLength, hminutesText, -⟩ := groupAfter_eq_some_iff.mp hminutes
    obtain ⟨⟨_, behindSeconds⟩, hseconds, h⟩ := Option.bind_eq_some_iff.mp h
    obtain ⟨seconds, rfl, hsecondsLength, hsecondsText, hminutesBefore, -⟩ :=
      groupBehind_eq_some_iff.mp hseconds
    obtain ⟨⟨_, behind⟩, hfraction, h⟩ := Option.bind_eq_some_iff.mp h
    obtain ⟨fraction, rfl, hfractionLength, hfractionText, hsecondsBefore, -⟩ :=
      groupBehind_eq_some_iff.mp hfraction
    dsimp only at h hsecondsText hfractionText
    obtain ⟨hends, hg⟩ := Option.ite_none_right_eq_some.mp h
    obtain ⟨letter, lineFeed, hletter, hbehind⟩ := endsWell_iff.mp hends
    have hnonempty : hours ≠ [] := by
      rintro rfl
      rw [hhours] at hempty
      exact hempty rfl
    refine ⟨⟨hours, minutes, seconds, fraction, letter, lineFeed, hnonempty, hminutesLength,
      hsecondsLength, hfractionLength, hminutesBefore, hsecondsBefore, hletter⟩, ?_, ?_⟩
    · rw [htext, hminutesText, hsecondsText, hfractionText, hbehind]
      rfl
    · rw [← Option.some.inj hg, hhours]
      rfl

namespace Spelling

variable (time : Spelling)

theorem noDigitFirst_behindSeconds : NoDigitFirst time.behindSeconds :=
  noDigitFirst_spellGroup (by decide) (noDigitFirst_spellEnd time.letter_ascii)

theorem noDigitFirst_behindMinutes : NoDigitFirst time.behindMinutes :=
  noDigitFirst_spellGroup (by decide) time.noDigitFirst_behindSeconds

theorem noDigitFirst_behindHours : NoDigitFirst time.behindHours :=
  noDigitFirst_spellGroup (by decide) time.noDigitFirst_behindMinutes

theorem groupAfter_behindHours :
    groupAfter ':' 2 time.behindHours = some (digitValues time.minutes, time.behindMinutes) := by
  refine groupAfter_eq_some_iff.mpr ⟨time.minutes, rfl, time.minutes_length, rfl, fun hnil => ?_,
    fun _ => time.noDigitFirst_behindMinutes⟩
  have hseconds := time.minutes_before hnil
  rw [behindMinutes, behindSeconds, hseconds, time.seconds_before hseconds]
  exact head?_spellEnd_ne time.letter_ascii rfl (by decide)

theorem groupBehind_behindMinutes :
    groupBehind (digitValues time.minutes) ':' 2 time.behindMinutes =
      some (digitValues time.seconds, time.behindSeconds) := by
  refine groupBehind_eq_some_iff.mpr ⟨time.seconds, rfl, time.seconds_length, rfl,
    time.minutes_before, fun _ hnil => ?_, fun _ => time.noDigitFirst_behindSeconds⟩
  rw [behindSeconds, time.seconds_before hnil]
  exact head?_spellEnd_ne time.letter_ascii rfl (by decide)

theorem groupBehind_behindSeconds :
    groupBehind (digitValues time.seconds) '.' 3 time.behindSeconds =
      some (digitValues time.fraction, spellEnd time.letter time.lineFeed) :=
  groupBehind_eq_some_iff.mpr ⟨time.fraction, rfl, time.fraction_length, rfl, time.seconds_before,
    fun _ _ => head?_spellEnd_ne time.letter_ascii rfl (by decide),
    fun _ => noDigitFirst_spellEnd time.letter_ascii⟩

theorem groups?_chars : groups? time.chars = some time.groups := by
  have hhours := Text.spanDigits_spell time.hours time.noDigitFirst_behindHours
  have hnonempty : (digitValues time.hours).isEmpty = false := by
    simpa using time.hours_nonempty
  rw [groups?_eq, chars, hhours]
  dsimp only
  rw [hnonempty, if_neg Bool.false_ne_true, time.groupAfter_behindHours, Option.bind_some,
    time.groupBehind_behindMinutes, Option.bind_some, time.groupBehind_behindSeconds,
    Option.bind_some, time.endsWell_spellEnd, if_pos rfl]
  rfl

end Spelling

theorem groups?_eq_some_iff {g : Groups} :
    groups? text = some g ↔ ∃ time : Spelling, time.chars = text ∧ time.groups = g := by
  refine ⟨exists_of_groups?_eq_some, ?_⟩
  rintro ⟨time, rfl, rfl⟩
  exact time.groups?_chars

/-! ## Values -/

theorem fractionMillis_digitValues (row : List Digit) :
    fractionMillis (digitValues row) = number row * 10 ^ (3 - row.length) := by
  cases row with
  | nil => exact (Nat.zero_mul _).symm
  | cons d row =>
    rw [fractionMillis, if_neg (by simp), Text.positional_append_zeros, Text.length_digitValues]
    rfl

theorem Spelling.millis_groups (time : Spelling) :
    time.groups.millis (number time.hours) = time.millis := by
  simp only [Groups.millis, groups, fractionMillis_digitValues, millis]
  rw [Int.mul_comm 3600000, Int.mul_comm 60000, Int.mul_comm 1000]
  rfl

variable (field : String)

theorem magnitude_chars (time : Spelling) (hminutes : number time.minutes ≤ 59)
    (hseconds : number time.seconds ≤ 59) :
    magnitude field time.chars =
      if time.hours.length ≤ Text.maxDigits then .ok time.millis else .error .numeralTooLong := by
  have hrange : ¬(59 < Text.positional time.groups.minutes ∨
      59 < Text.positional time.groups.seconds) :=
    not_or.mpr ⟨Nat.not_lt.mpr hminutes, Nat.not_lt.mpr hseconds⟩
  have hhours : Text.natural? time.groups.hours =
      if time.hours.length ≤ Text.maxDigits then some (number time.hours) else none := by
    rw [Text.natural?, Spelling.groups, Text.length_digitValues]
    rfl
  rw [magnitude, time.groups?_chars]
  dsimp only
  rw [if_neg hrange, hhours]
  by_cases hlength : time.hours.length ≤ Text.maxDigits
  · rw [if_pos hlength, if_pos hlength]
    exact congrArg Except.ok time.millis_groups
  · rw [if_neg hlength, if_neg hlength]

theorem magnitude_of_forall_not
    (h : ∀ time : Spelling, time.chars = text →
      ¬(number time.minutes ≤ 59 ∧ number time.seconds ≤ 59)) :
    magnitude field text = .error (.invalidTime field) := by
  rw [magnitude]
  cases hg : groups? text with
  | none => rfl
  | some g =>
    obtain ⟨time, htime, rfl⟩ := exists_of_groups?_eq_some hg
    have hrange : 59 < number time.minutes ∨ 59 < number time.seconds := by
      have hnot := h time htime
      omega
    exact if_pos hrange

/-! ## Times with their sign -/

/-- A time as it is written, with no more than 59 minutes and 59 seconds. -/
structure Written extends Spelling where
  negative : Bool
  minutes_le : number minutes ≤ 59
  seconds_le : number seconds ≤ 59

namespace Written

def signedChars (time : Written) : List Char :=
  if time.negative then '-' :: time.chars else time.chars

def signedMillis (time : Written) : Int :=
  if time.negative then -time.millis else time.millis

end Written

theorem Spelling.head?_chars_ne (time : Spelling) : time.chars.head? ≠ some '-' := by
  obtain ⟨d, row, hrow⟩ := List.exists_cons_of_ne_nil time.hours_nonempty
  intro h
  rw [chars, hrow] at h
  have hdigit := d.reads
  rw [Option.some.inj h] at hdigit
  have hsign : Text.digit? '-' = none := by decide
  rw [hsign] at hdigit
  cases hdigit

variable {field}

theorem parse_of_minus (h : field.toList = '-' :: text) :
    parse field = (magnitude field text).map (- ·) := by
  rw [parse, h]
  rfl

theorem parse_of_head?_ne (h : field.toList.head? ≠ some '-') :
    parse field = magnitude field field.toList := by
  unfold parse
  split
  · next chars hchars =>
    rw [hchars] at h
    exact absurd rfl h
  · rfl

theorem parse_written {time : Written} (h : time.signedChars = field.toList) :
    parse field =
      if time.hours.length ≤ Text.maxDigits then .ok time.signedMillis
      else .error .numeralTooLong := by
  have hmagnitude := magnitude_chars field time.toSpelling time.minutes_le time.seconds_le
  rw [Written.signedChars] at h
  rw [Written.signedMillis]
  cases hsign : time.negative with
  | false =>
    rw [hsign, if_neg Bool.false_ne_true] at h
    rw [parse_of_head?_ne (by rw [← h]; exact time.head?_chars_ne), ← h, hmagnitude]
    rfl
  | true =>
    rw [hsign, if_pos rfl] at h
    rw [parse_of_minus h.symm, hmagnitude]
    split <;> rfl

theorem parse_of_forall_ne (h : ∀ time : Written, time.signedChars ≠ field.toList) :
    parse field = .error (.invalidTime field) := by
  have hsigned : ∀ (negative : Bool) (time : Spelling),
      (if negative then '-' :: time.chars else time.chars) = field.toList →
        ¬(number time.minutes ≤ 59 ∧ number time.seconds ≤ 59) :=
    fun negative time htime hrange => h ⟨time, negative, hrange.1, hrange.2⟩ htime
  by_cases hsign : field.toList.head? = some '-'
  · obtain ⟨chars, hchars⟩ := List.head?_eq_some_iff.mp hsign
    have hmagnitude : magnitude field chars = .error (.invalidTime field) :=
      magnitude_of_forall_not field fun time htime =>
        hsigned true time (by rw [htime, hchars]; rfl)
    rw [parse_of_minus hchars, hmagnitude]
    rfl
  · rw [parse_of_head?_ne hsign]
    exact magnitude_of_forall_not field fun time htime => hsigned false time htime

theorem parse_eq_ok_iff {millis : Int} :
    parse field = .ok millis ↔
      ∃ time : Written, time.signedChars = field.toList ∧ time.hours.length ≤ Text.maxDigits ∧
        time.signedMillis = millis := by
  constructor
  · intro h
    by_cases hwritten : ∃ time : Written, time.signedChars = field.toList
    · obtain ⟨time, htime⟩ := hwritten
      rw [parse_written htime] at h
      split at h
      · next hlength => exact ⟨time, htime, hlength, Except.ok.inj h⟩
      · cases h
    · rw [parse_of_forall_ne (not_exists.mp hwritten)] at h
      cases h
  · rintro ⟨time, htime, hlength, rfl⟩
    rw [parse_written htime, if_pos hlength]

theorem parse_eq_invalidTime_iff :
    parse field = .error (.invalidTime field) ↔
      ∀ time : Written, time.signedChars ≠ field.toList := by
  refine ⟨fun h time htime => ?_, parse_of_forall_ne⟩
  rw [parse_written htime] at h
  split at h <;> cases h

end ZoneHistory.TimeOfDay
