import ZoneHistory.Proofs.Names
import ZoneHistory.Proofs.TimeOfDay

/-!
# Written dates

The month, day and time fields of a date as they are written, with the date that they stand for.
What is written so is read as that date, and all other fields are refused as malformed, unless they
hold more digits than can be read.
-/
namespace ZoneHistory

open Text (Digit spell number digitValues)

/-- A row of digits that is short enough to be read. -/
structure Text.Readable (row : List Digit) : Prop where
  nonempty : row ≠ []
  length_le : row.length ≤ Text.maxDigits

/-- The days of a month that a field may name: a day, the last of a weekday, and the first of a
weekday from a day on or back from it. -/
inductive DayRule.Written : List Char → DayRule → Prop where
  | number {row : List Digit} (h : Text.Readable row) : Written (spell row) ⟨number row, 0, false⟩
  | last {name : List Char} {weekday : Int} (h : Names weekdayNames name weekday) :
    Written ("last".toList ++ name) ⟨-1, weekday, false⟩
  | onOrAfter {name : List Char} {weekday : Int} {row : List Digit}
    (h : Names weekdayNames name weekday) (hrow : Text.Readable row) :
    Written (name ++ ">=".toList ++ spell row) ⟨number row, weekday, true⟩
  | onOrBefore {name : List Char} {weekday : Int} {row : List Digit}
    (h : Names weekdayNames name weekday) (hrow : Text.Readable row) :
    Written (name ++ "<=".toList ++ spell row) ⟨number row, weekday, false⟩

/-- The clock that the last character of a time names, the wall clock if it names none. -/
structure Clock.NamedBy (last : Option Char) (clock : Clock) : Prop where
  standard : clock = .standard ↔ last = some 's' ∨ last = some 'S'
  universal : clock = .universal ↔ ∃ c ∈ last, c ∈ ['u', 'U', 'g', 'G', 'z', 'Z']

/-- Fields of a date and the date that they stand for; those that are left out are as at the start
of the year. -/
inductive DateSpec.Written : List String → DateSpec → Prop where
  | start : Written [] .startOfYear
  | month {month : String} {index : Int} (h : Names monthNames month.toList index) :
    Written [month] { DateSpec.startOfYear with month := index }
  | day {month day : String} {index : Int} {rule : DayRule}
    (h : Names monthNames month.toList index) (hday : DayRule.Written day.toList rule) :
    Written [month, day]
      { DateSpec.startOfYear with
        month := index, day := rule.day, weekday := rule.weekday, advance := rule.advance }
  | time {month day time : String} {index millis : Int} {rule : DayRule} {clock : Clock}
    (h : Names monthNames month.toList index) (hday : DayRule.Written day.toList rule)
    (htime : TimeOfDay.parse time = .ok millis)
    (hclock : clock.NamedBy time.toList.getLast?) :
    Written [month, day, time] ⟨index, rule.day, rule.weekday, rule.advance, millis, clock⟩

variable {text before after : List Char} {rule : DayRule} {field : String}

/-! ## Days -/

theorem dayNumber_eq_ok_iff {row : List Digit} {n : Int} :
    dayNumber (digitValues row) = .ok n ↔ row.length ≤ Text.maxDigits ∧ n = number row := by
  rw [dayNumber, Text.natural?, Text.length_digitValues]
  by_cases hlength : row.length ≤ Text.maxDigits
  · simp [hlength, number, eq_comm]
  · simp [hlength]

theorem parseJoined_eq_ok_iff {advance : Bool} :
    parseJoined field advance before after = .ok rule ↔
      ∃ weekday row, Names weekdayNames before weekday ∧ Text.Readable row ∧ after = spell row ∧
        rule = ⟨number row, weekday, advance⟩ := by
  rw [parseJoined]
  cases hdigits : Text.digits? after with
  | none =>
    constructor
    · intro h
      cases h
    · rintro ⟨weekday, row, -, hrow, hafter, -⟩
      rw [Text.digits?_eq_some_iff.mpr ⟨row, hrow.nonempty, hafter, rfl⟩] at hdigits
      cases hdigits
  | some digits =>
    simp only [bind_eq_ok_iff, parseWeekday_eq_ok_iff]
    constructor
    · rintro ⟨weekday, hweekday, day, hday, hrule⟩
      obtain ⟨row, hne, hafter, rfl⟩ := Text.digits?_eq_some_iff.mp hdigits
      obtain ⟨hlength, rfl⟩ := dayNumber_eq_ok_iff.mp hday
      exact ⟨weekday, row, hweekday, ⟨hne, hlength⟩, hafter, (Except.ok.inj hrule).symm⟩
    · rintro ⟨weekday, row, hweekday, hrow, hafter, rfl⟩
      rw [Text.digits?_eq_some_iff.mpr ⟨row, hrow.nonempty, hafter, rfl⟩] at hdigits
      obtain rfl := Option.some.inj hdigits
      exact ⟨weekday, hweekday, number row, dayNumber_eq_ok_iff.mpr ⟨hrow.length_le, rfl⟩, rfl⟩

theorem splitAtPair_append {first second : Char} (h : first ∉ before) :
    splitAtPair first second (before ++ first :: second :: after) = some (before, after) := by
  induction before with
  | nil => simp [splitAtPair]
  | cons a before ih =>
    have hfirst : first ≠ a := List.ne_of_not_mem_cons h
    have htail := ih (List.not_mem_of_not_mem_cons h)
    cases hrest : before ++ first :: second :: after with
    | nil => simp at hrest
    | cons b rest =>
      rw [hrest] at htail
      rw [List.cons_append, hrest, splitAtPair, if_neg fun hpair => hfirst hpair.1.symm, htail]
      rfl

theorem splitAtPair_eq_none {first second : Char} (h : first ∉ text) :
    splitAtPair first second text = none := by
  rw [Option.eq_none_iff_forall_ne_some]
  rintro ⟨before, after⟩ hparts
  rw [eq_of_splitAtPair hparts] at h
  exact h (by simp)

theorem splitAtOperator_append {mark : Char} (h : mark ∉ before) (hne : before ≠ []) :
    splitAtOperator mark (before ++ mark :: '=' :: after) = some (before, after) := by
  rw [splitAtOperator, splitAtPair_append h]
  exact Option.filter_some_pos (by simpa using hne)

theorem splitAtOperator_eq_none {mark : Char} (h : mark ∉ text) :
    splitAtOperator mark text = none := by
  rw [splitAtOperator, splitAtPair_eq_none h]
  rfl

/-- The marks of the operators that join a weekday and a day, and whether to move on from it. -/
inductive JoinedBy : Char → Bool → Prop where
  | onOrAfter : JoinedBy '>' true
  | onOrBefore : JoinedBy '<' false

theorem DayRule.Written.joined {mark : Char} {advance : Bool} {weekday : Int} {row : List Digit}
    (hmark : JoinedBy mark advance) (h : Names weekdayNames before weekday)
    (hrow : Text.Readable row) :
    Written (before ++ mark :: '=' :: spell row) ⟨Text.number row, weekday, advance⟩ := by
  cases hmark with
  | onOrAfter => simpa using onOrAfter h hrow
  | onOrBefore => simpa using onOrBefore h hrow

theorem written_of_parseDay_eq_ok (h : parseDay field = .ok rule) :
    DayRule.Written field.toList rule := by
  have hjoined : ∀ {mark advance before after}, JoinedBy mark advance →
      splitAtOperator mark field.toList = some (before, after) →
        parseJoined field advance before after = .ok rule →
          DayRule.Written field.toList rule := by
    intro mark advance before after hmark hparts hrule
    obtain ⟨weekday, row, hname, hrow, rfl, rfl⟩ := parseJoined_eq_ok_iff.mp hrule
    rw [(splitAtOperator_eq_some hparts).1]
    exact .joined hmark hname hrow
  rw [parseDay] at h
  cases hdigits : Text.digits? field.toList with
  | some digits =>
    rw [hdigits] at h
    obtain ⟨day, hday, hrule⟩ := bind_eq_ok_iff.mp h
    obtain ⟨row, hne, hfield, rfl⟩ := Text.digits?_eq_some_iff.mp hdigits
    obtain ⟨hlength, rfl⟩ := dayNumber_eq_ok_iff.mp hday
    rw [hfield, ← Except.ok.inj hrule]
    exact .number ⟨hne, hlength⟩
  | none =>
    rw [hdigits] at h
    dsimp only at h
    split at h
    · next name hname =>
      obtain ⟨weekday, hweekday, hrule⟩ := bind_eq_ok_iff.mp h
      rw [hname, ← Except.ok.inj hrule]
      exact .last (parseWeekday_eq_ok_iff.mp hweekday)
    · split at h
      · next hparts => exact hjoined .onOrAfter hparts h
      · split at h
        · next hparts => exact hjoined .onOrBefore hparts h
        · cases h

theorem Names.weekday_ne_nil {weekday : Int} (h : Names weekdayNames before weekday) :
    before ≠ [] := by
  rintro rfl
  obtain ⟨place, name, hplace, -, hname⟩ := h
  have hall : ∀ name ∈ weekdayNames, name.toList.take 3 ≠ [] := by decide
  exact hall name (List.mem_of_getElem? hplace) hname.take_eq.symm

/-- No weekday begins as `last` does, and no operator stands in one. -/
theorem parseDay_of_joined {mark : Char} {advance : Bool} {weekday : Int} {row : List Digit}
    (hmark : JoinedBy mark advance) (h : Names weekdayNames before weekday)
    (hfield : field.toList = before ++ mark :: '=' :: spell row) :
    parseDay field = parseJoined field advance before (spell row) := by
  have hdigits : Text.digits? field.toList = none :=
    Text.digits?_eq_none (c := mark) (by simp [hfield]) (by cases hmark <;> decide)
  have habsent : mark ∉ before :=
    h.not_mem distinguished_weekdayNames (by cases hmark <;> decide)
  have hparts : splitAtOperator mark field.toList = some (before, spell row) := by
    rw [hfield]
    exact splitAtOperator_append habsent h.weekday_ne_nil
  rw [parseDay, hdigits]
  dsimp only
  split
  · next rest hlast =>
    obtain ⟨first, name, rfl⟩ := List.exists_cons_of_ne_nil h.weekday_ne_nil
    obtain rfl : 'l' = first := (List.cons.inj (hlast.symm.trans hfield)).1
    rw [← distinguished_weekdayNames.nameIndex?_eq_some_iff, nameIndex?_weekdayNames_of_l] at h
    cases h
  · cases hmark with
    | onOrAfter => rw [hparts]
    | onOrBefore =>
      have hnone : splitAtOperator '>' field.toList = none := by
        refine splitAtOperator_eq_none ?_
        have hbefore : '>' ∉ before := h.not_mem distinguished_weekdayNames (by decide)
        have hrow : '>' ∉ spell row := Text.not_mem_spell (by decide)
        rw [hfield]
        simp [hbefore, hrow]
      rw [hnone, hparts]

theorem parseDay_eq_ok_iff : parseDay field = .ok rule ↔ DayRule.Written field.toList rule := by
  refine ⟨written_of_parseDay_eq_ok, fun h => ?_⟩
  generalize hchars : field.toList = chars at h
  cases h with
  | @number row h =>
    rw [parseDay, Text.digits?_eq_some_iff.mpr ⟨row, h.nonempty, hchars, rfl⟩]
    exact bind_eq_ok_iff.mpr ⟨number row, dayNumber_eq_ok_iff.mpr ⟨h.length_le, rfl⟩, rfl⟩
  | @last name weekday h =>
    have hdigits : Text.digits? field.toList = none :=
      Text.digits?_eq_none (c := 'l') (by simp [hchars]) (by decide)
    have hlast : field.toList = 'l' :: 'a' :: 's' :: 't' :: name := hchars
    rw [parseDay, hdigits]
    dsimp only
    rw [hlast]
    exact bind_eq_ok_iff.mpr ⟨weekday, parseWeekday_eq_ok_iff.mpr h, rfl⟩
  | @onOrAfter name weekday row h hrow =>
    have hfield : field.toList = name ++ '>' :: '=' :: spell row := by simpa using hchars
    rw [parseDay_of_joined .onOrAfter h hfield, parseJoined_eq_ok_iff]
    exact ⟨weekday, row, h, hrow, rfl, rfl⟩
  | @onOrBefore name weekday row h hrow =>
    have hfield : field.toList = name ++ '<' :: '=' :: spell row := by simpa using hchars
    rw [parseDay_of_joined .onOrBefore h hfield, parseJoined_eq_ok_iff]
    exact ⟨weekday, row, h, hrow, rfl, rfl⟩

/-! ## Clocks -/

theorem Clock.namedBy_clock (field : String) :
    (TimeOfDay.clock field).NamedBy field.toList.getLast? := by
  rw [TimeOfDay.clock]
  cases hlast : field.toList.getLast? with
  | none => exact ⟨by simp, by simp⟩
  | some c =>
    dsimp only
    split
    · next hstandard =>
      refine ⟨by simpa using hstandard, ?_⟩
      rcases hstandard with rfl | rfl <;> simp
    · next hstandard =>
      split
      · next huniversal => exact ⟨by simpa using hstandard, by simpa using huniversal⟩
      · next huniversal => exact ⟨by simpa using hstandard, by simpa using huniversal⟩

theorem Clock.NamedBy.unique {last : Option Char} {clock other : Clock}
    (h : clock.NamedBy last) (hother : other.NamedBy last) : clock = other := by
  have hstandard := h.standard.trans hother.standard.symm
  have huniversal := h.universal.trans hother.universal.symm
  cases clock with
  | standard => exact (hstandard.mp rfl).symm
  | universal => exact (huniversal.mp rfl).symm
  | wall =>
    cases other with
    | standard => exact hstandard.mpr rfl
    | universal => exact huniversal.mpr rfl
    | wall => rfl

theorem Clock.namedBy_iff {clock : Clock} :
    clock.NamedBy field.toList.getLast? ↔ TimeOfDay.clock field = clock := by
  refine ⟨fun h => (namedBy_clock field).unique h, ?_⟩
  rintro rfl
  exact namedBy_clock field

/-! ## Dates -/

namespace DateSpec

variable {fields : List String} {spec : DateSpec}

theorem parse_eq_ok_iff : parse fields = .ok spec ↔ Written fields spec := by
  constructor
  · intro h
    unfold parse at h
    split at h
    · obtain rfl := Except.ok.inj h
      exact .start
    · obtain ⟨index, hmonth, hspec⟩ := bind_eq_ok_iff.mp h
      obtain rfl := Except.ok.inj hspec
      exact .month (parseMonth_eq_ok_iff.mp hmonth)
    · obtain ⟨index, hmonth, h⟩ := bind_eq_ok_iff.mp h
      obtain ⟨rule, hday, hspec⟩ := bind_eq_ok_iff.mp h
      obtain rfl := Except.ok.inj hspec
      exact .day (parseMonth_eq_ok_iff.mp hmonth) (parseDay_eq_ok_iff.mp hday)
    · obtain ⟨index, hmonth, h⟩ := bind_eq_ok_iff.mp h
      obtain ⟨rule, hday, h⟩ := bind_eq_ok_iff.mp h
      obtain ⟨millis, htime, hspec⟩ := bind_eq_ok_iff.mp h
      obtain rfl := Except.ok.inj hspec
      exact .time (parseMonth_eq_ok_iff.mp hmonth) (parseDay_eq_ok_iff.mp hday) htime
        (Clock.namedBy_iff.mpr rfl)
    · cases h
  · intro h
    cases h with
    | start => rfl
    | month h =>
      exact bind_eq_ok_iff.mpr ⟨_, parseMonth_eq_ok_iff.mpr h, rfl⟩
    | day h hday =>
      refine bind_eq_ok_iff.mpr ⟨_, parseMonth_eq_ok_iff.mpr h, ?_⟩
      exact bind_eq_ok_iff.mpr ⟨_, parseDay_eq_ok_iff.mpr hday, rfl⟩
    | time h hday htime hclock =>
      refine bind_eq_ok_iff.mpr ⟨_, parseMonth_eq_ok_iff.mpr h, ?_⟩
      refine bind_eq_ok_iff.mpr ⟨_, parseDay_eq_ok_iff.mpr hday, ?_⟩
      refine bind_eq_ok_iff.mpr ⟨_, htime, ?_⟩
      rw [Clock.namedBy_iff.mp hclock]
      rfl

end DateSpec

/-! ## Rows that are too long -/

/-- A text that holds more digits in a row than can be read. -/
def Text.HasLongRow (text : List Char) : Prop :=
  ∃ before row after, text = before ++ spell row ++ after ∧ Text.maxDigits < row.length

theorem Text.HasLongRow.append_left (h : Text.HasLongRow text) (earlier : List Char) :
    Text.HasLongRow (earlier ++ text) := by
  obtain ⟨before, row, after, rfl, hlength⟩ := h
  exact ⟨earlier ++ before, row, after, by simp, hlength⟩

theorem Text.hasLongRow_of_digits? {digits : List Nat} (h : Text.digits? text = some digits)
    (hlength : Text.maxDigits < digits.length) : Text.HasLongRow text := by
  obtain ⟨row, -, rfl, rfl⟩ := Text.digits?_eq_some_iff.mp h
  exact ⟨[], row, [], by simp, by simpa using hlength⟩

theorem TimeOfDay.exists_sign_unsigned (field : String) :
    ∃ sign, field.toList = sign ++ unsigned field := by
  unfold unsigned
  split
  · next rest hchars => exact ⟨['-'], hchars⟩
  · exact ⟨[], rfl⟩

theorem TimeOfDay.Overlong.hasLongRow (h : Overlong field) : Text.HasLongRow field.toList := by
  obtain ⟨g, hgroups, -, -, hlength⟩ := h
  obtain ⟨time, hchars, rfl⟩ := groups?_eq_some_iff.mp hgroups
  obtain ⟨sign, hsign⟩ := exists_sign_unsigned field
  rw [hsign, ← hchars]
  refine Text.HasLongRow.append_left ⟨[], time.hours, time.behindHours, rfl, ?_⟩ sign
  simpa [Spelling.groups] using hlength

theorem DayRule.Overlong.hasLongRow (h : DayRule.Overlong field) :
    Text.HasLongRow field.toList := by
  obtain ⟨digits, hlength, hwhole | ⟨weekday, after, hparts, -, hafter⟩⟩ := h
  · exact Text.hasLongRow_of_digits? hwhole hlength
  · obtain ⟨mark, -, hfield, -⟩ := operatorParts?_eq_some hparts
    have hrow := Text.hasLongRow_of_digits? hafter hlength
    rw [hfield]
    exact (hrow.append_left [mark, '=']).append_left weekday

theorem DateSpec.Overlong.exists_hasLongRow {fields : List String} (h : Overlong fields) :
    ∃ field ∈ fields, Text.HasLongRow field.toList := by
  unfold Overlong at h
  split at h
  · exact ⟨_, by simp, h.2.hasLongRow⟩
  · rcases h.2 with hday | ⟨-, htime⟩
    · exact ⟨_, by simp, hday.hasLongRow⟩
    · exact ⟨_, by simp, htime.hasLongRow⟩
  · exact h.elim

/-! ## What a date keeps to -/

/-- A month that there is, a weekday behind `last`, and a weekday wherever the day moves on. -/
structure DateSpec.Consistent (spec : DateSpec) : Prop where
  month : 1 ≤ spec.month ∧ spec.month ≤ 12
  last : spec.day = -1 → (1 ≤ spec.weekday ∧ spec.weekday ≤ 7) ∧ spec.advance = false
  advance : spec.advance = true → 1 ≤ spec.weekday ∧ spec.weekday ≤ 7
  clock : spec.clock = .wall ∨ spec.clock = .standard ∨ spec.clock = .universal

theorem Clock.eq_wall_or_standard_or_universal (clock : Clock) :
    clock = .wall ∨ clock = .standard ∨ clock = .universal := by
  cases clock <;> simp

theorem DayRule.Written.last_weekday (h : DayRule.Written text rule) (hday : rule.day = -1) :
    (1 ≤ rule.weekday ∧ rule.weekday ≤ 7) ∧ rule.advance = false := by
  have hnumber : ∀ row : List Digit, (Text.number row : Int) ≠ -1 := by
    intro row
    omega
  cases h with
  | number h => exact absurd hday (hnumber _)
  | last h => exact ⟨h.bounds, rfl⟩
  | onOrAfter h hrow => exact absurd hday (hnumber _)
  | onOrBefore h hrow => exact absurd hday (hnumber _)

theorem DayRule.Written.advance_weekday (h : DayRule.Written text rule)
    (hadvance : rule.advance = true) : 1 ≤ rule.weekday ∧ rule.weekday ≤ 7 := by
  cases h with
  | onOrAfter h hrow => exact h.bounds
  | _ => cases hadvance

namespace DateSpec

variable {fields : List String} {spec : DateSpec}

theorem Written.consistent (h : Written fields spec) : spec.Consistent := by
  cases h with
  | start => exact ⟨by decide, nofun, nofun, .inl rfl⟩
  | month h => exact ⟨h.bounds, nofun, nofun, .inl rfl⟩
  | day h hday => exact ⟨h.bounds, hday.last_weekday, hday.advance_weekday, .inl rfl⟩
  | time h hday htime hclock =>
    exact ⟨h.bounds, hday.last_weekday, hday.advance_weekday,
      Clock.eq_wall_or_standard_or_universal _⟩

theorem kind_of_parse_eq_error {cause : ParseError} (h : parse fields = .error cause) :
    cause.kind = .malformed ∨
      cause = .numeralTooLong ∧ ∃ field ∈ fields, Text.HasLongRow field.toList := by
  have hgives := gives_parse fields
  rw [h] at hgives
  rcases hgives with hkind | rfl
  · exact .inl hkind
  · exact .inr ⟨rfl, (parse_eq_numeralTooLong_iff.mp h).exists_hasLongRow⟩

/-- What is read is what is written, and what is not written is malformed or holds a row of digits
that is too long. -/
theorem parse_date_iff_written (fields : List String) :
    (∀ spec, parse fields = .ok spec ↔ Written fields spec) ∧
    (∀ cause, parse fields = .error cause →
      cause.kind = .malformed ∨
        cause = .numeralTooLong ∧ ∃ field ∈ fields, Text.HasLongRow field.toList) ∧
    ∀ spec, parse fields = .ok spec → spec.Consistent :=
  ⟨fun _ => parse_eq_ok_iff, fun _ => kind_of_parse_eq_error,
    fun _ h => (parse_eq_ok_iff.mp h).consistent⟩

example : (parse ["Mar", "lastSun", "1:00u"]).toOption =
    some ⟨3, -1, 7, false, 3600000, .universal⟩ := by
  decide +kernel

end DateSpec

end ZoneHistory
