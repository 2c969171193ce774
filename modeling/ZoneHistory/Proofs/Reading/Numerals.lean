import ZoneHistory.Proofs.Digits
import ZoneHistory.Proofs.Reading.Fields
import ZoneHistory.Session

/-!
# Numerals beyond the limit

The hours of a time and the number of a day may have more digits than can be read. A record whose
other fields up to there are in order is then refused without a place.
-/
namespace ZoneHistory

section Results

variable {ε α β : Type} {result : Except ε α} {cause : ε}

theorem bind_eq_ok_iff {rest : α → Except ε β} {b : β} :
    (result >>= rest) = .ok b ↔ ∃ a, result = .ok a ∧ rest a = .ok b := by
  cases result <;> simp [bind, Except.bind]

theorem bind_eq_error_iff {rest : α → Except ε β} :
    (result >>= rest) = .error cause ↔
      result = .error cause ∨ ∃ a, result = .ok a ∧ rest a = .error cause := by
  cases result <;> simp [bind, Except.bind]

theorem map_eq_error_iff {f : α → β} : result.map f = .error cause ↔ result = .error cause := by
  cases result <;> simp [Except.map]

end Results

theorem Text.natural?_eq_none_iff (digits : List Nat) :
    natural? digits = none ↔ maxDigits < digits.length := by
  simp [natural?]

namespace TimeOfDay

/-- The characters of a time without its sign. -/
def unsigned (text : String) : List Char :=
  match text.toList with
  | '-' :: rest => rest
  | chars => chars

/-- A time that is well written, but for the number of digits of its hours. -/
def Overlong (text : String) : Prop :=
  ∃ g, groups? (unsigned text) = some g ∧ Text.positional g.minutes ≤ 59 ∧
    Text.positional g.seconds ≤ 59 ∧ Text.maxDigits < g.hours.length

theorem magnitude_eq_numeralTooLong_iff {text : String} {chars : List Char} :
    magnitude text chars = .error .numeralTooLong ↔
      ∃ g, groups? chars = some g ∧ Text.positional g.minutes ≤ 59 ∧
        Text.positional g.seconds ≤ 59 ∧ Text.maxDigits < g.hours.length := by
  rw [magnitude]
  cases groups? chars with
  | none => simp
  | some g =>
    dsimp only
    split
    · simp
      omega
    · have hnatural := Text.natural?_eq_none_iff g.hours
      cases hhours : Text.natural? g.hours with
      | none => simp_all
      | some hours => simp_all

theorem parse_eq_numeralTooLong_iff {text : String} :
    parse text = .error .numeralTooLong ↔ Overlong text := by
  have hunsigned : ∀ chars, text.toList = '-' :: chars → unsigned text = chars := by
    intro chars hchars
    simp only [unsigned, hchars]
  rw [parse, Overlong]
  split
  · next chars hchars =>
    rw [map_eq_error_iff, magnitude_eq_numeralTooLong_iff, hunsigned chars hchars]
  · next hplus =>
    have hsame : unsigned text = text.toList := by
      unfold unsigned
      split
      · next chars hchars => exact absurd hchars (hplus chars)
      · rfl
    rw [magnitude_eq_numeralTooLong_iff, hsame]

end TimeOfDay

/-! ## Days -/

theorem eq_of_splitAtPair {first second : Char} {text before after : List Char}
    (h : splitAtPair first second text = some (before, after)) :
    text = before ++ first :: second :: after := by
  fun_induction splitAtPair first second text generalizing before with
  | case1 a b rest hpair =>
    obtain ⟨rfl, rfl⟩ := hpair
    cases h
    rfl
  | case2 a b rest hpair ih =>
    obtain ⟨⟨earlier, later⟩, hparts, heq⟩ := Option.map_eq_some_iff.mp h
    cases heq
    rw [ih hparts, List.cons_append]
  | case3 => cases h

/-- The texts around the operator of a day, `>=` before `<=`. -/
def operatorParts? (text : String) : Option (List Char × List Char) :=
  (splitAtOperator '>' text.toList).or (splitAtOperator '<' text.toList)

/-- A day that is well written, but for the number of its digits. -/
def DayRule.Overlong (text : String) : Prop :=
  ∃ digits, Text.maxDigits < digits.length ∧
    (Text.digits? text.toList = some digits ∨
      ∃ weekday after, operatorParts? text = some (weekday, after) ∧
        (nameIndex? weekdayNames (String.ofList weekday)).isSome = true ∧
        Text.digits? after = some digits)

theorem dayNumber_eq_numeralTooLong_iff {digits : List Nat} :
    dayNumber digits = .error .numeralTooLong ↔ Text.maxDigits < digits.length := by
  rw [← Text.natural?_eq_none_iff, dayNumber]
  cases Text.natural? digits <;> simp

theorem head?_of_isNameOf {text name : String} (h : isNameOf text name = true) :
    text.toList.head? = name.toList.head? := by
  rw [isNameOf, Bool.or_eq_true, beq_iff_eq, beq_iff_eq] at h
  rcases h with rfl | htake
  · rfl
  · rw [htake]
    cases name.toList <;> rfl

/-- No weekday begins as `last` does. -/
theorem nameIndex?_weekdayNames_of_l (rest : List Char) :
    nameIndex? weekdayNames (String.ofList ('l' :: rest)) = none := by
  have hlower : (Text.lowercase (String.ofList ('l' :: rest))).toList.head? = some 'l' := by
    simp [Text.lowercase, Text.lowerAfter, Text.lowerAt]
  have hnames : ∀ name ∈ weekdayNames, name.toList.head? ≠ some 'l' := by decide
  have hnone : weekdayNames.findIdx?
      (isNameOf (Text.lowercase (String.ofList ('l' :: rest)))) = none := by
    rw [List.findIdx?_eq_none_iff]
    intro name hname
    rw [Bool.eq_false_iff]
    intro hmeans
    exact hnames name hname (hlower ▸ (head?_of_isNameOf hmeans).symm)
  rw [nameIndex?, hnone]
  rfl

theorem splitAtOperator_eq_some {mark : Char} {text before after : List Char}
    (h : splitAtOperator mark text = some (before, after)) :
    text = before ++ mark :: '=' :: after ∧ before ≠ [] := by
  obtain ⟨hparts, hbefore⟩ := Option.filter_eq_some_iff.mp h
  exact ⟨eq_of_splitAtPair hparts, by simpa using hbefore⟩

theorem parseJoined_eq_numeralTooLong_iff {text : String} {advance : Bool}
    {weekday after : List Char} :
    parseJoined text advance weekday after = .error .numeralTooLong ↔
      ∃ digits, Text.maxDigits < digits.length ∧
        (nameIndex? weekdayNames (String.ofList weekday)).isSome = true ∧
        Text.digits? after = some digits := by
  rw [parseJoined]
  cases Text.digits? after with
  | none => simp
  | some digits =>
    dsimp only
    rw [bind_eq_error_iff, parseWeekday]
    cases nameIndex? weekdayNames (String.ofList weekday) with
    | none => simp
    | some index =>
      simp only [Except.ok.injEq, reduceCtorEq, false_or, exists_eq_left', bind_eq_error_iff,
        dayNumber_eq_numeralTooLong_iff]
      simp [pure, Except.pure]

theorem operatorParts?_eq_some {text : String} {before after : List Char}
    (h : operatorParts? text = some (before, after)) :
    ∃ mark, (mark = '>' ∨ mark = '<') ∧ text.toList = before ++ mark :: '=' :: after ∧
      before ≠ [] := by
  rcases Option.or_eq_some_iff.mp h with hparts | ⟨-, hparts⟩
  · exact ⟨'>', Or.inl rfl, splitAtOperator_eq_some hparts⟩
  · exact ⟨'<', Or.inr rfl, splitAtOperator_eq_some hparts⟩

theorem operatorParts?_of_digits {text : String} {digits : List Nat}
    (h : Text.digits? text.toList = some digits) : operatorParts? text = none := by
  rw [Option.eq_none_iff_forall_ne_some]
  rintro ⟨before, after⟩ hparts
  obtain ⟨mark, hmark, htext, -⟩ := operatorParts?_eq_some hparts
  have hdigit : Text.digit? mark = none := by
    rcases hmark with rfl | rfl <;> decide
  rw [Text.digits?_eq_none (c := mark) (by simp [htext]) hdigit] at h
  cases h

theorem parseDay_eq_numeralTooLong_iff {text : String} :
    parseDay text = .error .numeralTooLong ↔ DayRule.Overlong text := by
  rw [parseDay, DayRule.Overlong]
  cases hdigits : Text.digits? text.toList with
  | some digits =>
    dsimp only
    rw [bind_eq_error_iff, dayNumber_eq_numeralTooLong_iff, operatorParts?_of_digits hdigits]
    simp [pure, Except.pure]
  | none =>
    dsimp only
    split
    · next name hlast =>
      refine iff_of_false ?_ ?_
      · rw [bind_eq_error_iff, parseWeekday]
        cases nameIndex? weekdayNames (String.ofList name) <;> simp [pure, Except.pure]
      · rintro ⟨digits, -, hwhole | ⟨weekday, after, hparts, hweekday, -⟩⟩
        · cases hwhole
        · obtain ⟨mark, -, htext, hnonempty⟩ := operatorParts?_eq_some hparts
          obtain ⟨first, rest, rfl⟩ := List.exists_cons_of_ne_nil hnonempty
          obtain rfl : 'l' = first := (List.cons.inj (hlast.symm.trans htext)).1
          rw [nameIndex?_weekdayNames_of_l] at hweekday
          cases hweekday
    · rw [operatorParts?]
      cases splitAtOperator '>' text.toList with
      | some parts =>
        obtain ⟨weekday, after⟩ := parts
        simp [parseJoined_eq_numeralTooLong_iff, and_assoc]
      | none =>
        cases splitAtOperator '<' text.toList with
        | some parts =>
          obtain ⟨weekday, after⟩ := parts
          simp [parseJoined_eq_numeralTooLong_iff, and_assoc]
        | none => simp

/-! ## Dates, rules and eras -/

theorem parseMonth_ne_numeralTooLong (text : String) :
    parseMonth text ≠ .error .numeralTooLong := by
  rw [parseMonth]
  cases nameIndex? monthNames text <;> simp

theorem parseYear_ne_numeralTooLong (text : String) (only : Int) :
    parseYear text only ≠ .error .numeralTooLong := by
  rw [parseYear]
  split
  · nofun
  · split
    · nofun
    · split
      · nofun
      · cases Text.integer? (Text.lowercase text) <;> nofun

/-- A day or a time is too long, and the fields before it are in order. -/
def DateSpec.Overlong : List String → Prop
  | [month, day] => (parseMonth month).isOk = true ∧ DayRule.Overlong day
  | [month, day, time] =>
    (parseMonth month).isOk = true ∧
      (DayRule.Overlong day ∨ (parseDay day).isOk = true ∧ TimeOfDay.Overlong time)
  | _ => False

theorem isOk_iff_exists {ε α : Type} {result : Except ε α} :
    result.isOk = true ↔ ∃ a, result = .ok a := by
  cases result <;> simp [Except.isOk, Except.toBool]

theorem DateSpec.parse_eq_numeralTooLong_iff {fields : List String} :
    parse fields = .error .numeralTooLong ↔ Overlong fields := by
  unfold parse Overlong
  split
  · simp
  · simp [bind_eq_error_iff, parseMonth_ne_numeralTooLong, pure, Except.pure]
  · simp [bind_eq_error_iff, parseMonth_ne_numeralTooLong, parseDay_eq_numeralTooLong_iff,
      isOk_iff_exists, pure, Except.pure]
  · simp [bind_eq_error_iff, parseMonth_ne_numeralTooLong, parseDay_eq_numeralTooLong_iff,
      TimeOfDay.parse_eq_numeralTooLong_iff, isOk_iff_exists, pure, Except.pure]
  · simp

/-- A day or a time of the rule is too long, and the fields before it are in order. -/
def Rule.Overlong : List String → Prop
  | [_, first, last, _, month, day, time, save, _] =>
    (∃ fromYear toYear, parseYear first 0 = .ok fromYear ∧ parseYear last fromYear = .ok toYear ∧
      fromYear ≤ toYear) ∧
    (DateSpec.Overlong [month, day, time] ∨
      (DateSpec.parse [month, day, time]).isOk = true ∧ TimeOfDay.Overlong save)
  | _ => False

theorem Rule.parse_eq_numeralTooLong_iff {fields : List String} {line : String} :
    parse fields line = .error .numeralTooLong ↔ Overlong fields := by
  unfold parse Overlong
  split
  · next name first last kind month day time save letter =>
    simp only [bind_eq_error_iff, parseYear_ne_numeralTooLong, false_or]
    simp only [← exists_and_right, and_assoc]
    refine exists_congr fun fromYear => ?_
    rw [← exists_and_left]
    refine exists_congr fun toYear => and_congr_right fun _ => and_congr_right fun _ => ?_
    by_cases hyears : toYear < fromYear
    · rw [if_pos hyears]
      exact iff_of_false nofun fun h => absurd h.1 (Int.not_le.mpr hyears)
    · rw [if_neg hyears, and_iff_right (Int.not_lt.mp hyears)]
      simp [bind_eq_error_iff, DateSpec.parse_eq_numeralTooLong_iff,
        TimeOfDay.parse_eq_numeralTooLong_iff, isOk_iff_exists, pure, Except.pure]
  · simp

theorem Savings.parse_eq_numeralTooLong_iff {text : String} :
    parse text = .error .numeralTooLong ↔ TimeOfDay.Overlong text := by
  rw [← TimeOfDay.parse_eq_numeralTooLong_iff, parse]
  split
  · next hnone =>
    subst hnone
    exact iff_of_false nofun nofun
  · split
    · next hparse => simp [hparse]
    · next hparse => simp [hparse]
    · next cause hcause hparse =>
      rw [hparse]
      exact iff_of_false nofun fun h => hcause (Except.error.inj h)

namespace Era

/-- The offset or the savings of an era are too long, and what is read before them is in order. -/
def OffsetsOverlong (offset savings : String) : Prop :=
  TimeOfDay.Overlong offset ∨ (TimeOfDay.parse offset).isOk = true ∧ TimeOfDay.Overlong savings

/-- A day or a time of the era is too long, and what is read before it is in order; the end of the
era is read first. -/
def Overlong : List String → Prop
  | [offset, savings, _] => OffsetsOverlong offset savings
  | offset :: savings :: _ :: year :: date =>
    (Text.integer? year).isSome = true ∧
      (DateSpec.Overlong date ∨
        (DateSpec.parse date).isOk = true ∧ OffsetsOverlong offset savings)
  | _ => False

theorem parse_eq_numeralTooLong_iff {fields : List String} {line : String} :
    parse fields line = .error .numeralTooLong ↔ Overlong fields := by
  have hoffsets : ∀ (offset savings format : String) (cutover? : Option Cutover),
      (do
        let standardOffset ← TimeOfDay.parse offset
        let savings ← Savings.parse savings
        return (⟨standardOffset, savings, format, cutover?, line⟩ : Era)) =
          .error .numeralTooLong ↔ OffsetsOverlong offset savings := by
    intro offset savings format cutover?
    simp [OffsetsOverlong, bind_eq_error_iff, TimeOfDay.parse_eq_numeralTooLong_iff,
      Savings.parse_eq_numeralTooLong_iff, isOk_iff_exists, pure, Except.pure]
  unfold parse Overlong
  split
  · next offset savings format finish =>
    cases finish with
    | nil => exact hoffsets offset savings format none
    | cons year date =>
      dsimp only
      rw [bind_eq_error_iff, map_eq_error_iff, Cutover.parse]
      cases Text.integer? year with
      | none => simp [Except.map]
      | some number =>
        dsimp only
        rw [map_eq_error_iff, DateSpec.parse_eq_numeralTooLong_iff]
        cases DateSpec.parse date with
        | error cause => simp [Except.map, Except.isOk, Except.toBool]
        | ok spec =>
          have hok : (Except.ok spec : Except ParseError DateSpec).isOk = true := rfl
          simp only [Except.map, Except.ok.injEq, exists_eq_left', hoffsets, hok, true_and,
            Option.isSome_some]
  · next hshort =>
    split
    · exact absurd rfl (hshort _ _ _ _)
    · exact absurd rfl (hshort _ _ _ _)
    · exact iff_of_false nofun id

end Era

end ZoneHistory
