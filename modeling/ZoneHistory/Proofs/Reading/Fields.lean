import ZoneHistory.Rule
import ZoneHistory.Zone

/-!
# What is read from fields

The date specs of every rule and era that is read lie in the calendar, and a rule lasts at least a
year. What a line is refused for never depends on lines before it.
-/
namespace ZoneHistory

section Results

variable {ε α β : Type} {value : α → Prop} {next : β → Prop} {failure : ε → Prop}

/-- The value of a result, or else its failure, has a property. -/
def Gives (value : α → Prop) (failure : ε → Prop) : Except ε α → Prop
  | .ok a => value a
  | .error cause => failure cause

theorem Gives.bind {result : Except ε α} {rest : α → Except ε β} (h : Gives value failure result)
    (hrest : ∀ a, value a → Gives next failure (rest a)) :
    Gives next failure (result >>= rest) := by
  cases result with
  | error cause => exact h
  | ok a => exact hrest a h

theorem Gives.map {result : Except ε α} {f : α → β} (h : Gives value failure result)
    (hf : ∀ a, value a → next (f a)) : Gives next failure (result.map f) := by
  cases result with
  | error cause => exact h
  | ok a => exact hf a h

end Results

/-- A failure that a line has by itself: any but that of a rule in a set of another name. -/
def ParseError.OfLine : ParseError → Prop
  | ruleNameMismatch _ _ => False
  | _ => True

/-- A failure that a field has by itself: it is malformed, or has too many digits. -/
def ParseError.OfField (cause : ParseError) : Prop :=
  cause.kind = .malformed ∨ cause = .numeralTooLong

theorem ParseError.OfField.ofLine {cause : ParseError} (h : cause.OfField) : cause.OfLine := by
  cases cause with
  | ruleNameMismatch rule ruleSet => exact h.elim nofun nofun
  | _ => exact trivial

theorem Gives.ofLine {α : Type} {value : α → Prop} {result : Except ParseError α}
    (h : Gives value ParseError.OfField result) : Gives value ParseError.OfLine result := by
  cases result with
  | error cause => exact ParseError.OfField.ofLine h
  | ok a => exact h

/-- The months and weekdays that there are; weekday 0 stands for any. -/
structure DateSpec.InCalendar (spec : DateSpec) : Prop where
  month : 1 ≤ spec.month ∧ spec.month ≤ 12
  weekday : 0 ≤ spec.weekday ∧ spec.weekday ≤ 7

structure Rule.Sound (rule : Rule) : Prop where
  years : rule.fromYear ≤ rule.toYear
  date : rule.date.InCalendar

def Era.Sound (era : Era) : Prop := ∀ cutover ∈ era.cutover, cutover.date.InCalendar

structure Zone.Sound (zone : Zone) : Prop where
  nonempty : zone.eras ≠ []
  eras : ∀ era ∈ zone.eras, era.Sound

/-! ## Months, weekdays and days -/

theorem bounds_of_nameIndex?_eq_some {names : List String} {text : String} {index : Int}
    (h : nameIndex? names text = some index) : 1 ≤ index ∧ index ≤ names.length := by
  obtain ⟨_, hplace, rfl⟩ := Option.map_eq_some_iff.mp h
  obtain ⟨i, hi, ⟨⟩⟩ := Option.bind_eq_some_iff.mp hplace
  obtain ⟨hlt, -⟩ := List.findIdx?_eq_some_iff_findIdx_eq.mp hi
  omega

theorem gives_parseMonth (text : String) :
    Gives (fun month => 1 ≤ month ∧ month ≤ 12) ParseError.OfField (parseMonth text) := by
  unfold parseMonth
  split
  · next index hindex => exact bounds_of_nameIndex?_eq_some hindex
  · exact .inl rfl

theorem gives_parseWeekday (text : String) :
    Gives (fun weekday => 0 ≤ weekday ∧ weekday ≤ 7) ParseError.OfField (parseWeekday text) := by
  unfold parseWeekday
  split
  · next index hindex =>
    obtain ⟨hfirst, hlast⟩ := bounds_of_nameIndex?_eq_some hindex
    exact ⟨by omega, hlast⟩
  · exact .inl rfl

theorem gives_dayNumber (digits : List Nat) :
    Gives (fun _ => True) ParseError.OfField (dayNumber digits) := by
  unfold dayNumber
  split
  · exact trivial
  · exact .inr rfl

theorem gives_parseJoined (text : String) (advance : Bool) (before after : List Char) :
    Gives (fun rule => 0 ≤ rule.weekday ∧ rule.weekday ≤ 7) ParseError.OfField
      (parseJoined text advance before after) := by
  unfold parseJoined
  split
  · exact .inl rfl
  · refine (gives_parseWeekday _).bind fun weekday hweekday => ?_
    exact (gives_dayNumber _).bind fun _ _ => hweekday

theorem gives_parseDay (text : String) :
    Gives (fun rule => 0 ≤ rule.weekday ∧ rule.weekday ≤ 7) ParseError.OfField (parseDay text) := by
  unfold parseDay
  split
  · have hany : (0 : Int) ≤ 0 ∧ (0 : Int) ≤ 7 := by decide
    exact (gives_dayNumber _).bind fun _ _ => hany
  · split
    · exact (gives_parseWeekday _).bind fun _ hweekday => hweekday
    · split
      · exact gives_parseJoined _ _ _ _
      · split
        · exact gives_parseJoined _ _ _ _
        · exact .inl rfl

/-! ## Times, years and dates -/

theorem TimeOfDay.gives_magnitude (text : String) (unsigned : List Char) :
    Gives (fun _ => True) ParseError.OfField (magnitude text unsigned) := by
  unfold magnitude
  split
  · exact .inl rfl
  · split
    · exact .inl rfl
    · split
      · exact .inr rfl
      · exact trivial

theorem TimeOfDay.gives_parse (text : String) :
    Gives (fun _ => True) ParseError.OfField (parse text) := by
  unfold parse
  split
  · exact (gives_magnitude _ _).map fun _ _ => trivial
  · exact gives_magnitude _ _

theorem gives_parseYear (text : String) (only : Int) :
    Gives (fun _ => True) ParseError.OfField (parseYear text only) := by
  unfold parseYear
  dsimp only
  split
  · exact trivial
  · split
    · exact trivial
    · split
      · exact trivial
      · split
        · exact trivial
        · exact .inl rfl

theorem DateSpec.gives_parse (fields : List String) :
    Gives InCalendar ParseError.OfField (parse fields) := by
  unfold parse
  split
  · exact ⟨by decide, by decide⟩
  · have hany : (0 : Int) ≤ 0 ∧ (0 : Int) ≤ 7 := by decide
    exact (gives_parseMonth _).bind fun _ hmonth => ⟨hmonth, hany⟩
  · refine (gives_parseMonth _).bind fun _ hmonth => ?_
    exact (gives_parseDay _).bind fun _ hday => ⟨hmonth, hday⟩
  · refine (gives_parseMonth _).bind fun _ hmonth => (gives_parseDay _).bind fun _ hday => ?_
    exact (TimeOfDay.gives_parse _).bind fun _ _ => ⟨hmonth, hday⟩
  · exact .inl rfl

/-! ## Rules and eras -/

theorem Rule.gives_parse (fields : List String) (line : String) :
    Gives Sound ParseError.OfLine (parse fields line) := by
  unfold parse
  split
  · refine (gives_parseYear _ _).ofLine.bind fun first _ => ?_
    refine (gives_parseYear _ _).ofLine.bind fun last _ => ?_
    split
    · exact trivial
    · next hyears =>
      refine (DateSpec.gives_parse _).ofLine.bind fun date hdate => ?_
      exact (TimeOfDay.gives_parse _).ofLine.bind fun _ _ => ⟨Int.not_lt.mp hyears, hdate⟩
  · exact trivial

theorem Savings.gives_parse (text : String) :
    Gives (fun _ => True) ParseError.OfLine (parse text) := by
  unfold parse
  split
  · exact trivial
  · split <;> exact trivial

theorem Cutover.gives_parse (year : String) (fields : List String) (line : String) :
    Gives (fun cutover => cutover.date.InCalendar) ParseError.OfLine (parse year fields line) := by
  unfold parse
  split
  · exact (DateSpec.gives_parse fields).ofLine.map fun _ hdate => hdate
  · exact trivial

theorem Era.gives_parse (fields : List String) (line : String) :
    Gives Sound ParseError.OfLine (parse fields line) := by
  unfold parse
  split
  · next offset savings format rest =>
    have hrest : ∀ cutover? : Option Cutover, (∀ cutover ∈ cutover?, cutover.date.InCalendar) →
        Gives Sound ParseError.OfLine (do
          let standardOffset ← TimeOfDay.parse offset
          let savings ← Savings.parse savings
          return (⟨standardOffset, savings, format, cutover?, line⟩ : Era)) := by
      intro cutover? hdate
      refine (TimeOfDay.gives_parse _).ofLine.bind fun _ _ => ?_
      exact (Savings.gives_parse _).bind fun _ _ => hdate
    cases rest with
    | nil => exact hrest none nofun
    | cons year date =>
      refine ((Cutover.gives_parse year date line).map fun cutover hdate => ?_).bind hrest
      rintro _ ⟨⟩
      exact hdate
  · exact trivial

end ZoneHistory
