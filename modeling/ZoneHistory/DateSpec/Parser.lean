import ZoneHistory.TimeOfDay
import ZoneHistory.Text.Lowercase

/-!
# Reading date specs

Months and weekdays are named in full or by their first three letters, in any case. A day is a
number, `last` and a weekday, or a weekday and a number joined by `>=` or `<=`. Fields that are left
out at the end take their values from the start of the year.
-/
namespace ZoneHistory

def monthNames : List String :=
  ["january", "february", "march", "april", "may", "june", "july", "august", "september",
   "october", "november", "december"]

def weekdayNames : List String :=
  ["monday", "tuesday", "wednesday", "thursday", "friday", "saturday", "sunday"]

/-- A lower-case name means itself and its first three letters. -/
def isNameOf (text name : String) : Bool :=
  text == name || text.toList == name.toList.take 3

/-- The place, from 1 on, of the name that a text stands for. -/
def nameIndex? (names : List String) (text : String) : Option Int :=
  (names.findIdx? (isNameOf (Text.lowercase text))).map fun i => (i : Int) + 1

def parseMonth (text : String) : Except ParseError Int :=
  match nameIndex? monthNames text with
  | some index => .ok index
  | none => .error (.invalidMonth text)

def parseWeekday (text : String) : Except ParseError Int :=
  match nameIndex? weekdayNames text with
  | some index => .ok index
  | none => .error (.invalidWeekday text)

/-- The day of the month, weekday and direction of a day field. -/
structure DayRule where
  day : Int
  weekday : Int
  advance : Bool
  deriving DecidableEq

/-- The texts around the first occurrence of the two characters. -/
def splitAtPair (first second : Char) : List Char → Option (List Char × List Char)
  | a :: b :: rest =>
    if a = first ∧ b = second then some ([], rest)
    else (splitAtPair first second (b :: rest)).map fun (before, after) => (a :: before, after)
  | _ => none

/-- The day number that a row of digits spells. -/
def dayNumber (digits : List Nat) : Except ParseError Int :=
  match Text.natural? digits with
  | some n => .ok n
  | none => .error .numeralTooLong

/-- A weekday and a day that are joined by an operator; `text` is the whole field. -/
def parseJoined (text : String) (advance : Bool) (before after : List Char) :
    Except ParseError DayRule :=
  match Text.digits? after with
  | none => .error (.invalidDay text)
  | some digits => do
    let weekday ← parseWeekday (String.ofList before)
    let day ← dayNumber digits
    return ⟨day, weekday, advance⟩

/-- The texts around an operator that something stands in front of. -/
def splitAtOperator (mark : Char) (text : List Char) : Option (List Char × List Char) :=
  (splitAtPair mark '=' text).filter fun parts => !parts.1.isEmpty

def parseDay (text : String) : Except ParseError DayRule :=
  match Text.digits? text.toList with
  | some digits => do
    let day ← dayNumber digits
    return ⟨day, 0, false⟩
  | none =>
    match text.toList with
    | 'l' :: 'a' :: 's' :: 't' :: name => do
      let weekday ← parseWeekday (String.ofList name)
      return ⟨-1, weekday, false⟩
    | chars =>
      match splitAtOperator '>' chars with
      | some (before, after) => parseJoined text true before after
      | none =>
        match splitAtOperator '<' chars with
        | some (before, after) => parseJoined text false before after
        | none => .error (.invalidDay text)

/-- The date spec that month, day and time fields stand for. -/
def DateSpec.parse : List String → Except ParseError DateSpec
  | [] => .ok startOfYear
  | [month] => do
    let month ← parseMonth month
    return ⟨month, 1, 0, false, 0, .wall⟩
  | [month, day] => do
    let month ← parseMonth month
    let rule ← parseDay day
    return ⟨month, rule.day, rule.weekday, rule.advance, 0, .wall⟩
  | [month, day, time] => do
    let month ← parseMonth month
    let rule ← parseDay day
    let millis ← TimeOfDay.parse time
    return ⟨month, rule.day, rule.weekday, rule.advance, millis, TimeOfDay.clock time⟩
  | fields => .error (.tooManyDateFields fields)

example : (parseDay "Sun>=8").toOption = some ⟨8, 7, true⟩ := by decide +kernel
example : (parseDay "lastSun").toOption = some ⟨-1, 7, false⟩ := by decide +kernel

end ZoneHistory
