import ZoneHistory.DateSpec
import ZoneHistory.ParseError
import ZoneHistory.Text.Numeral

/-!
# Times of day

A time is written `H[:MM[:SS[.fff]]]`, with a minus sign in front if it is negative and at most one
letter behind that names the clock it is read on. The hours are not bounded by a day.
-/
namespace ZoneHistory.TimeOfDay

/-- The digit groups of a written time; a group that is not written is empty. -/
structure Groups where
  hours : List Nat
  minutes : List Nat := []
  seconds : List Nat := []
  fraction : List Nat := []
  deriving DecidableEq

/-- One to `most` digits after a mark; without the mark there are no digits, and the text stays. -/
def groupAfter (mark : Char) (most : Nat) : List Char → Option (List Nat × List Char)
  | [] => some ([], [])
  | c :: rest =>
    if c = mark then
      let (digits, rest') := Text.spanDigits rest
      if 1 ≤ digits.length ∧ digits.length ≤ most then some (digits, rest') else none
    else some ([], c :: rest)

def isAsciiLetter (c : Char) : Bool :=
  ('a' ≤ c && c ≤ 'z') || ('A' ≤ c && c ≤ 'Z')

/-- What may follow the digits: a letter or nothing, then a line feed or nothing. -/
def endsWell : List Char → Bool
  | [] => true
  | [c] => c == '\n' || isAsciiLetter c
  | [c, lineFeed] => isAsciiLetter c && lineFeed == '\n'
  | _ => false

/-- The digit groups of a time without its sign. -/
def groups? (text : List Char) : Option Groups := do
  let (hours, rest) := Text.spanDigits text
  if hours.isEmpty then none
  let (minutes, rest) ← groupAfter ':' 2 rest
  let (seconds, rest) ← if minutes.isEmpty then some ([], rest) else groupAfter ':' 2 rest
  let (fraction, rest) ← if seconds.isEmpty then some ([], rest) else groupAfter '.' 3 rest
  if endsWell rest then some ⟨hours, minutes, seconds, fraction⟩ else none

/-- The milliseconds of a decimal fraction of a second. -/
def fractionMillis (digits : List Nat) : Nat :=
  if digits.isEmpty then 0
  else Text.positional (digits ++ List.replicate (3 - digits.length) 0)

/-- The milliseconds of hours and digit groups. -/
def Groups.millis (g : Groups) (hours : Nat) : Int :=
  hours * 3600000 + (Text.positional g.minutes) * 60000 + (Text.positional g.seconds) * 1000 +
    fractionMillis g.fraction

/-- The value of a time without its sign; `text` is the whole field, for the failure. -/
def magnitude (text : String) (unsigned : List Char) : Except ParseError Int :=
  match groups? unsigned with
  | none => .error (.invalidTime text)
  | some g =>
    if 59 < Text.positional g.minutes ∨ 59 < Text.positional g.seconds then
      .error (.invalidTime text)
    else
      match Text.natural? g.hours with
      | none => .error .numeralTooLong
      | some hours => .ok (g.millis hours)

/-- The signed milliseconds that a time stands for. -/
def parse (text : String) : Except ParseError Int :=
  match text.toList with
  | '-' :: unsigned => (magnitude text unsigned).map (- ·)
  | unsigned => magnitude text unsigned

/-- The clock that the last character of a time names. -/
def clock (text : String) : Clock :=
  match text.toList.getLast? with
  | some c =>
    if c = 's' ∨ c = 'S' then .standard
    else if c ∈ ['u', 'U', 'g', 'G', 'z', 'Z'] then .universal
    else .wall
  | none => .wall

example : (parse "-2:05:06.5s").toOption = some (-7506500) := by decide +kernel
example : (parse "2:05.5").toOption = none := by decide +kernel

end ZoneHistory.TimeOfDay
