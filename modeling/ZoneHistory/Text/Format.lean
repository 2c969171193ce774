/-!
# Formats of a number

A format is a text in which directives stand for a number. A directive begins with a percent sign;
flags, a width, a precision and a letter without meaning may follow, and the last letter says how
the number is shown. A star takes the number itself for a width or a precision, and two percent
signs stand for one. `fill` reads a format from left to right; the number has to be used exactly
once.
-/
namespace ZoneHistory.Text.Format

inductive FormatError where
  /-- The format ends within a directive. -/
  | incomplete
  | unknownLetter (letter : Char) (index : Nat)
  | numberUsedUp
  | numberUnused
  /-- The directive asks for a number by name. -/
  | named
  | widthTooGreat
  | precisionTooGreat
  deriving DecidableEq

/-- A letter as it is shown in a message. -/
def shownLetter (letter : Char) : Char :=
  if 31 ≤ letter.toNat && letter.toNat ≤ 126 then letter else '?'

def FormatError.message : FormatError → String
  | incomplete => "incomplete format"
  | unknownLetter letter index =>
    s!"unsupported format character '{shownLetter letter}' " ++
      s!"(0x{String.ofList (Nat.toDigits 16 letter.toNat)}) at index {index}"
  | numberUsedUp => "not enough arguments for format string"
  | numberUnused => "not all arguments converted during string formatting"
  | named => "format requires a mapping"
  | widthTooGreat => "width too big"
  | precisionTooGreat => "precision too big"

/-- What stands before the last letter of a directive. -/
structure Layout where
  leftAligned : Bool := false
  plusSign : Bool := false
  blankSign : Bool := false
  /-- Show the base of octal and hexadecimal numbers, and all digits of the other forms. -/
  full : Bool := false
  zeroFilled : Bool := false
  width : Option Nat := none
  precision : Option Nat := none
  deriving DecidableEq

namespace Layout

/-- Blanks up to the width. -/
def pad (layout : Layout) (text : List Char) : List Char :=
  let filling := List.replicate (layout.width.getD 0 - text.length) ' '
  if layout.leftAligned then text ++ filling else filling ++ text

def sign (layout : Layout) : List Char :=
  if layout.plusSign then ['+'] else if layout.blankSign then [' '] else []

/-- A number with its sign and a mark of its base; zeros may fill up the width behind these. -/
def padNumber (layout : Layout) (base digits : List Char) : List Char :=
  let leading := layout.sign ++ base
  if layout.zeroFilled && !layout.leftAligned then
    leading ++ List.replicate (layout.width.getD 0 - (leading.length + digits.length)) '0' ++ digits
  else layout.pad (leading ++ digits)

end Layout

/-- The digits of a number, led by zeros up to the given length. -/
def digitsOf (base least number : Nat) : List Char :=
  let digits := Nat.toDigits base number
  List.replicate (least - digits.length) '0' ++ digits

/-- The fractional part of a number that has none, with the given number of places. -/
def emptyFraction (full : Bool) (places : Nat) : List Char :=
  if places = 0 && !full then [] else '.' :: List.replicate places '0'

/-- The quotient to the nearest integer; a tie goes to the even one. -/
def roundedQuotient (number divisor : Nat) : Nat :=
  let quotient := number / divisor
  let twice := 2 * (number % divisor)
  if divisor < twice || (twice = divisor && quotient % 2 = 1) then quotient + 1 else quotient

/-- The leading digits of a number, rounded to the given count, and the exponent of the first. -/
def significant (count number : Nat) : List Char × Nat :=
  let digits := Nat.toDigits 10 number
  if digits.length ≤ count then
    (digits ++ List.replicate (count - digits.length) '0', digits.length - 1)
  else
    let rounded := Nat.toDigits 10 (roundedQuotient number (Nat.pow 10 (digits.length - count)))
    (rounded.take count, digits.length - 1 + (rounded.length - count))

/-- One digit, a point, the other digits, and the exponent. -/
def scientific (upper full : Bool) (digits : List Char) (exponent : Nat) : List Char :=
  let others := digits.drop 1
  digits.take 1 ++ (if others.isEmpty && !full then [] else '.' :: others) ++
    (if upper then 'E' else 'e') :: '+' :: digitsOf 10 2 exponent

def withoutFinalZeros (digits : List Char) : List Char :=
  (digits.reverse.dropWhile (· = '0')).reverse

/-- The number with at most `count` digits, with an exponent where it has more. -/
def general (upper full : Bool) (count number : Nat) : List Char :=
  let (digits, exponent) := significant count number
  if exponent < count then
    Nat.toDigits 10 number ++ (if full then emptyFraction true (count - 1 - exponent) else [])
  else if full then scientific upper true digits exponent
  else scientific upper false (digits.take 1 ++ withoutFinalZeros (digits.drop 1)) exponent

/-- The number as a directive with the given last letter shows it, if there is such a letter. -/
def show? (layout : Layout) (letter : Char) (number : Nat) : Option (List Char) :=
  let inBase (base : Nat) (mark : List Char) (change : Char → Char) :=
    some (layout.padNumber (if layout.full then mark else [])
      ((digitsOf base (layout.precision.getD 0) number).map change))
  let decimal (digits : List Char) := some (layout.padNumber [] digits)
  let places := layout.precision.getD 6
  let inSteps (upper : Bool) :=
    let (digits, exponent) := significant (places + 1) number
    decimal (scientific upper layout.full digits exponent)
  match letter with
  | 's' | 'r' | 'a' =>
    let digits := Nat.toDigits 10 number
    some (layout.pad (digits.take (layout.precision.getD digits.length)))
  | 'c' => some (layout.pad [Char.ofNat number])
  | 'd' | 'i' | 'u' => inBase 10 [] id
  | 'o' => inBase 8 ['0', 'o'] id
  | 'x' => inBase 16 ['0', 'x'] id
  | 'X' => inBase 16 ['0', 'X'] Char.toUpper
  | 'e' => inSteps false
  | 'E' => inSteps true
  | 'f' | 'F' => decimal (Nat.toDigits 10 number ++ emptyFraction layout.full places)
  | 'g' => decimal (general false layout.full (max places 1) number)
  | 'G' => decimal (general true layout.full (max places 1) number)
  | _ => none

/-- Where a reader of a format stands. -/
inductive Place where
  | outside
  /-- Behind a percent sign. -/
  | start
  | flags (layout : Layout)
  | width (layout : Layout)
  | behindWidth (layout : Layout)
  /-- Behind the point that leads a precision. -/
  | point (layout : Layout)
  | precision (layout : Layout)
  | behindPrecision (layout : Layout)
  /-- Behind the letter without meaning. -/
  | behindLetter (layout : Layout)
  deriving DecidableEq

/-- What has been read of a format. -/
structure Progress where
  place : Place := .outside
  /-- What is shown so far, last character first. -/
  shown : List Char := []
  /-- Whether the number has been used. -/
  used : Bool := false
  index : Nat := 0

namespace Progress

def go (p : Progress) (place : Place) : Except FormatError Progress := .ok { p with place }

/-- Use the number. -/
def use (p : Progress) : Except FormatError Progress :=
  if p.used then .error .numberUsedUp else .ok { p with used := true }

/-- The last letter of a directive. -/
def close (p : Progress) (number : Nat) (layout : Layout) (letter : Char) :
    Except FormatError Progress := do
  let p ← p.use
  match show? layout letter number with
  | some text => .ok { p with place := .outside, shown := text.reverse ++ p.shown }
  | none => .error (.unknownLetter letter p.index)

/-- The letter without meaning, or the last letter of a directive. -/
def atLetter (p : Progress) (number : Nat) (layout : Layout) (c : Char) :
    Except FormatError Progress :=
  if c = 'h' || c = 'l' || c = 'L' then p.go (.behindLetter layout) else p.close number layout c

/-- A precision, or what may stand there instead. -/
def atPoint (p : Progress) (number : Nat) (layout : Layout) (c : Char) :
    Except FormatError Progress :=
  if c = '.' then p.go (.point { layout with precision := some 0 }) else p.atLetter number layout c

/-- One more digit of a width or a precision, unless it becomes too great. -/
def extend (limit : Nat) (refusal : FormatError) (number : Option Nat) (digit : Char) :
    Except FormatError Nat :=
  let extended := 10 * number.getD 0 + (digit.toNat - 48)
  if limit < extended then .error refusal else .ok extended

def extendWidth (p : Progress) (layout : Layout) (c : Char) : Except FormatError Progress := do
  let width ← extend 9223372036854775807 .widthTooGreat layout.width c
  p.go (.width { layout with width := some width })

def extendPrecision (p : Progress) (layout : Layout) (c : Char) : Except FormatError Progress := do
  let precision ← extend 2147483647 .precisionTooGreat layout.precision c
  p.go (.precision { layout with precision := some precision })

/-- A flag, or what may stand behind the flags. -/
def atFlags (p : Progress) (number : Nat) (layout : Layout) (c : Char) :
    Except FormatError Progress :=
  match c with
  | '-' => p.go (.flags { layout with leftAligned := true })
  | '+' => p.go (.flags { layout with plusSign := true })
  | ' ' => p.go (.flags { layout with blankSign := true })
  | '#' => p.go (.flags { layout with full := true })
  | '0' => p.go (.flags { layout with zeroFilled := true })
  | '*' => do (← p.use).go (.behindWidth { layout with width := some number })
  | _ => if c.isDigit then p.extendWidth layout c else p.atPoint number layout c

def step (number : Nat) (p : Progress) (c : Char) : Except FormatError Progress := do
  let next ← match p.place with
    | .outside =>
      if c = '%' then p.go .start else .ok { p with shown := c :: p.shown }
    | .start =>
      if c = '%' then .ok { p with place := .outside, shown := '%' :: p.shown }
      else if c = '(' then .error .named
      else p.atFlags number {} c
    | .flags layout => p.atFlags number layout c
    | .width layout => if c.isDigit then p.extendWidth layout c else p.atPoint number layout c
    | .behindWidth layout => p.atPoint number layout c
    | .point layout =>
      if c = '*' then do
        (← p.use).go (.behindPrecision { layout with precision := some number })
      else if c.isDigit then p.extendPrecision layout c
      else p.atLetter number layout c
    | .precision layout =>
      if c.isDigit then p.extendPrecision layout c else p.atLetter number layout c
    | .behindPrecision layout => p.atLetter number layout c
    | .behindLetter layout => p.close number layout c
  return { next with index := p.index + 1 }

end Progress

/-- The format with the number in the place of its directive. -/
def fill (format : String) (number : Nat) : Except FormatError String := do
  let p ← format.toList.foldlM (Progress.step number) {}
  if p.place ≠ .outside then throw .incomplete
  if !p.used then throw .numberUnused
  return String.ofList p.shown.reverse

example : (fill "[%5s] 100%%" 12).toOption = some "[   12] 100%" := by decide +kernel
example : (fill "%+05d" 12).toOption = some "+0012" := by decide +kernel
example : (fill "%#x" 255).toOption = some "0xff" := by decide +kernel
example : (fill "none" 12).toOption = none := by decide +kernel

end ZoneHistory.Text.Format
