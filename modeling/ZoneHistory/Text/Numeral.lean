import ZoneHistory.Text.Blank
import ZoneHistory.Text.DecimalDigit

/-!
# Decimal numerals

The value of a row of digits, and integers as people type them: blanks around, a sign, single
underscores between digits. A numeral of more than `maxDigits` digits has no value here, however
many of them are leading zeros, and an integer that would need more of them is not shown.
-/
namespace ZoneHistory.Text

/-- The most digits of a numeral that is read or shown. -/
def maxDigits : Nat := 4300

/-- The number a row of digit values stands for. -/
def positional (digits : List Nat) : Nat :=
  digits.foldl (fun value digit => 10 * value + digit) 0

/-- The number a row of digits stands for, unless there are too many of them. -/
def natural? (digits : List Nat) : Option Nat :=
  if digits.length ≤ maxDigits then some (positional digits) else none

/-- The leading digits, and what follows them. -/
def spanDigits : List Char → List Nat × List Char
  | [] => ([], [])
  | c :: rest =>
    match digit? c with
    | some d => (d :: (spanDigits rest).1, (spanDigits rest).2)
    | none => ([], c :: rest)

/-- The digits of a text that consists of digits, at least one. -/
def digits? (text : List Char) : Option (List Nat) :=
  match spanDigits text with
  | (d :: ds, []) => some (d :: ds)
  | _ => none

/-- Digits that follow a digit, an underscore allowed before each. -/
def groupedRest : List Char → Option (List Nat)
  | [] => some []
  | '_' :: c :: rest => do
    let d ← digit? c
    let ds ← groupedRest rest
    some (d :: ds)
  | c :: rest => do
    let d ← digit? c
    let ds ← groupedRest rest
    some (d :: ds)

/-- The digits of a numeral that may have underscores between its digits. -/
def grouped? : List Char → Option (List Nat)
  | [] => none
  | c :: rest => do
    let d ← digit? c
    let ds ← groupedRest rest
    some (d :: ds)

/-- The blanks that may surround an integer: the separator controls are not among them. -/
def isPadding (c : Char) : Bool :=
  isBlank c && !(0x1c ≤ c.toNat && c.toNat ≤ 0x1f)

def trimPadding (text : List Char) : List Char :=
  ((text.dropWhile isPadding).reverse.dropWhile isPadding).reverse

/-- The integer that a text spells. -/
def integer? (text : String) : Option Int :=
  match trimPadding text.toList with
  | '-' :: rest => do
    let ds ← grouped? rest
    let n ← natural? ds
    some (-(n : Int))
  | '+' :: rest => do
    let ds ← grouped? rest
    let n ← natural? ds
    some (n : Int)
  | rest => do
    let ds ← grouped? rest
    let n ← natural? ds
    some (n : Int)

/-- The numeral of an integer, unless it is too long. -/
def numeral? (n : Int) : Option String :=
  if n.natAbs < Nat.pow 10 maxDigits then some (toString n) else none

example : integer? " -1_000 " = some (-1000) := by decide +kernel
example : integer? "1__0" = none := by decide +kernel

end ZoneHistory.Text
