import ZoneHistory.ParseError
import ZoneHistory.Text.Lowercase
import ZoneHistory.Text.Numeral

/-!
# Years and optional fields of a rule

A year is a number or a keyword for the first year, the last year or the only year. A hyphen stands
for a field that is not set.
-/
namespace ZoneHistory

/-- The year that `minimum` stands for. -/
def minYear : Int := -2147483648

/-- The year that `maximum` stands for. -/
def maxYear : Int := 2147483647

/-- The year that a field stands for; `only` stands for the given year. -/
def parseYear (text : String) (only : Int) : Except ParseError Int :=
  let lowered := Text.lowercase text
  if lowered ∈ ["minimum", "min"] then .ok minYear
  else if lowered ∈ ["maximum", "max"] then .ok maxYear
  else if lowered = "only" then .ok only
  else
    match Text.integer? lowered with
    | some year => .ok year
    | none => .error (.invalidYear lowered)

def parseOptional (text : String) : Option String :=
  if text = "-" then none else some text

end ZoneHistory
