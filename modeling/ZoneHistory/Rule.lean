import ZoneHistory.Abbreviation
import ZoneHistory.DateSpec.Parser
import ZoneHistory.Years

/-!
# Rules

A rule says that in each year of a span the savings change at a given time of the year. The rules of
one name, in the order in which they were read, are a rule set.
-/
namespace ZoneHistory

structure Rule where
  name : String
  fromYear : Int
  toYear : Int
  kind : Option String
  date : DateSpec
  /-- Milliseconds added to standard time. -/
  save : Int
  letter : Option String
  line : String
  deriving DecidableEq

namespace Rule

/-- The rule that the fields after the keyword stand for; `line` is kept for messages. -/
def parse (fields : List String) (line : String) : Except ParseError Rule :=
  match fields with
  | [name, first, last, kind, month, day, time, save, letter] => do
    let fromYear ← parseYear first 0
    let toYear ← parseYear last fromYear
    if toYear < fromYear then throw (.yearsReversed name toYear fromYear line)
    let date ← DateSpec.parse [month, day, time]
    let save ← TimeOfDay.parse save
    return ⟨name, fromYear, toYear, parseOptional kind, date, save, parseOptional letter, line⟩
  | _ => .error (.ruleFieldCount fields.length line)

/-- The abbreviation of an era of the given format under the rule. -/
def abbreviation (rule : Rule) (format : String) : String :=
  Abbreviation.underRule format rule.save rule.letter

end Rule

structure RuleSet where
  name : String
  rules : List Rule
  deriving DecidableEq

namespace RuleSet

def single (rule : Rule) : RuleSet := ⟨rule.name, [rule]⟩

def add (set : RuleSet) (rule : Rule) : Except ParseError RuleSet :=
  if rule.name = set.name then .ok { set with rules := set.rules ++ [rule] }
  else .error (.ruleNameMismatch rule.name set.name)

end RuleSet

end ZoneHistory
