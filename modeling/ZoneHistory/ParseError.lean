import ZoneHistory.Text.Quoted

/-!
# Failures of reading

What can be wrong with a field or a record of a source, and where it stood. A numeral that is too
long to be read is reported without a place and without a text.
-/
namespace ZoneHistory

inductive ParseError where
  | invalidMonth (text : String)
  | invalidWeekday (text : String)
  | invalidYear (text : String)
  | invalidTime (text : String)
  | invalidDay (text : String)
  | tooManyDateFields (fields : List String)
  | ruleFieldCount (count : Nat) (line : String)
  | eraFieldCount (count : Nat) (line : String)
  | invalidUntilYear (text line : String)
  | missingZoneName (line : String)
  | missingLinkField (line : String)
  | yearsReversed (rule : String) (toYear fromYear : Int) (line : String)
  | ruleNameMismatch (rule ruleSet : String)
  | numeralTooLong
  deriving DecidableEq

/-- A field that is malformed, records that do not fit together, or a numeral beyond the limit. -/
inductive ParseError.Kind where
  | malformed
  | inconsistent
  | numeral
  deriving DecidableEq

namespace ParseError

def kind : ParseError → Kind
  | yearsReversed .. | ruleNameMismatch .. => .inconsistent
  | numeralTooLong => .numeral
  | _ => .malformed

/-- The text of a failure; there is none for a numeral that is too long. -/
def message? : ParseError → Option String
  | invalidMonth text => some s!"Invalid month \"{text}\""
  | invalidWeekday text => some s!"Invalid weekday \"{text}\""
  | invalidYear text => some s!"Invalid year \"{text}\""
  | invalidTime text => some s!"Invalid time \"{text}\""
  | invalidDay text => some s!"Invalid day spec \"{text}\""
  | tooManyDateFields fields => some ("Too many date fields " ++ Text.quotedList fields)
  | ruleFieldCount count line =>
    some s!"Expected 9 fields after \"Rule\" but got {count}: {line}"
  | eraFieldCount count line => some s!"Expected at least 3 zone fields but got {count}: {line}"
  | invalidUntilYear text line => some s!"Invalid UNTIL year \"{text}\": {line}"
  | missingZoneName line => some s!"Missing zone name: {line}"
  | missingLinkField line => some s!"Missing link target or name: {line}"
  | yearsReversed rule toYear fromYear line =>
    some s!"Rule {rule}: TO year {toYear} is before FROM year {fromYear}: {line}"
  | ruleNameMismatch rule ruleSet =>
    some s!"Rule name mismatch: \"{rule}\" added to RuleSet \"{ruleSet}\""
  | numeralTooLong => none

end ParseError

/-- A failure in a source of several lines. -/
inductive SourceError where
  | located (source : String) (line : Nat) (cause : ParseError)
  | numeralTooLong
  deriving DecidableEq

/-- A failure of the given line of a source. -/
def ParseError.locate (source : String) (line : Nat) : ParseError → SourceError
  | .numeralTooLong => .numeralTooLong
  | cause => .located source line cause

namespace SourceError

def kind : SourceError → ParseError.Kind
  | located _ _ cause => cause.kind
  | numeralTooLong => .numeral

def message? : SourceError → Option String
  | located source line cause => cause.message?.map fun text => s!"{source}:{line}: {text}"
  | numeralTooLong => none

end SourceError

end ZoneHistory
