import ZoneHistory.DateSpec.Parser

/-!
# Zones and their eras

A zone is a sequence of eras. Each has a standard offset, a way of adding savings to it, a format
for abbreviations, and, unless it lasts for ever, the local time at which it ends.
-/
namespace ZoneHistory

/-- What an era adds to its standard offset. -/
inductive Savings where
  | none
  | fixed (save : Int)
  | named (ruleSet : String)
  deriving DecidableEq

/-- A hyphen means none and a time means fixed savings; anything else names a rule set. -/
def Savings.parse (text : String) : Except ParseError Savings :=
  if text = "-" then .ok .none
  else
    match TimeOfDay.parse text with
    | .ok save => .ok (.fixed save)
    | .error .numeralTooLong => .error .numeralTooLong
    | .error _ => .ok (.named text)

/-- The end of an era. -/
structure Cutover where
  year : Int
  date : DateSpec
  deriving DecidableEq

structure Era where
  standardOffset : Int
  savings : Savings
  format : String
  /-- The era has no end if there is none. -/
  cutover : Option Cutover
  line : String
  deriving DecidableEq

/-- The end that year, month, day and time fields stand for. -/
def Cutover.parse (year : String) (fields : List String) (line : String) :
    Except ParseError Cutover :=
  match Text.integer? year with
  | some year => (DateSpec.parse fields).map (⟨year, ·⟩)
  | none => .error (.invalidUntilYear year line)

/-- The era that the fields from the offset on stand for. -/
def Era.parse (fields : List String) (line : String) : Except ParseError Era :=
  match fields with
  | offset :: savings :: format :: rest => do
    let cutover ← match rest with
      | [] => pure Option.none
      | year :: date => (Cutover.parse year date line).map some
    let standardOffset ← TimeOfDay.parse offset
    let savings ← Savings.parse savings
    return ⟨standardOffset, savings, format, cutover, line⟩
  | _ => .error (.eraFieldCount fields.length line)

structure Zone where
  name : String
  eras : List Era
  deriving DecidableEq

/-- The name and the number of eras of a zone. -/
def Zone.describe (zone : Zone) : String :=
  "Zone(" ++ Text.quoted zone.name ++ s!", eras={zone.eras.length})"

/-- The zone with one more era. -/
def Zone.chain (zone : Zone) (era : Era) : Zone := { zone with eras := zone.eras ++ [era] }

end ZoneHistory
