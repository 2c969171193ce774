import ZoneHistory.Calendar

/-!
# Timestamps

An instant is shown as date and time of day in UTC, to the second, and to the microsecond when it
is not a whole second.
-/
namespace ZoneHistory.Calendar

/-- A number in at least `width` digits. -/
def padded (width : Nat) (n : Int) : String :=
  let digits := toString n
  String.ofList (List.replicate (width - digits.length) '0') ++ digits

def timestamp (millis : Int) : String :=
  let date := dateOfDay (millis / dayMillis)
  let rest := millis % dayMillis
  padded 4 date.year ++ "-" ++ padded 2 date.month ++ "-" ++ padded 2 date.day ++ "T" ++
    padded 2 (rest / 3600000) ++ ":" ++ padded 2 (rest / 60000 % 60) ++ ":" ++
    padded 2 (rest / 1000 % 60) ++
    (if rest % 1000 = 0 then "" else "." ++ padded 6 (rest % 1000 * 1000)) ++ "+00:00"

example : timestamp 341366400000 = "1980-10-26T00:00:00+00:00" := by decide +kernel

end ZoneHistory.Calendar
