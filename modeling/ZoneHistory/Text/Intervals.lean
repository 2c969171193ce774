/-!
# Sets of characters

A set of characters is a list of closed intervals of code points.
-/
namespace ZoneHistory.Text

/-- Closed intervals of code points. -/
abbrev Intervals := List (Nat × Nat)

namespace Intervals

/-- The first interval that holds the character. -/
def find? (s : Intervals) (c : Char) : Option (Nat × Nat) :=
  List.find? (fun r => r.1 ≤ c.toNat && c.toNat ≤ r.2) s

def has (s : Intervals) (c : Char) : Bool := (s.find? c).isSome

end Intervals

end ZoneHistory.Text
