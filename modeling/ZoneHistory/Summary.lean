import ZoneHistory.Compilation
import ZoneHistory.Text.Json

/-!
# Summaries

A summary describes a compilation: what was read, what came of it, and what was removed and why. It
is written as a JSON object.
-/
namespace ZoneHistory

/-- What a compilation was asked for and what came of it; an option left blank has no value. -/
structure Summary where
  version : Option String
  files : List String
  lastYear : Option Int
  zoneCount : Nat
  linkCount : Nat
  ruleSetCount : Nat
  zones : List String
  links : List (String × String)
  transitionCounts : List (String × Nat)
  removedZones : List (String × List String)
  removedLinks : List (String × List String)
  notableZones : List (String × List String)
  deriving DecidableEq

namespace Summary

def ofCompilation (version : Option String) (lastYear : Option Int) (session : Session)
    (c : Compilation) : Summary where
  version := version
  files := session.files
  lastYear := lastYear
  zoneCount := c.zones.size
  linkCount := c.links.size
  ruleSetCount := session.ruleSets.size
  zones := c.zones.keys
  links := c.links.entries
  transitionCounts := c.zones.entries.map fun entry => (entry.1, entry.2.transitions.size)
  removedZones := c.removedZones.sorted.entries
  removedLinks := c.removedLinks.sorted.entries
  notableZones := c.notableZones.sorted.entries

open Text.Json in
/-- A member that holds comments. -/
def commentsText (comments : List (String × List String)) : String :=
  object 1 (comments.map fun entry => (entry.1, array 2 (entry.2.map string)))

open Text.Json in
def render (s : Summary) : String :=
  object 0
    [("tz_version", (s.version.map string).getD (array 1 [])),
     ("tz_files", array 1 (s.files.map string)),
     ("max_year", (s.lastYear.map toString).getD (array 1 [])),
     ("num_zones", toString s.zoneCount),
     ("num_links", toString s.linkCount),
     ("num_rule_sets", toString s.ruleSetCount),
     ("zone_ids", array 1 (s.zones.map string)),
     ("links_map", object 1 (s.links.map fun entry => (entry.1, string entry.2))),
     ("transition_counts",
       object 1 (s.transitionCounts.map fun entry => (entry.1, toString entry.2))),
     ("removed_zones", commentsText s.removedZones),
     ("removed_links", commentsText s.removedLinks),
     ("notable_zones", commentsText s.notableZones)] ++ "\n"

end Summary

/-- A member of a set: a truth value counts as the number one or zero. -/
inductive Member where
  | flag (value : Bool)
  | number (value : Int)
  | text (value : String)
  deriving DecidableEq

namespace Member

/-- Numbers by value, texts by code points, and texts last. -/
def le : Member → Member → Bool
  | text a, text b => ¬ b < a
  | text _, _ => false
  | _, text _ => true
  | flag a, flag b => a ≤ b
  | flag a, number b => (if a then 1 else 0) ≤ b
  | number a, flag b => a ≤ if b then 1 else 0
  | number a, number b => a ≤ b

end Member

/-- A value that a writer of summaries may be handed. -/
inductive SummaryValue where
  /-- A set of numbers or of texts, in the order in which its members came. -/
  | set (members : List Member)
  /-- A value that is no set, by the name of its kind. -/
  | other (kind : String)

/-- A set is written as the ordered list of its members, of which equal ones are written once, as
the first that came; nothing else is written. -/
def SummaryValue.write : SummaryValue → Except String (List Member)
  | set members =>
    .ok ((members.mergeSort Member.le).eraseRepsBy fun a b => Member.le a b && Member.le b a)
  | other kind => .error s!"Type <class '{kind}'> is not serializable"

end ZoneHistory
