import ZoneHistory.Comments
import ZoneHistory.Session
import ZoneHistory.Verification
import ZoneHistory.Zone.Feed

/-!
# Compiling a session

Each zone is put on a timeline of its own and its history is verified; zones that name an unknown
rule set or fail verification are removed. Links are resolved in two scans, each of which sees the
names that were known before it, so that a link may lead to a zone directly or by one other link.
-/
namespace ZoneHistory

/-- Why a zone is removed. -/
inductive ZoneFault where
  | unknownRuleSet (cause : UnknownRuleSet)
  | unverified (cause : VerificationError)
  deriving DecidableEq

def ZoneFault.message : ZoneFault → String
  | unknownRuleSet cause => cause.message
  | unverified cause => cause.message

/-- The timeline of a zone, unless it names an unknown rule set. -/
def Zone.timeline (zone : Zone) (ruleSets : Keyed RuleSet) (lastYear : Int) :
    Except UnknownRuleSet Timeline :=
  let feed := zone.feed ruleSets
  match feed.failure with
  | some cause => .error cause
  | none => .ok (.build lastYear feed.instructions)

/-- The timeline and the verified history of a zone. -/
def Zone.compile (zone : Zone) (ruleSets : Keyed RuleSet) (lastYear : Int) :
    Except ZoneFault (Timeline × History) := do
  let timeline ← (zone.timeline ruleSets lastYear).mapError .unknownRuleSet
  let history := timeline.toHistory zone.name
  (history.verify zone.name).mapError .unverified
  return (timeline, history)

structure Compilation where
  /-- The histories of the zones, by name. -/
  zones : Keyed History
  /-- The timelines of the same zones, in the order in which they were compiled. -/
  timelines : Keyed Timeline
  /-- The histories that all names denote, by name. -/
  names : Keyed History
  /-- The zone that each resolved link denotes, by alias. -/
  links : Keyed String
  removedZones : Comments
  removedLinks : Comments
  notableZones : Comments

/-- The zones compiled so far. -/
structure ZoneTable where
  histories : Keyed History
  timelines : Keyed Timeline
  removed : Comments
  notices : List Notice

namespace ZoneTable

def empty : ZoneTable := ⟨.empty, .empty, .none, []⟩

def noting (table : ZoneTable) (notices : List Notice) : ZoneTable :=
  { table with notices := table.notices ++ notices }

/-- Compile one more zone; it replaces an earlier one of its name. -/
def add (ruleSets : Keyed RuleSet) (lastYear : Int) (table : ZoneTable) (zone : Zone) : ZoneTable :=
  let table := table.noting (zone.feed ruleSets).notices
  match zone.compile ruleSets lastYear with
  | .error fault =>
    { table with removed := table.removed.add zone.name fault.message }.noting
      [.zoneRejected fault.message]
  | .ok (timeline, history) =>
    { table with
      histories := table.histories.put zone.name history
      timelines := table.timelines.put zone.name timeline }.noting
      (if table.histories.contains zone.name then [.zoneReplaced zone.name] else [])

end ZoneTable

def compileZones (session : Session) (lastYear : Int) : ZoneTable :=
  session.zones.foldl (ZoneTable.add session.ruleSets lastYear) .empty

/-- The aliases of the links whose targets are known, with what these denote. -/
def scanLinks (known : Keyed History) (links : List Link) : Keyed History :=
  links.foldl
    (fun found link =>
      match known.find? link.target with
      | some history => found.put link.alias history
      | none => found)
    .empty

/-- The links whose targets are not known. -/
def unresolvedLinks (known : Keyed History) (links : List Link) : List Link :=
  links.filter fun link => !known.contains link.target

/-- The names known after one scan. -/
def resolveOnce (known : Keyed History) (links : List Link) : Keyed History :=
  known.putAll (scanLinks known links)

/-- The reason for which an unresolved link is removed. -/
def Link.removalReason (link : Link) : String :=
  s!"Cannot find time zone '{link.target}'"

/-- The known aliases of the links, in order, with the zones they denote. -/
def linkTable (known : Keyed History) (links : List Link) : Keyed String :=
  .ofList <| (links.mergeSort fun a b => decide (¬ b.alias < a.alias)).filterMap fun link =>
    (known.find? link.alias).map fun history => (link.alias, history.zone)

/-- Compile all zones of a session and resolve its links. -/
def compile (session : Session) (lastYear : Int) : Compilation × List Notice :=
  let table := compileZones session lastYear
  let zones := table.histories.sorted
  let once := resolveOnce zones session.links
  let twice := resolveOnce once session.links
  let unresolved := unresolvedLinks once session.links
  ({ zones
     timelines := table.timelines
     names := twice.sorted
     links := linkTable twice session.links
     removedZones := table.removed
     removedLinks := unresolved.foldl (fun c l => c.add l.alias l.removalReason) .none
     notableZones := .none },
    table.notices ++ unresolved.map fun l => .linkUnresolved l.target l.alias)

namespace Compilation

/-- The counts of what was compiled and removed, and the first and last comments. -/
def summaryNotices (c : Compilation) : List Notice :=
  [.zonesSummary c.zones.size c.removedZones.size c.notableZones.size,
    .linksSummary c.links.size c.removedLinks.size] ++
  c.removedZones.notices (fun count => s!"Removed {count} zones") Comments.defaultMost ++
  c.removedLinks.notices (fun count => s!"Removed {count} links") Comments.defaultMost ++
  c.notableZones.notices (fun count => s!"Noted {count} zones") Comments.defaultMost

end Compilation

end ZoneHistory
