import ZoneHistory.Text.Quoted

/-!
# Notices

What is reported while sources are read, zones are compiled and files are written, as data. Each
notice has a level and a text.
-/
namespace ZoneHistory

inductive Level where
  | debug
  | info
  | warning
  | error
  deriving DecidableEq

def Level.name : Level → String
  | debug => "DEBUG"
  | info => "INFO"
  | warning => "WARNING"
  | error => "ERROR"

inductive Notice where
  | reading (file : String)
  | skippingMissing (file : String)
  | strayContinuation (source : String) (lineNumber : Nat) (line : String)
  | unknownLine (line : String)
  | sessionSize (rules ruleSets zones eras links : Nat)
  | erasIgnored (zone : String) (count : Nat)
  | zoneRejected (reason : String)
  | zoneReplaced (zone : String)
  | linkUnresolved (target name : String)
  | writingZone (zone : String)
  | readBackDiffers (zone : String)
  | created (file : String)
  | aliasIndexSize (strings mappings : Nat)
  | aliasReplaced (name earlier : String)
  | zonesSummary (compiled removed noted : Nat)
  | linksSummary (resolved removed : Nat)
  /-- What the comments that follow are, and how many there are. -/
  | commentHeading (text : String)
  | comment (name : String) (reasons : List String)
  | commentsOmitted
  | summaryCreated (file : String) (zones links : Nat)
  /-- A stage of a run begins or ends. -/
  | stage (title : String)
  /-- A setting of a run. -/
  | setting (name value : String)
  deriving DecidableEq, Inhabited

namespace Notice

def level : Notice → Level
  | writingZone _ => .debug
  | skippingMissing _ | strayContinuation .. | unknownLine _ | erasIgnored .. | zoneReplaced _
  | linkUnresolved .. | aliasReplaced .. => .warning
  | zoneRejected _ | readBackDiffers _ => .error
  | _ => .info

def text : Notice → String
  | reading file => s!"Processing {file}"
  | skippingMissing file => s!"Skipping missing file {file}"
  | strayContinuation source lineNumber line =>
    s!"{source}:{lineNumber}: Continuation line without Zone: {line}"
  | unknownLine line => s!"Unknown line: {line}"
  | sessionSize rules ruleSets zones eras links =>
    s!"Summary: Rules: {rules} in {ruleSets} rule sets; Zones: {zones} with {eras} eras; " ++
      s!"Links: {links}"
  | erasIgnored zone count => s!"{zone}: Ignoring {count} era(s) after the era without UNTIL"
  | zoneRejected reason => reason
  | zoneReplaced zone => s!"Duplicate zone {zone} replaced"
  | linkUnresolved target name => s!"Cannot find time zone '{target}' to link alias '{name}' to"
  | writingZone zone => s!"Writing {zone}"
  | readBackDiffers zone => s!"*e* Error in {zone}: Didn't read properly from file"
  | created file => s!"Created {file}"
  | aliasIndexSize strings mappings => s!"Alias index: {strings} strings; {mappings} mappings"
  | aliasReplaced name earlier => s!"Alias '{name}' replaces '{earlier}', differing only by case"
  | zonesSummary compiled removed noted =>
    s!"Summary: Zones: compiled={compiled}; removed={removed}; noted={noted}"
  | linksSummary resolved removed => s!"Summary: Links: resolved={resolved}; removed={removed}"
  | commentHeading text => text
  | comment name reasons => s!"- {name} (" ++ Text.quotedList reasons ++ ")"
  | commentsOmitted => "- [...]"
  | summaryCreated file zones links => s!"Created {file}: {zones} zones, {links} links"
  | stage title => title
  | setting name value => s!"{name}: {value}"

/-- The line of a log that shows the notice. -/
def logLine (notice : Notice) : String :=
  s!"{notice.level.name}:root:{notice.text}"

/-- Details are shown on demand only. -/
def isShown (verbose : Bool) (notice : Notice) : Bool :=
  verbose || notice.level ≠ .debug

end Notice

end ZoneHistory
