import ZoneHistory.Keyed
import ZoneHistory.Notice
import ZoneHistory.Rule
import ZoneHistory.Zone
import ZoneHistory.Text.Lines

/-!
# Sessions

A session collects the rule sets, zones and links of all sources that are compiled together. A
source is read line by line: a line at the margin is a record and ends the zone that is open, a line
that begins with a blank continues the open zone, and lines without fields are skipped. A failure
ends the reading of a source; what was collected before it stays.
-/
namespace ZoneHistory

/-- A second name for a zone. -/
structure Link where
  target : String
  «alias» : String
  deriving DecidableEq

structure Session where
  ruleSets : Keyed RuleSet
  zones : List Zone
  links : List Link
  /-- The files that were read without a failure. -/
  files : List String
  deriving DecidableEq

def stripComment (line : String) : String :=
  String.ofList (line.toList.takeWhile (· ≠ '#'))

/-- What a line is before its fields are looked at. -/
inductive LineShape where
  | blank
  | continuation (fields : List String)
  | record (fields : List String)
  deriving DecidableEq

def LineShape.ofLine (line : String) : LineShape :=
  let content := stripComment line
  match Text.fields content with
  | [] => .blank
  | fields => if Text.beginsBlank content then .continuation fields else .record fields

inductive Record where
  | rule (rule : Rule)
  | zone (zone : Zone)
  | link (link : Link)
  | unknown
  deriving DecidableEq

/-- The record that fields stand for; the first is a keyword in any case. -/
def Record.parse (fields : List String) (line : String) : Except ParseError Record :=
  match fields with
  | [] => .ok .unknown
  | keyword :: fields =>
    let keyword := Text.lowercase keyword
    if keyword = "rule" then (Rule.parse fields line).map .rule
    else if keyword = "zone" then
      match fields with
      | [] => .error (.missingZoneName line)
      | name :: fields => (Era.parse fields line).map fun era => .zone ⟨name, [era]⟩
    else if keyword = "link" then
      match fields with
      | target :: name :: _ => .ok (.link ⟨target, name⟩)
      | _ => .error (.missingLinkField line)
    else .ok .unknown

namespace Session

def empty : Session := ⟨.empty, [], [], []⟩

/-- Add a rule to the rule set of its name, which begins with it if there is none. -/
def addRule (session : Session) (rule : Rule) : Except ParseError Session :=
  match session.ruleSets.find? rule.name with
  | none => .ok { session with ruleSets := session.ruleSets.put rule.name (.single rule) }
  | some set => do
    let set ← set.add rule
    return { session with ruleSets := session.ruleSets.put rule.name set }

/-- Add the zone that is open, if any. -/
def close (session : Session) : Option Zone → Session
  | none => session
  | some zone => { session with zones := session.zones ++ [zone] }

/-- What is left after a source has been read: the session, what was noticed, and the failure that
ended the reading, if there was one. -/
structure Reading where
  session : Session
  notices : List Notice
  failure : Option SourceError

def Reading.noting (notice : Notice) (reading : Reading) : Reading :=
  { reading with notices := notice :: reading.notices }

/-- A record that was taken into a session, which may open a zone. -/
def addRecord (session : Session) : Record → Except ParseError (Session × Option Zone)
  | .rule rule => (session.addRule rule).map (·, none)
  | .zone zone => .ok (session, some zone)
  | .link link => .ok ({ session with links := session.links ++ [link] }, none)
  | .unknown => .ok (session, none)

/-- Read the lines of a source from line number `n` on, while `current` is the open zone. -/
def readFrom (source : String) : Nat → List String → Session → Option Zone → Reading
  | _, [], session, current => ⟨session.close current, [], none⟩
  | n, raw :: rest, session, current =>
    let line := Text.dropLineFeeds raw
    match LineShape.ofLine line with
    | .blank => readFrom source (n + 1) rest session current
    | .continuation fields =>
      match current with
      | none =>
        (readFrom source (n + 1) rest session none).noting (.strayContinuation source n line)
      | some zone =>
        match Era.parse fields line with
        | .error cause => ⟨session, [], some (cause.locate source n)⟩
        | .ok era => readFrom source (n + 1) rest session (some (zone.chain era))
    | .record fields =>
      let session := session.close current
      match Record.parse fields line with
      | .error cause => ⟨session, [], some (cause.locate source n)⟩
      | .ok record =>
        match session.addRecord record with
        | .error cause => ⟨session, [], some (cause.locate source n)⟩
        | .ok (session, opened) =>
          let reading := readFrom source (n + 1) rest session opened
          if record = .unknown then reading.noting (.unknownLine line) else reading

/-- Read the lines of a source. -/
def readLines (session : Session) (source : String) (lines : List String) : Reading :=
  readFrom source 1 lines session none

/-- Read a text in memory. -/
def readText (session : Session) (source text : String) : Reading :=
  session.readLines source (Text.textLines text)

def ruleCount (session : Session) : Nat :=
  session.ruleSets.values.foldl (fun count set => count + set.rules.length) 0

def eraCount (session : Session) : Nat :=
  session.zones.foldl (fun count zone => count + zone.eras.length) 0

/-- The sizes of the parts of a session. -/
def sizeNotice (session : Session) : Notice :=
  .sessionSize session.ruleCount session.ruleSets.size session.zones.length session.eraCount
    session.links.length

end Session

end ZoneHistory
