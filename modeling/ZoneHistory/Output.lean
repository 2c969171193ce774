import ZoneHistory.Compilation
import ZoneHistory.Fault
import ZoneHistory.Path
import ZoneHistory.ZoneFile

/-!
# Sources and output directories

Sources are read from a disk, and what was compiled is written to one: each history in a file that
is named for its zone, and the alias index beside them. Every zone file is read back; a difference
is noted and does not end the writing.
-/
namespace ZoneHistory

variable {m : Type → Type} [Monad m] [Disk m] [Journal m]

/-- Read one file into a session. After a failure the session keeps what was read before it. A file
that is not UTF-8 is refused before any of its lines is read; a reader that decodes block by block
would keep the lines of the blocks before. -/
def Session.readSource (session : Session) (file : String) : m (Session × Option Fault) := do
  Journal.note (.reading file)
  match ← Disk.read file with
  | .error error => return (session, some (.disk error))
  | .ok bytes =>
    match Wire.text? bytes with
    | none => return (session, some (.notText file))
    | some text =>
      let reading := session.readLines file (Text.fileLines text)
      noteAll reading.notices
      match reading.failure with
      | some cause => return (reading.session, some (.source cause))
      | none =>
        return ({ reading.session with files := reading.session.files ++ [file] }, none)

/-- Read files one after the other, up to the first failure. -/
def Session.readSources (session : Session) : List String → m (Session × Option Fault)
  | [] => return (session, none)
  | file :: rest => do
    match ← session.readSource file with
    | (session, some fault) => return (session, some fault)
    | (session, none) => session.readSources rest

/-- The names of the standard source files. -/
def standardFiles : List String :=
  ["africa", "antarctica", "asia", "australasia", "backward", "etcetera", "europe",
   "northamerica", "southamerica"]

/-- Read those of the named files that exist in a directory. -/
def Session.readExisting (session : Session) (directory : String) :
    List String → m (Session × Option Fault)
  | [] => return (session, none)
  | name :: rest => do
    let file := Path.join directory name
    match ← Disk.kind? file with
    | none =>
      Journal.note (.skippingMissing file)
      session.readExisting directory rest
    | some _ =>
      match ← session.readSource file with
      | (session, some fault) => return (session, some fault)
      | (session, none) => session.readExisting directory rest

namespace Output

/-- The output directory of the given name; no name stands for none. -/
def destination? (directory : String) : Option String :=
  if directory.isEmpty then none else some directory

/-- Why a path cannot be written to as an output directory, if so. -/
def destinationFault? (directory : String) : m (Option Fault) := do
  match ← Disk.kind? directory with
  | none => return some (.noDestination directory)
  | some .file => return some (.destinationIsFile directory)
  | some .directory => return none

/-- A request to the disk whose refusal is a failure of the run. -/
def onDisk {α : Type} (request : m (Except DiskError α)) : ExceptT Fault m α := do
  match ← (request : m _) with
  | .ok value => return value
  | .error error => throw (.disk error)

/-- What is said of a zone whose file does not hold its history. -/
def readBackReason : String := "Compiled zone file did not read back identically"

/-- Write the file of a zone and read it back. The answer is whether it holds the history that is
expected. -/
def writeZoneFile (directory zone : String) (timeline : Timeline) (expected : Option History) :
    ExceptT Fault m Bool := do
  let file := Path.join directory zone
  let parent := Path.parent file
  unless parent.isEmpty do onDisk (Disk.makeDirectories parent)
  Journal.note (m := m) (.writingZone zone)
  onDisk (Disk.create file)
  let bytes ← liftExcept ((ZoneFile.encode (timeline.toHistory zone)).mapError .zoneFile)
  onDisk (Disk.write file bytes)
  let stored ← onDisk (Disk.read file)
  let history ← liftExcept ((ZoneFile.decode zone stored).mapError .readBack)
  return some history = expected
where
  liftExcept {α : Type} (value : Except Fault α) : ExceptT Fault m α := ExceptT.mk (pure value)

/-- Write the files of the zones, and add a comment for each that differs when it is read back. -/
def writeZoneFiles (directory : String) (expected : Keyed History) :
    List (String × Timeline) → Comments → m (Comments × Option Fault)
  | [], comments => return (comments, none)
  | (zone, timeline) :: rest, comments => do
    match ← (writeZoneFile directory zone timeline (expected.find? zone)).run with
    | .error fault => return (comments, some fault)
    | .ok true => writeZoneFiles directory expected rest comments
    | .ok false =>
      Journal.note (.readBackDiffers zone)
      writeZoneFiles directory expected rest (comments.add zone readBackReason)

/-- The name of the file of the alias index. -/
def aliasIndexFile : String := "ZoneInfoMap"

/-- Write the index of all names, of which those that differ only by case are one. -/
def writeAliasIndex (directory : String) (names : Keyed History) : m (Option Fault) := do
  let (mapping, notices) := AliasIndex.distinctIgnoringCase (names.mapValues (·.zone))
  noteAll notices
  let file := Path.join directory aliasIndexFile
  match ← Disk.create file with
  | .error error => return some (.disk error)
  | .ok () =>
    match AliasIndex.encode mapping with
    | .error cause => return some (.aliasIndex cause)
    | .ok encoded =>
      Journal.note encoded.notice
      match ← Disk.write file encoded.bytes with
      | .error error => return some (.disk error)
      | .ok () =>
        Journal.note (.created file)
        return none

/-- Write the zone files and the alias index of a compilation. The answer is its comments on notable
zones, with those that were added, and the failure that ended the writing, if any. -/
def write (directory : String) (timelines : Keyed Timeline) (zones names : Keyed History)
    (notable : Comments) : m (Comments × Option Fault) := do
  match ← destinationFault? directory with
  | some fault => return (notable, some fault)
  | none =>
    match ← writeZoneFiles directory zones timelines.entries notable with
    | (notable, some fault) => return (notable, some fault)
    | (notable, none) => return (notable, ← writeAliasIndex directory names)

end Output

/-- Compile a session and, if a directory is given, write what was compiled. The directory is looked
at first. -/
def compileInto (session : Session) (lastYear : Int) (directory : Option String) :
    m (Except Fault Compilation) := do
  match directory with
  | none =>
    let (compilation, notices) := compile session lastYear
    noteAll notices
    return .ok compilation
  | some directory =>
    match ← Output.destinationFault? directory with
    | some fault => return .error fault
    | none =>
      let (compilation, notices) := compile session lastYear
      noteAll notices
      Journal.note (.stage "==== Writing compiled zone files")
      match ← Output.write directory compilation.timelines compilation.zones compilation.names
          compilation.notableZones with
      | (_, some fault) => return .error fault
      | (notable, none) => return .ok { compilation with notableZones := notable }

/-- Read the given files into a session of their own and compile it. -/
def compileFiles (files : List String) (lastYear : Int) (directory : Option String) :
    m (Except Fault Compilation) := do
  match ← Session.empty.readSources files with
  | (_, some fault) => return .error fault
  | (session, none) =>
    Journal.note session.sizeNotice
    compileInto session lastYear directory

end ZoneHistory
