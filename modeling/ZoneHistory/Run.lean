import ZoneHistory.CommandLine
import ZoneHistory.Output
import ZoneHistory.Summary

/-!
# Runs

A run reads the sources that its options name, compiles them, writes what was compiled, and writes a
summary if one is asked for. Each stage is noted.
-/
namespace ZoneHistory

open CommandLine (Options)

variable {m : Type → Type} [Monad m] [Disk m] [Journal m]

/-- How an option that was left blank is shown. -/
def blankText : String := "[]"

/-- The settings of a run, as it notes them at its start. -/
def settingNotices (options : Options) : List Notice :=
  [.stage "======== TZ Compiler settings",
   .setting "Input dir" (options.inputDir.getD blankText),
   .setting "Sources" (Text.quotedList options.sources),
   .setting "Output dir" (options.outputDir.getD blankText),
   .setting "Max year" ((options.lastYear.map toString).getD blankText),
   .setting "TZ Version" (options.version.getD blankText),
   .stage "======== Extracting TZ Data files"]

/-- Read the standard files of the input directory, if there is one, and then the sources. -/
def readInputs (options : Options) : m (Session × Option Fault) := do
  let directory := options.inputDir.getD ""
  let standard := if directory.isEmpty then [] else standardFiles
  match ← Session.empty.readExisting directory standard with
  | (session, some fault) => return (session, some fault)
  | (session, none) => session.readSources options.sources

/-- Compile a session up to a last year. Without one, the first zone under recurring rules ends the
run. -/
def compileUpTo (session : Session) (directory : Option String) :
    Option Int → m (Except Fault Compilation)
  | some lastYear => compileInto session lastYear directory
  | none =>
    match session.zones.span fun zone => !zone.hasRecurrences session.ruleSets with
    | (_, []) => compileInto session Timeline.defaultLastYear directory
    | (before, zone :: _) => do
      let fault ← match directory with
        | some directory => Output.destinationFault? directory
        | none => pure none
      if fault.isNone then
        noteAll (compileZones { session with zones := before } Timeline.defaultLastYear).notices
        noteAll (zone.feed session.ruleSets).notices
      return .error (fault.getD .noLastYear)

/-- Write a summary to a file in a directory. -/
def writeSummary (directory name : String) (summary : Summary) : m (Option Fault) := do
  let file := Path.join directory name
  match ← Disk.create file with
  | .error error => return some (.disk error)
  | .ok () =>
    match ← Disk.write file (Wire.utf8 summary.render) with
    | .error error => return some (.disk error)
    | .ok () =>
      Journal.note (.summaryCreated file summary.zoneCount summary.linkCount)
      return none

/-- Write the summary that the options ask for, if any. -/
def summarize (options : Options) (session : Session) (compilation : Compilation) :
    m (Option Fault) := do
  let file := options.jsonFile.getD ""
  if file.isEmpty then return none
  Journal.note (.stage "==== Creating JSON summary file")
  match options.outputDir with
  | none => return some .noSummaryDirectory
  | some directory =>
    writeSummary directory file
      (.ofCompilation options.version options.lastYear session compilation)

/-- Do what the options ask for. The answer is the failure that ended the run, if any. -/
def run (options : Options) : m (Option Fault) := do
  noteAll (settingNotices options)
  match ← readInputs options with
  | (_, some fault) => return some fault
  | (session, none) =>
    Journal.note session.sizeNotice
    Journal.note (.stage "======== Compiling Zones and Links")
    let directory := options.outputDir.bind Output.destination?
    match ← compileUpTo session directory options.lastYear with
    | .error fault => return some fault
    | .ok compilation =>
      noteAll compilation.summaryNotices
      match ← summarize options session compilation with
      | some fault => return some fault
      | none =>
        Journal.note (.stage "======== Finished processing TZ Data files.")
        return none

end ZoneHistory
