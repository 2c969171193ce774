import ZoneHistory.AliasIndex
import ZoneHistory.Disk
import ZoneHistory.ParseError
import ZoneHistory.Wire.Cursor

/-!
# Failures of a run

Everything that can end a run before it is finished.
-/
namespace ZoneHistory

inductive Fault where
  | source (cause : SourceError)
  | disk (cause : DiskError)
  /-- A source is not text in UTF-8. -/
  | notText (file : String)
  | noDestination (directory : String)
  | destinationIsFile (path : String)
  | zoneFile (cause : Wire.WriteError)
  | readBack (cause : Wire.CorruptData)
  | aliasIndex (cause : AliasIndex.EncodeError)
  /-- Recurring rules are laid out to a last year, and none was given. -/
  | noLastYear
  /-- A summary is asked for, and the output directory was left blank. -/
  | noSummaryDirectory
  deriving DecidableEq

/-- The text of a failure, if it has one of its own. -/
def Fault.message? : Fault → Option String
  | source cause => cause.message?
  | disk cause => cause.message?
  | notText _ => none
  | noDestination directory => some s!"Destination directory doesn't exist: {directory}"
  | destinationIsFile path => some s!"Destination is not a directory: {path}"
  | zoneFile cause => cause.message?
  | readBack cause => some cause.message
  | aliasIndex cause => cause.message?
  | noLastYear => some "'<' not supported between instances of 'list' and 'int'"
  | noSummaryDirectory => some "expected str, bytes or os.PathLike object, not list"

end ZoneHistory
