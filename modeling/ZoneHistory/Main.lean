import ZoneHistory.Run

/-!
# The program

The run that the command line asks for, on the files of the system. Notices go to standard error.
-/
namespace ZoneHistory

/-- A run on the system, which knows whether details are shown. -/
abbrev SystemM := ReaderT Bool IO

def diskErrorOf : IO.Error → DiskError
  | .noFileOrDirectory .. => .notFound
  | .alreadyExists .. => .alreadyExists
  | error => .other (toString error)

/-- Do something to a file, and give a refusal as a value. -/
def attempt {α : Type} (action : IO α) : SystemM (Except DiskError α) := fun _ => do
  try
    return .ok (← action)
  catch error =>
    return .error (diskErrorOf error)

def systemKind? (path : String) : IO (Option NodeKind) := do
  if path.isEmpty then return none
  try
    match (← (System.mkFilePath [path]).metadata).type with
    | .dir => return some .directory
    | _ => return some .file
  catch _ =>
    return none

instance : Disk SystemM where
  kind? path := fun _ => systemKind? path
  read path := attempt (do return (← IO.FS.readBinFile path).data.toList)
  makeDirectories path := attempt (IO.FS.createDirAll path)
  create path := attempt (IO.FS.writeBinFile path ByteArray.empty)
  write path bytes := attempt (IO.FS.writeBinFile path ⟨bytes.toArray⟩)

instance : Journal SystemM where
  note notice := fun verbose =>
    if notice.isShown verbose then IO.eprintln notice.logLine else pure ()

end ZoneHistory

open ZoneHistory in
def main (arguments : List String) : IO UInt32 := do
  match CommandLine.parse arguments with
  | .rejected =>
    IO.eprint CommandLine.usage
    return 2
  | .help =>
    IO.print CommandLine.helpText
    return 0
  | .nothingToDo =>
    IO.print CommandLine.nothingToDoText
    return 1
  | .run options =>
    let fault ← (run options : SystemM (Option Fault)) options.verbose
    match fault with
    | none => return 0
    | some fault =>
      IO.eprintln (fault.message?.getD "The run was ended by a failure of the system.")
      return 1
