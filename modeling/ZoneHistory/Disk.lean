import ZoneHistory.Notice

/-!
# Disks

What a run asks of its surroundings: to look at, read and write files, and to take notice of
something. Requests to a disk may be refused.
-/
namespace ZoneHistory

inductive DiskError where
  | notFound
  | notADirectory
  | isADirectory
  | alreadyExists
  | nameTooLong
  /-- A path with a null character leads nowhere and cannot be made. -/
  | nullInPath
  /-- Any other refusal, with its text. -/
  | other (text : String)
  deriving DecidableEq

/-- The text of a refusal, if it is not the system's own. -/
def DiskError.message? : DiskError → Option String
  | nullInPath => some "embedded null byte"
  | _ => none

inductive NodeKind where
  | file
  | directory
  deriving DecidableEq

class Disk (m : Type → Type) where
  /-- What stands at a path, if anything. -/
  kind? : String → m (Option NodeKind)
  /-- The content of a file. -/
  read : String → m (Except DiskError (List UInt8))
  /-- Make a directory and those above it; it may exist already. -/
  makeDirectories : String → m (Except DiskError Unit)
  /-- Make a file empty, whether it exists or not. -/
  create : String → m (Except DiskError Unit)
  /-- Give a file its content. -/
  write : String → List UInt8 → m (Except DiskError Unit)

class Journal (m : Type → Type) where
  note : Notice → m Unit

/-- Take several notices, in order. -/
def noteAll {m : Type → Type} [Monad m] [Journal m] : List Notice → m Unit
  | [] => pure ()
  | notice :: rest => do
    Journal.note notice
    noteAll rest

end ZoneHistory
