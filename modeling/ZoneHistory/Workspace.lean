import ZoneHistory.Disk
import ZoneHistory.Keyed
import ZoneHistory.Path

/-!
# Workspaces

A workspace is a disk in memory, together with the notices taken so far. Files and directories are
listed by the names along their paths; the root is always a directory.
-/
namespace ZoneHistory

inductive Node where
  | directory
  | file (bytes : List UInt8)
  deriving DecidableEq

def Node.kind : Node → NodeKind
  | directory => .directory
  | file _ => .file

structure Workspace where
  nodes : List (List String × Node)
  /-- The notices, latest first. -/
  noted : List Notice

namespace Workspace

def empty : Workspace := ⟨[], []⟩

/-- The same files and directories, and no notices. -/
def silent (w : Workspace) : Workspace := { w with noted := [] }

def notices (w : Workspace) : List Notice := w.noted.reverse

def node? (w : Workspace) (names : List String) : Option Node :=
  if names.isEmpty then some .directory else w.nodes.lookup names

def put (w : Workspace) (names : List String) (node : Node) : Workspace :=
  { w with nodes := assign names node w.nodes }

/-- The paths above a path, the root first. -/
def above (names : List String) : List (List String) :=
  (List.range names.length).map names.take

/-- The most bytes in a name. -/
def longestName : Nat := 255

def isTooLong (name : String) : Bool := longestName < name.utf8ByteSize

/-- Why nothing stands at a path. -/
def absence (names : List String) : DiskError :=
  if names.getLast?.any isTooLong then .nameTooLong else .notFound

/-- Why a path cannot be a directory, if it is not one. -/
def obstacle? (w : Workspace) (names : List String) : Option DiskError :=
  match w.node? names with
  | some .directory => none
  | some (.file _) => some .notADirectory
  | none => some (absence names)

/-- What stands at a path, unless one of the paths above it is not a directory. -/
def reach (w : Workspace) (names : List String) : Except DiskError (Option Node) :=
  match (above names).findSome? w.obstacle? with
  | some error => .error error
  | none => .ok (w.node? names)

def kind? (w : Workspace) (path : String) : Option NodeKind :=
  if path.isEmpty then none
  else
    match w.reach (Path.names path) with
    | .ok (some .directory) => some .directory
    | .ok (some (.file _)) => if Path.ending path = .name then some .file else none
    | _ => none

def read (w : Workspace) (path : String) : Except DiskError (List UInt8) :=
  if Path.hasNull path then .error .nullInPath
  else if path.isEmpty then .error .notFound
  else
    match w.reach (Path.names path) with
    | .error error => .error error
    | .ok none => .error (absence (Path.names path))
    | .ok (some .directory) => .error .isADirectory
    | .ok (some (.file bytes)) =>
      if Path.ending path = .name then .ok bytes else .error .notADirectory

/-- Why no file can be written at a path, if so. -/
def writeError? (w : Workspace) (path : String) : Option DiskError :=
  if Path.hasNull path then some .nullInPath
  else if path.isEmpty then some .notFound
  else
    match w.reach (Path.names path), Path.ending path with
    | .error error, _ => some error
    | .ok _, .slash => some .isADirectory
    | .ok none, .dot => some (absence (Path.names path))
    | .ok none, .name =>
      if (Path.names path).getLast?.any isTooLong then some .nameTooLong else none
    | .ok (some (.file _)), .dot => some .notADirectory
    | .ok (some .directory), _ => some .isADirectory
    | .ok (some (.file _)), .name => none

def write (w : Workspace) (path : String) (bytes : List UInt8) : Except DiskError Workspace :=
  match w.writeError? path with
  | some error => .error error
  | none => .ok (w.put (Path.names path) (.file bytes))

/-- Make the directories at and below a path that do not exist, one name after the other, up to the
first that is refused. -/
def makeBelow (w : Workspace) (ending : Path.Ending) (top : List String) :
    List String → Workspace × Option DiskError
  | [] => (w, none)
  | name :: rest =>
    let names := top ++ [name]
    if Path.hasNull name then (w, some .nullInPath)
    else
      match w.node? top, w.node? names with
      | some (.file _), _ => (w, some .notADirectory)
      | _, some .directory => w.makeBelow ending names rest
      | _, some (.file _) =>
        if rest.isEmpty then (w, some (if ending = .name then .alreadyExists else .notADirectory))
        else w.makeBelow ending names rest
      | _, none =>
        if isTooLong name then (w, some .nameTooLong)
        else (w.put names .directory).makeBelow ending names rest

/-- Make a directory and those above it. What was made before a refusal stays. -/
def makeDirectories (w : Workspace) (path : String) : Workspace × Option DiskError :=
  w.makeBelow (Path.ending path) [] (Path.names path)

/-- The files, with the names along their paths, in the order of the paths. -/
def files (w : Workspace) : List (List String × List UInt8) :=
  (w.nodes.filterMap fun entry =>
    match entry.2 with
    | .file bytes => some (entry.1, bytes)
    | .directory => none).mergeSort fun a b =>
      decide (¬ "/".intercalate b.1 < "/".intercalate a.1)

/-- Give a file its content; after a refusal the workspace stays as it is. -/
def replaceFile (path : String) (bytes : List UInt8) :
    StateM Workspace (Except DiskError Unit) := fun w =>
  match w.write path bytes with
  | .ok changed => (.ok (), changed)
  | .error error => (.error error, w)

instance : Disk (StateM Workspace) where
  kind? path := fun w => (w.kind? path, w)
  read path := fun w => (w.read path, w)
  makeDirectories path := fun w =>
    let (changed, refusal) := w.makeDirectories path
    (match refusal with
      | some error => .error error
      | none => .ok (),
     changed)
  create path := replaceFile path []
  write path bytes := replaceFile path bytes

instance : Journal (StateM Workspace) where
  note notice := fun w => ((), { w with noted := notice :: w.noted })

end Workspace

end ZoneHistory
