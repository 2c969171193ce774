import ZoneHistory.History
import ZoneHistory.Wire.Cursor

/-!
# Zone files

A zone file holds a history: a mark, the name of the zone, the initial state without its instant,
the number of transitions, and the transitions. Only data that is exactly of this form, for the zone
that is asked for, is read.
-/
namespace ZoneHistory.ZoneFile

open Wire

/-- The bytes at the start of every zone file. -/
def mark : List UInt8 := [0x54, 0x5a, 0x43, 0x31]

def transitionFields (t : Transition) : List Field :=
  [.int .i64 t.instant, .int .i32 t.wallOffset, .int .i32 t.standardOffset, .text t.name]

/-- What follows the mark. -/
def fields (history : History) : List Field :=
  [.text history.zone, .int .i32 history.initial.wallOffset,
    .int .i32 history.initial.standardOffset, .text history.initial.name,
    .int .u32 history.transitions.size] ++
    history.transitions.toList.flatMap transitionFields

def encode (history : History) : Except WriteError (List UInt8) :=
  (writeAll (fields history)).map (mark ++ ·)

def readTransition : Reader Transition := do
  let instant ← readInt .i64
  let wallOffset ← readInt .i32
  let standardOffset ← readInt .i32
  let name ← readText
  return ⟨instant, wallOffset, standardOffset, name⟩

/-- Read the history of the given zone. -/
def read (zone : String) : Reader History := do
  let start ← readBytes mark.length
  if start ≠ mark then throw (.notZoneFile zone)
  let stored ← readText
  if stored ≠ zone then throw (.otherZone zone stored)
  let wallOffset ← readInt .i32
  let standardOffset ← readInt .i32
  let name ← readText
  let count ← readInt .u32
  let transitions ← readMany readTransition count.toNat []
  if !(← isAtEnd) then throw (.trailingZoneBytes zone (← get).remaining)
  return ⟨zone, ⟨0, wallOffset, standardOffset, name⟩, transitions.toArray⟩

def decode (zone : String) (bytes : List UInt8) : Except CorruptData History :=
  runReader (read zone) bytes

end ZoneHistory.ZoneFile
