import ZoneHistory.Wire

/-!
# Reading binary fields

A cursor stands at an offset in data. Reading a field moves it behind the field; a field that would
reach beyond the data is refused and the cursor stays. A text whose bytes are not UTF-8 is refused
after the cursor has passed it.
-/
namespace ZoneHistory.Wire

inductive CorruptData where
  | unexpectedEnd (offset needed available : Int)
  | invalidText
  | notZoneFile (zone : String)
  | otherZone (zone stored : String)
  | trailingZoneBytes (zone : String) (count : Int)
  | indexOutOfRange (name target : Int) (size : Nat)
  | trailingIndexBytes (count : Int)
  deriving DecidableEq

def CorruptData.message : CorruptData → String
  | unexpectedEnd offset needed available =>
    s!"Unexpected end of data at offset {offset}, needed {needed} bytes, have {available}"
  | invalidText => "Invalid UTF-8 string"
  | notZoneFile zone => s!"{zone}: Not a compiled zone file"
  | otherZone zone stored => s!"{zone}: Compiled zone file contains \"{stored}\""
  | trailingZoneBytes zone count => s!"{zone}: {count} trailing bytes in compiled zone file"
  | indexOutOfRange name target size =>
    s!"Corrupt zone info map: index ({name}, {target}) out of range of pool size {size}"
  | trailingIndexBytes count => s!"Corrupt zone info map: {count} trailing bytes"

structure Cursor where
  data : Array UInt8
  /-- The number of bytes passed; an offset before the data counts back from its end. -/
  offset : Int
  deriving DecidableEq

namespace Cursor

def ofBytes (bytes : List UInt8) : Cursor := ⟨bytes.toArray, 0⟩

def atEnd (c : Cursor) : Bool := (c.data.size : Int) ≤ c.offset

/-- The bytes from the offset on. -/
def remaining (c : Cursor) : Int := c.data.size - c.offset

/-- The index of a position, which counts back from the end if it is negative. -/
def index (c : Cursor) (position : Int) : Nat :=
  if position < 0 then (c.data.size + position).toNat else position.toNat

end Cursor

/-- A reader moves a cursor and gives a value or a failure; the cursor is kept in both cases. -/
abbrev Reader := ExceptT CorruptData (StateM Cursor)

/-- The given number of bytes. -/
def readBytes (count : Int) : Reader (List UInt8) := do
  let c ← get
  let finish := c.offset + count
  if (c.data.size : Int) < finish then
    throw (.unexpectedEnd c.offset count c.remaining)
  set { c with offset := finish }
  return (c.data.extract (c.index c.offset) (c.index finish)).toList

/-- An integer. Where the data counted back from their end run out before the field is full, it is
spelt by the bytes there are. -/
def readInt (kind : IntKind) : Reader Int := do
  let bytes ← readBytes kind.width
  return kind.valueOf bytes

/-- The text whose UTF-8 form the bytes are. -/
def text? (bytes : List UInt8) : Option String := String.fromUTF8? ⟨bytes.toArray⟩

def readText : Reader String := do
  let length ← readInt .u16
  let bytes ← readBytes length
  match text? bytes with
  | some text => return text
  | none => throw .invalidText

/-- As many values as asked for, after those already read, which are held latest first. -/
def readMany {α : Type} (read : Reader α) : Nat → List α → Reader (List α)
  | 0, values => return values.reverse
  | count + 1, values => do
    let value ← read
    readMany read count (value :: values)

/-- Whether the cursor has passed all the data. -/
def isAtEnd : Reader Bool := do
  let c ← get
  return c.atEnd

/-- Read data from its start. -/
def runReader {α : Type} (read : Reader α) (bytes : List UInt8) : Except CorruptData α :=
  (read.run.run (Cursor.ofBytes bytes)).1

end ZoneHistory.Wire
