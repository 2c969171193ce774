import ZoneHistory.Text.Numeral

/-!
# Binary fields

Integers of fixed width are written with their most significant byte first, negative ones in two's
complement; texts are written in UTF-8 after the number of their bytes. A writer appends to a buffer
step by step, and refuses a value that does not fit its field.
-/
namespace ZoneHistory.Wire

inductive IntKind where
  | u16
  | u32
  | i32
  | i64
  deriving DecidableEq

namespace IntKind

/-- The number of bytes. -/
def width : IntKind → Nat
  | u16 => 2
  | u32 => 4
  | i32 => 4
  | i64 => 8

def least : IntKind → Int
  | u16 => 0
  | u32 => 0
  | i32 => -2147483648
  | i64 => -9223372036854775808

def greatest : IntKind → Int
  | u16 => 65535
  | u32 => 4294967295
  | i32 => 2147483647
  | i64 => 9223372036854775807

def name : IntKind → String
  | u16 => "uint16"
  | u32 => "uint32"
  | i32 => "int32"
  | i64 => "int64"

def isSigned (kind : IntKind) : Bool := kind.least < 0

/-- The number of values, two to the number of bits. -/
def modulus (kind : IntKind) : Int := Int.pow 256 kind.width

end IntKind

inductive WriteError where
  | tooGreat (value : Int) (kind : IntKind)
  | tooSmall (value : Int) (kind : IntKind)
  | tooLong (length : Nat) (text : String)
  deriving DecidableEq

/-- The text of a refusal; there is none if it would show an integer that is too long. -/
def WriteError.message? : WriteError → Option String
  | tooGreat value kind =>
    (Text.numeral? value).map fun shown =>
      s!"x={shown} > {kind.greatest}, cannot write into {kind.name}"
  | tooSmall value kind =>
    (Text.numeral? value).map fun shown =>
      s!"x={shown} < {kind.least}, cannot write into {kind.name}"
  | tooLong length text =>
    some (s!"len={length} > 65535, cannot write string '" ++ String.ofList (text.toList.take 20) ++
      "...'")

/-- The lowest `width` bytes of a number, most significant first. -/
def bigEndian : Nat → Nat → List UInt8
  | 0, _ => []
  | width + 1, n => bigEndian width (n / 256) ++ [UInt8.ofNat n]

/-- The number that bytes spell, most significant first. -/
def bigEndianValue (bytes : List UInt8) : Nat :=
  bytes.foldl (fun value byte => 256 * value + byte.toNat) 0

/-- The number that bytes spell in two's complement, of as many bits as they have. -/
def twosComplementValue (bytes : List UInt8) : Int :=
  let n := bigEndianValue bytes
  if Nat.pow 256 bytes.length ≤ 2 * n then (n : Int) - Nat.pow 256 bytes.length else n

/-- The integer that bytes spell; how many there are need not be the width of the kind. -/
def IntKind.valueOf (kind : IntKind) (bytes : List UInt8) : Int :=
  if kind.isSigned then twosComplementValue bytes else bigEndianValue bytes

/-- A writer appends to a buffer or refuses. What it has appended before it refuses stays there. -/
abbrev Writer := ExceptT WriteError (StateM (Array UInt8))

def putBytes (bytes : List UInt8) : Writer Unit :=
  modify fun buffer : Array UInt8 => buffer ++ bytes

def checkRange (kind : IntKind) (value : Int) : Writer Unit :=
  if kind.greatest < value then throw (.tooGreat value kind)
  else if value < kind.least then throw (.tooSmall value kind)
  else pure ()

def writeU16 (value : Int) : Writer Unit := do
  checkRange .u16 value
  putBytes [UInt8.ofNat (value.toNat / 256)]
  putBytes [UInt8.ofNat value.toNat]

def writeU32 (value : Int) : Writer Unit := do
  checkRange .u32 value
  putBytes (bigEndian IntKind.u32.width value.toNat)

/-- A negative integer is written as the unsigned one of the same bits. -/
def writeI32 (value : Int) : Writer Unit := do
  checkRange .i32 value
  writeU32 (if value < 0 then value + IntKind.i32.modulus else value)

def writeI64 (value : Int) : Writer Unit := do
  checkRange .i64 value
  putBytes (bigEndian IntKind.i64.width (value % IntKind.i64.modulus).toNat)

/-- The UTF-8 form of a text. -/
def utf8 (text : String) : List UInt8 := text.toUTF8.data.toList

def writeText (text : String) : Writer Unit :=
  let bytes := utf8 text
  if 65535 < bytes.length then throw (.tooLong bytes.length text)
  else do
    writeU16 bytes.length
    putBytes bytes

/-- A value with the form in which it is written. -/
inductive Field where
  | int (kind : IntKind) (value : Int)
  | text (value : String)
  deriving DecidableEq

def Field.write : Field → Writer Unit
  | int .u16 value => writeU16 value
  | int .u32 value => writeU32 value
  | int .i32 value => writeI32 value
  | int .i64 value => writeI64 value
  | text value => writeText value

/-- The buffer after writing a field to it, and why the field was refused if it was. -/
def append (buffer : List UInt8) (field : Field) : List UInt8 × Option WriteError :=
  match field.write.run.run buffer.toArray with
  | (.ok (), buffer) => (buffer.toList, none)
  | (.error refusal, buffer) => (buffer.toList, some refusal)

/-- The fields one after the other, unless one of them is refused. -/
def writeAll (fields : List Field) : Except WriteError (List UInt8) :=
  match (forM fields Field.write).run.run #[] with
  | (.ok (), buffer) => .ok buffer.toList
  | (.error refusal, _) => .error refusal

theorem length_bigEndian (width n : Nat) : (bigEndian width n).length = width := by
  induction width generalizing n with
  | zero => rfl
  | succ width ih => simp [bigEndian, ih]

example : append [7] (.int .i32 (-2)) = ([7, 255, 255, 255, 254], none) := by decide
example : append [7] (.int .u16 65536) = ([7], some (.tooGreat 65536 .u16)) := by decide
example : IntKind.i32.valueOf [255, 255, 255, 254] = -2 := by decide
example : IntKind.i32.valueOf [128] = -128 := by decide
example : IntKind.u32.valueOf [128] = 128 := by decide

end ZoneHistory.Wire
