import Std.Data.HashMap
import Std.Data.TreeMap
import ZoneHistory.Keyed
import ZoneHistory.Notice
import ZoneHistory.Text.Lowercase
import ZoneHistory.Wire.Cursor

/-!
# The alias index

The alias index maps every name to the zone it denotes. It consists of a pool, which holds each
string once in the order of its first occurrence, alias before target, and of pairs of indices into
the pool. Pool and mappings are counted in 16 bits.
-/
namespace ZoneHistory.AliasIndex

open Wire

/-- The greatest number of strings in a pool, and of mappings. -/
def capacity : Nat := 65535

inductive CapacityError where
  | tooManyMappings (count : Nat)
  | poolFull (string : String)
  deriving DecidableEq

def CapacityError.message : CapacityError → String
  | tooManyMappings count => s!"Too many mappings {count}, exceeds {capacity}"
  | poolFull string =>
    s!"Too many time zone ids, string pool exceeds {capacity} at '{string}'"

/-- Distinct strings with their indices. -/
structure Pool where
  /-- The strings, latest first. -/
  strings : List String
  index : Std.HashMap String Nat

namespace Pool

def empty : Pool := ⟨[], ∅⟩

def size (pool : Pool) : Nat := pool.index.size

/-- The strings in the order of their indices. -/
def toList (pool : Pool) : List String := pool.strings.reverse

def indexOf (pool : Pool) (string : String) : Nat := pool.index.getD string 0

/-- The pool with a string, if it is there already or there is room for it. -/
def add (pool : Pool) (string : String) : Except CapacityError Pool :=
  if pool.index.contains string then .ok pool
  else if capacity ≤ pool.size then .error (.poolFull string)
  else .ok ⟨string :: pool.strings, pool.index.insert string pool.size⟩

/-- The pool of the aliases and targets of a mapping. -/
def ofMapping (mapping : Keyed String) : Except CapacityError Pool :=
  mapping.entries.foldlM (fun pool entry => do (← pool.add entry.1).add entry.2) empty

end Pool

inductive EncodeError where
  | capacity (cause : CapacityError)
  | write (cause : WriteError)
  deriving DecidableEq

/-- The text of a failure, unless it would show an integer that is too long. -/
def EncodeError.message? : EncodeError → Option String
  | capacity cause => some cause.message
  | write cause => cause.message?

def fields (mapping : Keyed String) (pool : Pool) : List Field :=
  .int .u16 pool.size :: pool.toList.map .text ++
    .int .u16 mapping.size :: mapping.entries.flatMap fun entry =>
      [.int .u16 (pool.indexOf entry.1), .int .u16 (pool.indexOf entry.2)]

/-- An encoded index with the sizes of its parts. -/
structure Encoded where
  bytes : List UInt8
  strings : Nat
  mappings : Nat

def Encoded.notice (encoded : Encoded) : Notice :=
  .aliasIndexSize encoded.strings encoded.mappings

def encode (mapping : Keyed String) : Except EncodeError Encoded := do
  if capacity < mapping.size then throw (.capacity (.tooManyMappings mapping.size))
  let pool ← (Pool.ofMapping mapping).mapError .capacity
  let bytes ← (writeAll (fields mapping pool)).mapError .write
  return ⟨bytes, pool.size, mapping.size⟩

/-- One mapping, as indices into the pool. -/
def readMapping (pool : Array String) : Reader (String × String) := do
  let name ← readInt .u16
  let target ← readInt .u16
  match pool[name.toNat]?, pool[target.toNat]? with
  | some a, some t => return (a, t)
  | _, _ => throw (.indexOutOfRange name target pool.size)

def read : Reader (Keyed String) := do
  let size ← readInt .u16
  let pool ← readMany readText size.toNat []
  let count ← readInt .u16
  let pairs ← readMany (readMapping pool.toArray) count.toNat []
  if !(← isAtEnd) then throw (.trailingIndexBytes (← get).remaining)
  return .ofList pairs

def decode (bytes : List UInt8) : Except CorruptData (Keyed String) :=
  runReader read bytes

/-- The latest alias of each spelling class, with its target, by the lower-case form. -/
abbrev CaseClasses := Std.TreeMap String (String × String)

/-- Put an alias into its class; it replaces one that differs by case, which is noticed. -/
def addIgnoringCase (state : CaseClasses × List Notice) (entry : String × String) :
    CaseClasses × List Notice :=
  let key := Text.lowercase entry.1
  let notices := match state.1[key]? with
    | some earlier => .aliasReplaced entry.1 earlier.1 :: state.2
    | none => state.2
  (state.1.insert key entry, notices)

/-- The mapping with one alias of those that differ only by case, the latest, in the order of their
lower-case forms; and what was replaced. -/
def distinctIgnoringCase (mapping : Keyed String) : Keyed String × List Notice :=
  let (classes, notices) := mapping.entries.foldl addIgnoringCase (∅, [])
  (.ofList (classes.toList.map (·.2)), notices.reverse)

end ZoneHistory.AliasIndex
