import ZoneHistory.Text.Quoted

/-!
# JSON text

Objects and arrays are laid out one member a line, indented by two blanks a level; empty ones stay
on their line. Strings are written in ASCII: other characters appear as their UTF-16 units.
-/
namespace ZoneHistory.Text.Json

def unitEscape (unit : Nat) : List Char := '\\' :: 'u' :: hexDigits 4 unit

/-- A character as one UTF-16 unit or as a surrogate pair. -/
def escapedUnits (c : Char) : List Char :=
  if c.toNat < 0x10000 then unitEscape c.toNat
  else
    unitEscape (0xd800 + (c.toNat - 0x10000) / 0x400) ++
      unitEscape (0xdc00 + (c.toNat - 0x10000) % 0x400)

def stringChar (c : Char) : List Char :=
  if c = '"' || c = '\\' then ['\\', c]
  else if c = '\n' then ['\\', 'n']
  else if c = '\r' then ['\\', 'r']
  else if c = '\t' then ['\\', 't']
  else if c = '\x08' then ['\\', 'b']
  else if c = '\x0c' then ['\\', 'f']
  else if 0x20 ≤ c.toNat && c.toNat ≤ 0x7e then [c]
  else escapedUnits c

def string (text : String) : String :=
  String.ofList ('"' :: text.toList.flatMap stringChar ++ ['"'])

def indentation (level : Nat) : String :=
  String.ofList (List.replicate (2 * level) ' ')

/-- Written members between brackets, on lines of their own one level further in. -/
def block (opening closing : String) (level : Nat) (members : List String) : String :=
  if members.isEmpty then opening ++ closing
  else
    opening ++ "\n" ++ indentation (level + 1) ++
      (",\n" ++ indentation (level + 1)).intercalate members ++
      "\n" ++ indentation level ++ closing

def array (level : Nat) (items : List String) : String :=
  block "[" "]" level items

def object (level : Nat) (members : List (String × String)) : String :=
  block "\x7b" "\x7d" level (members.map fun m => string m.1 ++ ": " ++ m.2)

example : string "é😀\x7f\"" = "\"\\u00e9\\ud83d\\ude00\\u007f\\\"\"" := by decide +kernel
example : array 0 ["1", "2"] = "[\n  1,\n  2\n]" := by decide +kernel

end ZoneHistory.Text.Json
