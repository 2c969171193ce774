import ZoneHistory.Text.Intervals

/-!
# Blanks and fields

A line is cut into fields at runs of blanks. Blanks are the white space characters of all scripts
and the four separator controls; characters of no width are not blanks.
-/
namespace ZoneHistory.Text

def blanks : Intervals :=
  [(0x9, 0xd), (0x1c, 0x20), (0x85, 0x85), (0xa0, 0xa0), (0x1680, 0x1680), (0x2000, 0x200a),
   (0x2028, 0x2029), (0x202f, 0x202f), (0x205f, 0x205f), (0x3000, 0x3000)]

def isBlank (c : Char) : Bool := blanks.has c

/-- A field that was being collected, last character first, if it has begun. -/
def finishField (collected : List Char) : List (List Char) :=
  if collected.isEmpty then [] else [collected.reverse]

/-- The fields of the text that follows the characters collected so far. -/
def fieldsAfter (collected : List Char) : List Char → List (List Char)
  | [] => finishField collected
  | c :: rest =>
    if isBlank c then finishField collected ++ fieldsAfter [] rest
    else fieldsAfter (c :: collected) rest

/-- The maximal runs of characters that are not blank, in order. -/
def fields (text : String) : List String :=
  (fieldsAfter [] text.toList).map String.ofList

def beginsBlank (text : String) : Bool :=
  text.toList.head?.any isBlank

example : fields " a\tbc\x1cd " = ["a", "bc", "d"] := by decide +kernel

end ZoneHistory.Text
