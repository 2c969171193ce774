import ZoneHistory.Text.CaseTable

/-!
# Lower case

Texts are compared without regard to case by their lower-case forms. Each letter becomes its
lower-case partner, with two exceptions: the capital I with a dot becomes an i and a combining dot,
and a capital sigma at the end of a word becomes the final form of the letter.
-/
namespace ZoneHistory.Text

/-- The lower-case partner of a character, or the character itself. -/
def lowerChar (c : Char) : Char :=
  match lowerRuns.find? (·.has c.toNat) with
  | some run => Char.ofNat (c.toNat + run.shift).toNat
  | none => c

def isCased (c : Char) : Bool := casedLetters.has c

def isCaseIgnorable (c : Char) : Bool := caseIgnorable.has c

/-- Whether the first character that case does not look through is a letter with case. -/
def meetsCased (text : List Char) : Bool :=
  (text.dropWhile isCaseIgnorable).head?.any isCased

/-- The lower-case form of one character, given whether a letter with case stands before it. -/
def lowerAt (afterCased : Bool) (c : Char) (rest : List Char) : List Char :=
  if c.toNat < 0x80 then [c.toLower]
  else if c = '\u0130' then ['i', '\u0307']
  else if c = '\u03a3' then
    if afterCased && !meetsCased rest then ['\u03c2'] else ['\u03c3']
  else [lowerChar c]

/-- The lower-case form of a text, given whether a letter with case stands before it. -/
def lowerAfter (afterCased : Bool) : List Char → List Char
  | [] => []
  | c :: rest =>
    lowerAt afterCased c rest ++
      lowerAfter (if isCaseIgnorable c then afterCased else isCased c) rest

def lowercase (text : String) : String :=
  String.ofList (lowerAfter false text.toList)

example : lowercase "ZONE/É" = "zone/é" := by decide +kernel
example : lowercase "ΑΣ ΣΑ" = "ας σα" := by decide +kernel

end ZoneHistory.Text
