import ZoneHistory.Text.Placeholder

/-!
# Abbreviation formats

The format of an era either gives two abbreviations around a slash, the left one for standard time
and the right one for savings, or is one abbreviation in which `%s` stands for the letter of the
rule in force.
-/
namespace ZoneHistory.Abbreviation

/-- The texts around the first slash. -/
def splitAtSlash : List Char → Option (List Char × List Char)
  | [] => none
  | c :: rest =>
    if c = '/' then some ([], rest)
    else (splitAtSlash rest).map fun (left, right) => (c :: left, right)

/-- The abbreviations for standard time and for savings, if the format gives two. -/
def alternatives? (format : List Char) : Option (List Char × List Char) :=
  (splitAtSlash format).filter fun parts => !parts.1.isEmpty

/-- The abbreviation under a rule with the given savings and letter. -/
def underRule (format : String) (save : Int) (letter : Option String) : String :=
  match alternatives? format.toList with
  | some (standard, savings) => String.ofList (if save = 0 then standard else savings)
  | none => String.ofList (Text.fillFirst (letter.getD "").toList format.toList)

/-- The abbreviation of an era with fixed savings. -/
def underFixed (format : String) (save : Int) : String :=
  match alternatives? format.toList with
  | some (standard, savings) => String.ofList (if save = 0 then standard else savings)
  | none => String.ofList (Text.erasePlaceholders format.toList)

example : underRule "E%sT" 0 (some "S") = "EST" := by decide +kernel
example : underFixed "GMT/BST" 3600000 = "BST" := by decide +kernel

end ZoneHistory.Abbreviation
