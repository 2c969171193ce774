/-!
# Lines

A text is cut into lines at line breaks, a carriage return followed by a line feed counting as one
break. What follows the last break is a line unless it is empty. A text in memory knows more breaks
than a stored file.
-/
namespace ZoneHistory.Text

/-- The breaks of every text. -/
def isLineEnd (c : Char) : Bool := c == '\n' || c == '\r'

/-- The further breaks of a text in memory: vertical tabulation, page break and separators. -/
def isTextBreak (c : Char) : Bool :=
  c == '\x0b' || c == '\x0c' || c == '\x1c' || c == '\x1d' || c == '\x1e' ||
    c == '\u0085' || c == '\u2028' || c == '\u2029'

/-- The lines of the text that follows the characters collected so far, last character first. -/
def linesAfter (isFurtherBreak : Char → Bool) (collected : List Char) :
    List Char → List (List Char)
  | [] => if collected.isEmpty then [] else [collected.reverse]
  | '\r' :: '\n' :: rest => collected.reverse :: linesAfter isFurtherBreak [] rest
  | c :: rest =>
    if isLineEnd c || isFurtherBreak c then
      collected.reverse :: linesAfter isFurtherBreak [] rest
    else linesAfter isFurtherBreak (c :: collected) rest

/-- The lines of a text in memory. -/
def textLines (text : String) : List String :=
  (linesAfter isTextBreak [] text.toList).map String.ofList

/-- The lines of a stored file. -/
def fileLines (text : String) : List String :=
  (linesAfter (fun _ => false) [] text.toList).map String.ofList

/-- The text without the line feeds at its end. -/
def dropLineFeeds (text : String) : String :=
  String.ofList (text.toList.reverse.dropWhile (· == '\n')).reverse

example : textLines "a\r\n\nb\x0cc\n" = ["a", "", "b", "c"] := by decide +kernel
example : fileLines "a\r\n\nb\x0cc\n" = ["a", "", "b\x0cc"] := by decide +kernel

end ZoneHistory.Text
