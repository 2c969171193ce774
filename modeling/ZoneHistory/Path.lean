/-!
# Paths

A path is a text in which slashes separate names. Empty names and single dots lead nowhere; a path
that ends in one of them can only be that of a directory.
-/
namespace ZoneHistory.Path

/-- The path of a name in a directory; a name that begins with a slash stands for itself. -/
def join (directory name : String) : String :=
  if name.toList.head? = some '/' then name
  else if directory.isEmpty || directory.toList.getLast? = some '/' then directory ++ name
  else directory ++ "/" ++ name

/-- What stands before the last slash, without the slashes at its end. -/
def parent (path : String) : String :=
  let upToSlash := path.toList.reverse.dropWhile (· ≠ '/')
  let trimmed := upToSlash.dropWhile (· = '/')
  String.ofList (if trimmed.isEmpty then upToSlash else trimmed).reverse

/-- The texts between slashes. -/
def pieces (text : List Char) : List (List Char) :=
  match text with
  | [] => [[]]
  | c :: rest =>
    if c = '/' then [] :: pieces rest
    else
      match pieces rest with
      | [] => [[c]]
      | piece :: others => (c :: piece) :: others

/-- Whether there is a null character in a path or a name. -/
def hasNull (path : String) : Bool := path.toList.contains '\x00'

/-- The names along a path. -/
def names (path : String) : List String :=
  ((pieces path.toList).filter fun piece => !piece.isEmpty && piece != ['.']).map String.ofList

/-- How a path ends: in a name, in a slash behind a name, or in a dot. -/
inductive Ending where
  | name
  | slash
  | dot
  deriving DecidableEq

def ending (path : String) : Ending :=
  match (pieces path.toList).reverse with
  | [] => .name
  | last :: earlier =>
    if last = ['.'] then .dot
    else if last.isEmpty then
      if (earlier.find? fun piece => !piece.isEmpty) = some ['.'] then .dot else .slash
    else .name

end ZoneHistory.Path
