/-!
# Placeholders

`%s` in a text stands for something to be filled in.
-/
namespace ZoneHistory.Text

/-- The text with the filling at the first `%s`. -/
def fillFirst (filling : List Char) : List Char → List Char
  | [] => []
  | '%' :: 's' :: rest => filling ++ rest
  | c :: rest => c :: fillFirst filling rest

/-- The text without any `%s`. -/
def erasePlaceholders : List Char → List Char
  | [] => []
  | '%' :: 's' :: rest => erasePlaceholders rest
  | c :: rest => c :: erasePlaceholders rest

end ZoneHistory.Text
