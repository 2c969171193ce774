import ZoneHistory.Keyed
import ZoneHistory.Notice
import ZoneHistory.Text.Format

/-!
# Comments

Comments give the reasons why zones or links were removed or are notable. The reasons of a name are
a set, kept in order.
-/
namespace ZoneHistory

/-- Put a text into an ordered list of distinct texts. -/
def insertSorted (text : String) : List String → List String
  | [] => [text]
  | first :: rest =>
    if text < first then text :: first :: rest
    else if text = first then first :: rest
    else first :: insertSorted text rest

/-- The reasons for each name. -/
abbrev Comments := Keyed (List String)

namespace Comments

def none : Comments := .empty

def add (comments : Comments) (name reason : String) : Comments :=
  comments.put name (insertSorted reason ((comments.find? name).getD []))

/-- How many comments are shown unless another number is asked for. -/
def defaultMost : Int := 5

/-- Show the comments under a heading that tells their number. If there are more than `most`, only
the first and the last ones are shown, half of `most` at each end; a negative half leaves out that
many at the end. -/
def notices (comments : Comments) (heading : Nat → String) (most : Int) : List Notice :=
  let entries := comments.sorted.entries.map fun entry => Notice.comment entry.1 entry.2
  let count := entries.length
  let half := (most - 1) / 2
  if count = 0 then []
  else if (count : Int) ≤ most then .commentHeading (heading count) :: entries
  else
    .commentHeading (heading count) ::
      entries.take (if 0 ≤ half then half else count + half).toNat ++
      .commentsOmitted :: entries.drop (count - half).toNat

/-- Show the comments under a heading given as a format of their number. -/
def noticesUnder (comments : Comments) (format : String) (most : Int) :
    Except Text.Format.FormatError (List Notice) :=
  if comments.size = 0 then .ok []
  else do
    let heading ← Text.Format.fill format comments.size
    return comments.notices (fun _ => heading) most

end Comments

end ZoneHistory
