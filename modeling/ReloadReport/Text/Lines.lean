/-!
# Lines

Line ends are line feeds. Where a text may come with a carriage return in front of its line feeds,
`lines` takes that away as well; the plain division is `List.splitOn` at the line feed.
-/

namespace ReloadReport.Text

def dropReturn (line : List Char) : List Char :=
  if line.getLast? = some '\r' then line.dropLast else line

/-- The lines that the pieces between line feeds stand for: every piece but the last was ended by
a line feed, and an empty last piece is no line. -/
def linesOfPieces : List (List Char) → List (List Char)
  | [] => []
  | [last] => if last = [] then [] else [last]
  | piece :: next :: pieces => dropReturn piece :: linesOfPieces (next :: pieces)

/-- The lines of a text, without their line ends. A carriage return at the very end of the text
belongs to its line. -/
def lines (text : List Char) : List (List Char) :=
  linesOfPieces (text.splitOn '\n')

example : lines "a\r\n\nb\r\r\nc\r".toList = [['a'], [], ['b', '\r'], ['c', '\r']] ∧
    lines "a\n".toList = [['a']] ∧ lines [] = [] := by
  decide

end ReloadReport.Text
