import ReloadReport.Provenance.Table
import ReloadReport.Text.DecimalDigit
import ReloadReport.Text.Lines

/-!
# Generator markers

Generators leave lines in the files that they write, with a label and a value after it. The
template compiler writes them into a block at the end of the file, the routes compiler into
comments.
-/

namespace ReloadReport.Provenance

open Text

/-- The author's file that a value names: the value without gaps in front and white space at the
end. Where that leaves nothing, one white space character is taken for the name: the first that is
no gap, or else the last gap. -/
def sourceName? (value : List Char) : Option (List Char) :=
  let text := value.dropWhile isGap
  match trimEnd text with
  | [] => (text.head?.or value.getLast?).map fun c => [c]
  | name => some name

/-- The text of a table, which one carriage return may end, and which has no others. -/
def tableText? (value : List Char) : Option (List Char) :=
  let text := dropReturn value
  if '\r' ∈ text then none else some text

def labelled? (label line : List Char) : Option (List Char) :=
  after? label (line.dropWhile isGap)

def comment? (skip : Char → Bool) (line : List Char) : Option (List Char) :=
  (after? ['/', '/'] (line.dropWhile skip)).map (List.dropWhile skip)

def sourceComment? (line : List Char) : Option (List Char) :=
  ((comment? isGap line).bind (after? "@SOURCE:".toList)).bind sourceName?

def lineComment? (line : List Char) : Option UInt32 := do
  let value ← (comment? isBlank line).bind (after? "@LINE:".toList)
  let text := value.dropWhile isBlank
  if (text.dropWhile isDecimalDigit).all isBlank then numeral32? (text.takeWhile isDecimalDigit)
  else none

example : sourceName? " app/a b.html \r".toList = some "app/a b.html".toList ∧
    sourceName? [' ', '\t'] = some ['\t'] ∧ sourceName? [' ', '\r'] = some ['\r'] ∧
    sourceName? [] = none := by
  decide

example : lineComment? " //\t@LINE: 12 \r".toList = some 12 ∧
    lineComment? "// @LINE:12;".toList = none ∧ lineComment? "// @LINE:".toList = none := by
  decide

end ReloadReport.Provenance
