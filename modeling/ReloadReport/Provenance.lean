import ReloadReport.Path
import ReloadReport.Provenance.Marker

/-!
# Provenance of generated files

Some files that the build compiles were generated from files that an author wrote. Their content
says which, and how their lines map back.
-/

namespace ReloadReport

open Text

inductive Provenance where
  | template (source : Path) (matrix lines : Provenance.Table)
  | routes (source : Path) (lineMarkers : Provenance.Table)
  deriving DecidableEq, Repr

namespace Provenance

def blockMark : List Char :=
  "-- GENERATED --".toList

def tableOf (label : List Char) (block : List (List Char)) : Table :=
  match block.findSome? fun line => (labelled? label line).bind tableText? with
  | none => []
  | some text => Table.ofText text

def ofBlock? (block : List (List Char)) : Option Provenance :=
  (block.findSome? fun line => (labelled? "SOURCE:".toList line).bind sourceName?).map fun name =>
    .template ⟨String.ofList name⟩ (tableOf "MATRIX:".toList block) (tableOf "LINES:".toList block)

/-- The lines with a line comment, by number, and the author's lines. Lines whose number does not
fit 32 bits are left out; a counter of that width overflows there. -/
def lineMarkers (lines : List (List Char)) : Table :=
  (lines.zipIdx 1).filterMap fun (line, number) => do
    let number ← word32? number
    let source ← lineComment? line
    some (number, source)

def ofComments? (content : List Char) : Option Provenance :=
  ((content.splitOn '\n').findSome? sourceComment?).map fun name =>
    .routes ⟨String.ofList name⟩ (lineMarkers (lines content))

/-- What the content of a file says about its origin. In a file with a block of the template
compiler, the lines after the one that opens the block count, and no others. -/
def ofText? (content : List Char) : Option Provenance :=
  match cutAtFirst? blockMark content with
  | some (_, block) => ofBlock? (block.splitOn '\n').tail
  | none => ofComments? content

def ofContent? (content : String) : Option Provenance :=
  ofText? content.toList

def ofFile? (read : Path → Option String) (path : Path) : Option Provenance :=
  (read path).bind ofContent?

def source : Provenance → Path
  | .template source _ _ => source
  | .routes source _ => source

def sourceLine? : Provenance → UInt32 → Option UInt32
  | .template _ _ lines, line => lines.at? line
  | .routes _ lineMarkers, line => lineMarkers.at? line

def sourceOffset? : Provenance → UInt32 → Option UInt32
  | .template _ matrix _, offset => matrix.at? offset
  | .routes _ _, _ => none

/-- The comments number the lines of the file in which they stand. -/
example : ofContent? "// @SOURCE:conf/routes\r\n\n  // @LINE:6\r\n" =
    some (.routes ⟨"conf/routes"⟩ [(3, 6)]) := by
  decide

example : (ofContent? "SOURCE: a\n-- GENERATED --\n SOURCE: b\n").map source = some ⟨"b"⟩ := by
  decide

end Provenance
end ReloadReport
