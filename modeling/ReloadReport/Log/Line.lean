import ReloadReport.Log.Colour
import ReloadReport.Text.Blank
import ReloadReport.Text.DecimalDigit
import ReloadReport.Text.Numeral
import ReloadReport.Text.Search

/-!
# Error lines

The three shapes of a log line that tell about an error: its start with file, line number and
message, a detail with a key, and the caret that points at a column. All begin with the word error
in brackets.
-/

namespace ReloadReport.Log

open Text

inductive Line where
  | start (file : String) (line : UInt32) (message : String)
  | info (key text : String)
  /-- A caret, with the number of bytes of the white space before it. -/
  | pointer (column : Nat)
  deriving DecidableEq, Repr

namespace Line

def extension? (text : List Char) : Option (List Char × List Char) :=
  match after? ['.', 'j', 'a', 'v', 'a'] text with
  | some rest => some (['.', 'j', 'a', 'v', 'a'], rest)
  | none =>
      (after? ['.', 's', 'c', 'a', 'l', 'a'] text).map fun rest =>
        (['.', 's', 'c', 'a', 'l', 'a'], rest)

/-- The end of a file name with the line number and the message after it, each behind a colon. The
number may be written in the digits of any script, and the message takes up the line. -/
def locate? (text : List Char) : Option (List Char × List Char × List Char) := do
  let (extension, text) ← extension? text
  let text ← after? [':'] text
  let digits := text.takeWhile isDecimalDigit
  let text ← after? [':'] (text.dropWhile isDecimalDigit)
  let message := text.dropWhile isBlank
  if digits = [] ∨ '\n' ∈ message then none else some (extension, digits, message)

/-- The file, the digits of the line number and the message of the start of an error. Of several
places where the file name may end, the last one counts. -/
def startParts? (text : List Char) : Option (List Char × List Char × List Char) :=
  (cutAtLast? locate? (text.dropWhile isBlank)).map fun (before, extension, digits, message) =>
    (before ++ extension, digits, message)

def isKeyChar (c : Char) : Bool :=
  c == ' ' || ('a' ≤ c && c ≤ 'z')

/-- A detail: white space, a key and a colon, and then its text, which takes up the line. Spaces
may belong to the white space or to the key, which has at least one character. -/
def info? (text : List Char) : Option Line :=
  match cutAtFirst? [':'] text with
  | none => none
  | some (key, detail) =>
      if (key.dropWhile isBlank).all isKeyChar ∧ key.getLast?.any isKeyChar ∧ '\n' ∉ detail then
        some (.info (String.ofList (trim key)) (String.ofList (trim detail)))
      else none

def pointer? (text : List Char) : Option Line :=
  match after? ['^'] (text.dropWhile isBlank) with
  | none => none
  | some rest =>
      if rest.all isBlank then some (.pointer (byteWidth (text.takeWhile isBlank))) else none

def body? (raw : List Char) : Option (List Char) :=
  after? ['[', 'e', 'r', 'r', 'o', 'r', ']'] (withoutColour raw)

/-- What a line tells about an error. A line that has the shape of a start but no line number of
32 bits in ASCII digits tells nothing. -/
def ofText? (raw : List Char) : Option Line :=
  (body? raw).bind fun text =>
    match startParts? text with
    | some (file, digits, message) =>
        (numeral32? digits).map fun line =>
          .start (String.ofList file) line (String.ofList message)
    | none => (info? text).or (pointer? text)

def ofString? (raw : String) : Option Line :=
  ofText? raw.toList

example : ofString? "[error] /a/Foo.java:10: incompatible types" =
    some (.start "/a/Foo.java" 10 "incompatible types") := by
  decide

/-- A message may name files as well, and then the file name reaches up to the last of them. -/
example : ofString? "[error] a.java:1: see b.scala:2: x" =
    some (.start "a.java:1: see b.scala" 2 "x") := by
  decide

example : ofString? "[error] found   : String" = some (.info "found" "String") ∧
    ofString? "[error]  :" = some (.info "" "") ∧ ofString? "[error]\t:x" = none := by
  decide

example : ofString? "[error]\u3000 ^ " = some (.pointer 4) ∧ ofString? "[error] ^ x" = none := by
  decide

example : ofString? "[error] found: x.java:4294967296: y" = none := by
  decide

end Line
end ReloadReport.Log
