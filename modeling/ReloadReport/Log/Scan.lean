import ReloadReport.Diagnostic
import ReloadReport.Log.Line

/-!
# Scanning a log

A log is read line by line. The error that started last is being drafted, and the first draft that
a caret completes is what the log tells.
-/

namespace ReloadReport.Log

structure Draft where
  file : String
  line : UInt32
  message : String
  pointer : Option Nat := none
  deriving DecidableEq, Repr, Inhabited

namespace Draft

def withInfo (draft : Draft) (key text : String) : Draft :=
  { draft with message := draft.message ++ " [" ++ key ++ ": " ++ text ++ "]" }

def withPointer (draft : Draft) (column : Nat) : Draft :=
  { draft with pointer := some column }

/-- The column before the caret. A caret right after the bracket has none, and neither has one so
far off that its column does not fit 32 bits. -/
def pointerColumn (draft : Draft) : Option UInt32 :=
  match draft.pointer with
  | some (column + 1) => Text.word32? column
  | _ => none

def diagnostic (draft : Draft) : Diagnostic where
  message := draft.message
  severity := .error
  position := {
    sourcePath := some draft.file
    line := some draft.line
    pointerColumn := draft.pointerColumn }

end Draft

structure Scan where
  pending : Option Draft := none
  first : Option Draft := none
  deriving DecidableEq, Repr, Inhabited

namespace Scan

/-- Take in what a line tells. Details and carets belong to the error that started last. -/
def tell (scan : Scan) : Line → Scan
  | .start file line message => { scan with pending := some { file, line, message } }
  | .info key text => { scan with pending := scan.pending.map (·.withInfo key text) }
  | .pointer column =>
      let pending := scan.pending.map (·.withPointer column)
      { pending, first := scan.first.or pending }

def read (scan : Scan) (raw : String) : Scan :=
  match Line.ofString? raw with
  | none => scan
  | some line => scan.tell line

def readAll (scan : Scan) (lines : List String) : Scan :=
  lines.foldl read scan

def diagnostic? (scan : Scan) : Option Diagnostic :=
  scan.first.map Draft.diagnostic

end Scan

def lastLines (limit : Option UInt64) (lines : List String) : List String :=
  match limit with
  | none => lines
  | some count => lines.drop (lines.length - count.toNat)

def recover? (limit : Option UInt64) (lines : List String) : Option Diagnostic :=
  (Scan.readAll {} (lastLines limit lines)).diagnostic?

/-- Details before the caret belong to the message, and details after it do not. -/
example : recover? none
    ["[error] /a/Foo.java:10: incompatible types", "[error] found   : String", "[error]    ^",
      "[error] required: Int"] =
    some ((Diagnostic.ofError "incompatible types [found: String]").atLine "/a/Foo.java" 10
      |>.atColumn 3) := by
  decide

example : recover? (some 1) ["[error] /a/Foo.java:10: x", "[error] ^"] = none := by
  decide

end ReloadReport.Log
