import ReloadReport.Json.Record
import ReloadReport.Log.Scan

/-!
# Diagnostics in JSON
-/

namespace ReloadReport

open Json (ofOption ofWord32)

def Severity.toJson (severity : Severity) : Json :=
  .string severity.word

/-- A severity may also be given as an object with its word and nothing behind it. Inside a tagged
record, the empty object is nothing, too. -/
def Severity.ofJson? : Json.Scope → Json → Option Severity
  | _, .string word => Severity.ofWord? word
  | _, .object [(word, .null)] => Severity.ofWord? word
  | .tagged, .object [(word, .object [])] => Severity.ofWord? word
  | _, _ => none

def Position.toJson (position : Position) : Json :=
  .object [
    ("source_path", ofOption .string position.sourcePath),
    ("line", ofOption ofWord32 position.line),
    ("pointer_column", ofOption ofWord32 position.pointerColumn)]

def Position.ofJson? (value : Json) : Option Position := do
  let record ← Json.Record.ofJson? [⟨"source_path", true⟩, ⟨"line", true⟩, ⟨"pointer_column", true⟩]
    value
  let sourcePath ← record.optional "source_path" Json.text?
  let line ← record.optional "line" Json.word32?
  let pointerColumn ← record.optional "pointer_column" Json.word32?
  some { sourcePath, line, pointerColumn }

def Diagnostic.toJson (diagnostic : Diagnostic) : Json :=
  .object [
    ("message", .string diagnostic.message),
    ("severity", diagnostic.severity.toJson),
    ("position", diagnostic.position.toJson)]

/-- A diagnostic may be given without a position, and then has no place. -/
def Diagnostic.ofJson? (scope : Json.Scope) (value : Json) : Option Diagnostic := do
  let record ← Json.Record.ofJson? [⟨"message", false⟩, ⟨"severity", false⟩, ⟨"position", true⟩]
    value
  let message ← record.required "message" Json.text?
  let severity ← record.required "severity" (Severity.ofJson? scope)
  let position ← record.defaulted "position" {} Position.ofJson?
  some { message, severity, position }

namespace Log

def Draft.toJson (draft : Draft) : Json :=
  .object [
    ("file", .string draft.file),
    ("line", ofWord32 draft.line),
    ("message", .string draft.message),
    ("pointer", ofOption .natural draft.pointer)]

/-- The pointer of a draft is a number of 64 bits. -/
def Draft.ofJson? (value : Json) : Option Draft := do
  let record ← Json.Record.ofJson?
    [⟨"file", false⟩, ⟨"line", false⟩, ⟨"message", false⟩, ⟨"pointer", false⟩] value
  let file ← record.required "file" Json.text?
  let line ← record.required "line" Json.word32?
  let message ← record.required "message" Json.text?
  let pointer ← record.optional "pointer" Json.word64?
  some { file, line, message, pointer := pointer.map UInt64.toNat }

end Log
end ReloadReport
