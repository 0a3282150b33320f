import ReloadReport.Exchange.Analysis
import ReloadReport.Provenance

/-!
# Provenances in JSON
-/

namespace ReloadReport
namespace Provenance

def Table.entryToJson (entry : UInt32 × UInt32) : Json :=
  .array [Json.ofWord32 entry.1, Json.ofWord32 entry.2]

def Table.entryOfJson? : Json → Option (UInt32 × UInt32)
  | .array [generated, source] => do
      let generated ← generated.word32?
      let source ← source.word32?
      some (generated, source)
  | _ => none

def Table.toJson (table : Table) : Json :=
  Json.ofList entryToJson table

/-- A table is taken as it is given, in ascending order or not. -/
def Table.ofJson? (value : Json) : Option Table :=
  Json.listOf? entryOfJson? value

def toJson : Provenance → Json
  | .template source matrix lines =>
      Json.withTag "generator" "template"
        [("source", source.toJson), ("matrix", Table.toJson matrix), ("lines", Table.toJson lines)]
  | .routes source lineMarkers =>
      Json.withTag "generator" "routes"
        [("source", source.toJson), ("line_markers", Table.toJson lineMarkers)]

def ofJson? (value : Json) : Option Provenance := do
  let (kind, rest) ← Json.tagged? "generator" ["template", "routes"] .plain value
  if kind = "template" then
    let record ← Json.Record.ofJson? [⟨"source", false⟩, ⟨"matrix", false⟩, ⟨"lines", false⟩] rest
    let source ← record.required "source" Path.ofJson?
    let matrix ← record.required "matrix" Table.ofJson?
    let lines ← record.required "lines" Table.ofJson?
    some (.template source matrix lines)
  else if kind = "routes" then
    let record ← Json.Record.ofJson? [⟨"source", false⟩, ⟨"line_markers", false⟩] rest
    let source ← record.required "source" Path.ofJson?
    let lineMarkers ← record.required "line_markers" Table.ofJson?
    some (.routes source lineMarkers)
  else none

end Provenance
end ReloadReport
