import ReloadReport.Exchange.Analysis
import ReloadReport.Exchange.Failure
import ReloadReport.Report

/-!
# Settings and reports in JSON
-/

namespace ReloadReport

def Settings.toJson (settings : Settings) : Json :=
  .object [
    ("remap_generated", .bool settings.remapGenerated),
    ("log_tail_lines", Json.ofOption Json.ofWord64 settings.logTailLines)]

def Settings.ofJson? (value : Json) : Option Settings := do
  let record ← Json.Record.ofJson? [⟨"remap_generated", false⟩, ⟨"log_tail_lines", false⟩] value
  let remapGenerated ← record.required "remap_generated" Json.truth?
  let logTailLines ← record.optional "log_tail_lines" Json.word64?
  some { remapGenerated, logTailLines }

def Report.toJson : Report → Json
  | .success sources classpath =>
      Json.withTag "outcome" "success"
        [("sources", Json.ofMap SourceLink.toJson sources),
          ("classpath", Json.ofList Path.toJson classpath)]
  | .failure verdict => Json.withTag "outcome" "failure" [("failure", verdict.toJson)]

def Report.ofJson? (value : Json) : Option Report := do
  let (kind, rest) ← Json.tagged? "outcome" ["success", "failure"] .plain value
  if kind = "success" then
    let record ← Json.Record.ofJson? [⟨"sources", false⟩, ⟨"classpath", false⟩] rest
    let sources ← record.required "sources" (Json.map? SourceLink.ofJson?)
    let classpath ← record.required "classpath" (Json.listOf? Path.ofJson?)
    some (.success sources classpath)
  else if kind = "failure" then
    let record ← Json.Record.ofJson? [⟨"failure", false⟩] rest
    let verdict ← record.required "failure" (Verdict.ofJson? .tagged)
    some (.failure verdict)
  else none

end ReloadReport
