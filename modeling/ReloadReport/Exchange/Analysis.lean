import ReloadReport.Analysis
import ReloadReport.Json.Record

/-!
# Origins and analyses in JSON
-/

namespace ReloadReport

open Json (memberIfSome)

def Path.toJson (path : Path) : Json :=
  .string path.text

def Path.ofJson? (value : Json) : Option Path :=
  value.text?.map Path.mk

def Origin.toJson : Origin → Json
  | .none => Json.withTag "kind" "none" []
  | .plainFile path => Json.withTag "kind" "plain_file" [("path", path.toJson)]
  | .relativeFile segments =>
      Json.withTag "kind" "virtual_file_relative" [("segments", Json.ofList .string segments)]
  | .absoluteFile id => Json.withTag "kind" "virtual_file_absolute" [("id", .string id)]

def Origin.ofJson? (value : Json) : Option Origin := do
  let (kind, rest) ← Json.tagged? "kind"
    ["none", "plain_file", "virtual_file_relative", "virtual_file_absolute"] .plain value
  if kind = "none" then
    let _ ← Json.Record.ofJson? [] rest
    some .none
  else if kind = "plain_file" then
    let record ← Json.Record.ofJson? [⟨"path", false⟩] rest
    let path ← record.required "path" Path.ofJson?
    some (.plainFile path)
  else if kind = "virtual_file_relative" then
    let record ← Json.Record.ofJson? [⟨"segments", false⟩] rest
    let segments ← record.required "segments" (Json.listOf? Json.text?)
    some (.relativeFile segments)
  else if kind = "virtual_file_absolute" then
    let record ← Json.Record.ofJson? [⟨"id", false⟩] rest
    let id ← record.required "id" Json.text?
    some (.absoluteFile id)
  else Option.none

/-- The values that a statement does not have are left out. -/
def Descriptor.toJson (stated : Descriptor) : Json :=
  .object (
    ("kind", .string stated.kind) ::
    memberIfSome "path" Path.toJson stated.path ++
    memberIfSome "names" (Json.ofList .string) stated.names ++
    memberIfSome "id" .string stated.id)

def Descriptor.ofJson? (value : Json) : Option Descriptor := do
  let record ← Json.Record.ofJson?
    [⟨"kind", false⟩, ⟨"path", true⟩, ⟨"names", true⟩, ⟨"id", true⟩] value
  let kind ← record.required "kind" Json.text?
  let path ← record.optional "path" Path.ofJson?
  let names ← record.optional "names" (Json.listOf? Json.text?)
  let id ← record.optional "id" Json.text?
  some { kind, path, names, id }

def Analysis.toJson (analysis : Analysis) : Json :=
  .object [("classes", Json.ofMap (Json.ofList Descriptor.toJson) analysis.classes)]

def Analysis.ofJson? (value : Json) : Option Analysis := do
  let record ← Json.Record.ofJson? [⟨"classes", true⟩] value
  let classes ← record.defaulted "classes" .empty (Json.map? (Json.listOf? Descriptor.ofJson?))
  some { classes }

def SourceLink.toJson (link : SourceLink) : Json :=
  .object (
    ("resolved_path", link.resolvedPath.toJson) ::
    memberIfSome "original_source" Path.toJson link.authoredPath)

def SourceLink.ofJson? (value : Json) : Option SourceLink := do
  let record ← Json.Record.ofJson? [⟨"resolved_path", false⟩, ⟨"original_source", true⟩] value
  let resolvedPath ← record.required "resolved_path" Path.ofJson?
  let authoredPath ← record.optional "original_source" Path.ofJson?
  some { resolvedPath, authoredPath }

end ReloadReport
