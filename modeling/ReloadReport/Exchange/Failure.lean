import ReloadReport.Exchange.Diagnostic
import ReloadReport.Failure.Verdict

/-!
# Failures and verdicts in JSON
-/

namespace ReloadReport

open Json (ofOption)

/-- The members of an application error, which stand beside a tag where it has one. -/
def ApplicationError.members (error : ApplicationError) : List (String × Json) :=
  [("title", .string error.title), ("description", .string error.description)]

def ApplicationError.toJson (error : ApplicationError) : Json :=
  .object error.members

def ApplicationError.ofJson? (value : Json) : Option ApplicationError := do
  let record ← Json.Record.ofJson? [⟨"title", false⟩, ⟨"description", false⟩] value
  let title ← record.required "title" Json.text?
  let description ← record.required "description" Json.text?
  some { title, description }

def Cause.toJson : Cause → Json
  | .application error => Json.withTag "kind" "reload" error.members
  | .compileFailed message =>
      Json.withTag "kind" "compile_failed" [("message", ofOption .string message)]
  | .exception name message =>
      Json.withTag "kind" "exception"
        [("exception", .string name), ("message", ofOption .string message)]

def Cause.ofJson? (scope : Json.Scope) (value : Json) : Option Cause := do
  let (kind, rest) ← Json.tagged? "kind" ["reload", "compile_failed", "exception"] scope value
  if kind = "reload" then
    let error ← ApplicationError.ofJson? rest
    some (.application error)
  else if kind = "compile_failed" then
    let record ← Json.Record.ofJson? [⟨"message", true⟩] rest
    let message ← record.optional "message" Json.text?
    some (.compileFailed message)
  else if kind = "exception" then
    let record ← Json.Record.ofJson? [⟨"exception", false⟩, ⟨"message", true⟩] rest
    let name ← record.required "exception" Json.text?
    let message ← record.optional "message" Json.text?
    some (.exception name message)
  else none

def ConsoleLog.toJson (log : ConsoleLog) : Json :=
  .object [("task", .string log.task), ("lines", Json.ofList .string log.lines)]

def ConsoleLog.ofJson? (value : Json) : Option ConsoleLog := do
  let record ← Json.Record.ofJson? [⟨"task", false⟩, ⟨"lines", true⟩] value
  let task ← record.required "task" Json.text?
  let lines ← record.defaulted "lines" [] (Json.listOf? Json.text?)
  some { task, lines }

def Failure.toJson (failure : Failure) : Json :=
  .object [
    ("cause", ofOption Cause.toJson failure.cause),
    ("problems", ofOption (Json.ofList Diagnostic.toJson) failure.problems),
    ("logs", Json.ofList ConsoleLog.toJson failure.logs)]

def Failure.ofJson? (value : Json) : Option Failure := do
  let record ← Json.Record.ofJson? [⟨"cause", true⟩, ⟨"problems", true⟩, ⟨"logs", true⟩] value
  let cause ← record.optional "cause" (Cause.ofJson? .plain)
  let problems ← record.optional "problems" (Json.listOf? (Diagnostic.ofJson? .plain))
  let logs ← record.defaulted "logs" [] (Json.listOf? ConsoleLog.ofJson?)
  some { cause, problems, logs }

def Verdict.toJson (verdict : Verdict) : Json :=
  Json.withTag "kind" verdict.label <|
    match verdict with
    | .application error => [("cause", error.toJson)]
    | .compileErrors diagnostics => [("diagnostics", Json.ofList Diagnostic.toJson diagnostics)]
    | .unexpected message cause =>
        [("message", ofOption .string message), ("cause", ofOption Cause.toJson cause)]

def Verdict.ofJson? (scope : Json.Scope) (value : Json) : Option Verdict := do
  let (kind, rest) ← Json.tagged? "kind"
    ["already_typed", "structured_compile_failure", "unexpected_failure"] scope value
  if kind = "already_typed" then
    let record ← Json.Record.ofJson? [⟨"cause", false⟩] rest
    let error ← record.required "cause" ApplicationError.ofJson?
    some (.application error)
  else if kind = "structured_compile_failure" then
    let record ← Json.Record.ofJson? [⟨"diagnostics", false⟩] rest
    let diagnostics ← record.required "diagnostics" (Json.listOf? (Diagnostic.ofJson? .tagged))
    some (.compileErrors diagnostics)
  else if kind = "unexpected_failure" then
    let record ← Json.Record.ofJson? [⟨"message", false⟩, ⟨"cause", false⟩] rest
    let message ← record.optional "message" Json.text?
    let cause ← record.optional "cause" (Cause.ofJson? .tagged)
    some (.unexpected message cause)
  else none

end ReloadReport
