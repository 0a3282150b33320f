import ReloadReport.Proofs.Provenance.LineMarks
import ReloadReport.Proofs.Provenance.Written
import ReloadReport.Proofs.VerdictCases
import ReloadReport.Report

/-!
# Reports on generated files

From a console log to the author's line: an error that a log tells is reported where the author can
mend it, if its file was generated, and as the log tells it otherwise.
-/

namespace ReloadReport

/-- An error with the message of a diagnostic, at a line of the author's file. -/
def Diagnostic.authored (diagnostic : Diagnostic) (source : String) (line : Option UInt32) :
    Diagnostic where
  message := diagnostic.message
  severity := .error
  position := { sourcePath := some source, line, pointerColumn := none }

section remapped

variable {read : Path → Option String} {diagnostic : Diagnostic} {file : String} {line : UInt32}

theorem Diagnostic.remapped_of_plain (named : diagnostic.position.sourcePath = some file)
    (plain : Provenance.ofFile? read ⟨file⟩ = none) : diagnostic.remapped read = diagnostic := by
  rw [remapped, named, Option.bind_some, plain]

theorem Diagnostic.remapped_of_generated (grave : diagnostic.severity = .error)
    (named : diagnostic.position.sourcePath = some file)
    (numbered : diagnostic.position.line = some line) {provenance : Provenance}
    (generated : Provenance.ofFile? read ⟨file⟩ = some provenance) :
    diagnostic.remapped read =
      diagnostic.authored provenance.source.text (provenance.sourceLine? line) := by
  rw [remapped, named, Option.bind_some, generated, authored, numbered, grave]
  rfl

end remapped

namespace Report

open Text Provenance

variable {settings : Settings} {read : Path → Option String} {failure : Failure}

theorem ofFailure_of_told (remaps : settings.remapGenerated = true)
    {diagnostics : List Diagnostic}
    (told : failure.verdict settings.logTailLines = .compileErrors diagnostics) :
    ofFailure settings read failure =
      .failure (.compileErrors (diagnostics.map (Diagnostic.remapped read))) := by
  simp only [ofFailure, told, remaps, if_true, Verdict.remapped]

theorem ofFailure_of_recovered (remaps : settings.remapGenerated = true)
    (compiles : failure.Compiles) (unlisted : failure.problems = none) {diagnostic : Diagnostic}
    (recovered : failure.recovered? settings.logTailLines = some diagnostic) :
    ofFailure settings read failure = .failure (.compileErrors [diagnostic.remapped read]) :=
  ofFailure_of_told remaps (Failure.verdict_of_recovered compiles unlisted recovered)

/-- The error that the first telling log tells is reported alone. In a file that was generated it
is moved to the author's file: by the table of a template to the line of the greatest entry up to
its line, and in routes to the line of the nearest mark at or above it. -/
theorem ofFailure_eq_authored (remaps : settings.remapGenerated = true)
    (compiles : failure.Compiles) (unlisted : failure.problems = none)
    {front back : List ConsoleLog} {log : ConsoleLog} {diagnostic : Diagnostic}
    (logs : failure.logs = front ++ log :: back)
    (silent : ∀ other ∈ front, Log.recover? settings.logTailLines other.lines = none)
    (told : Log.recover? settings.logTailLines log.lines = some diagnostic) :
    ∃ file line, diagnostic.position.sourcePath = some file ∧
      diagnostic.position.line = some line ∧
      ((∀ content, read ⟨file⟩ = some content → ofContent? content = none) →
        ofFailure settings read failure = .failure (.compileErrors [diagnostic])) ∧
      ∀ content, read ⟨file⟩ = some content →
        (∀ source pairs, WritesTemplate content.toList source pairs →
          ∃ author, Table.Leads pairs line author ∧ ofFailure settings read failure =
            .failure (.compileErrors [diagnostic.authored (String.ofList source) author])) ∧
        (∀ source, WritesRoutes content.toList source →
          ∃ marks, ofContent? content = some (.routes ⟨String.ofList source⟩ marks)) ∧
        ∀ source marks, ofContent? content = some (.routes source marks) →
          ∃ author, NearestMark (content.toList.splitOn '\n') line author ∧
            ofFailure settings read failure =
              .failure (.compileErrors [diagnostic.authored source.text author]) := by
  have recovered : failure.recovered? settings.logTailLines = some diagnostic :=
    List.findSome?_eq_some_iff.mpr ⟨front, log, back, logs, told, silent⟩
  have reported : ofFailure settings read failure =
      .failure (.compileErrors [diagnostic.remapped read]) :=
    ofFailure_of_recovered remaps compiles unlisted recovered
  have grave := Log.severity_of_recover? told
  rcases Log.position_of_recover? told with ⟨file, line, named, numbered⟩
  refine ⟨file, line, named, numbered, fun plain => ?_, fun content present => ⟨?_, ?_, ?_⟩⟩
  · have unknown : ofFile? read ⟨file⟩ = none :=
      Option.bind_eq_none_iff.mpr plain
    rw [reported, Diagnostic.remapped_of_plain named unknown]
  · intro source pairs writes
    rcases ofText?_of_writesTemplate writes with ⟨matrix, made⟩
    have generated : ofFile? read ⟨file⟩ = some _ :=
      Option.bind_eq_some_iff.mpr ⟨content, present, made⟩
    refine ⟨_, Table.leads_at?_sorted pairs line, ?_⟩
    rw [reported, Diagnostic.remapped_of_generated grave named numbered generated]
    rfl
  · intro source writes
    exact ⟨_, ofText?_of_writesRoutes writes⟩
  · intro source marks made
    have generated : ofFile? read ⟨file⟩ = some _ :=
      Option.bind_eq_some_iff.mpr ⟨content, present, made⟩
    refine ⟨_, nearestMark_splitOn content.toList line, ?_⟩
    rw [reported, Diagnostic.remapped_of_generated grave named numbered generated,
      eq_lineMarkers_of_routes made]
    rfl

def unsortedTemplate : String :=
  "/*\n-- GENERATED --\n SOURCE: app/a.html\nLINES: 20->4|14->1| 14 -> 2\r\n*/"

def strayCaret : ConsoleLog where
  task := "update"
  lines := ["[error]  ^"]

def missingTitle : ConsoleLog where
  task := "compile"
  lines := ["[error] a.scala:15: no title", "[error]  ^"]

theorem writesTemplate_unsortedTemplate :
    WritesTemplate unsortedTemplate.toList "app/a.html".toList [(20, 4), (14, 1), (14, 2)] := by
  have opened : cutAtFirst? blockMark unsortedTemplate.toList = some ("/*\n".toList,
      "\n SOURCE: app/a.html\nLINES: 20->4|14->1| 14 -> 2\r\n*/".toList) := by
    decide
  have blockLines : ("\n SOURCE: app/a.html\nLINES: 20->4|14->1| 14 -> 2\r\n*/".toList.splitOn
      '\n').tail = [" SOURCE: app/a.html".toList,
        "LINES: 20->4|14->1| 14 -> 2\r".toList, "*/".toList] := by
    decide
  have named : Labels "SOURCE:".toList " SOURCE: app/a.html".toList " app/a.html".toList :=
    ⟨[' '], by decide, by simp [isGap]⟩
  have tabled : Labels "LINES:".toList "LINES: 20->4|14->1| 14 -> 2\r".toList
      " 20->4|14->1| 14 -> 2\r".toList :=
    ⟨[], by decide, by simp⟩
  have untabled : ∀ value, ¬ Labels "LINES:".toList " SOURCE: app/a.html".toList value := by
    intro value labels
    have read := (labelled?_eq_some_iff rfl rfl).mpr labels
    have unread : labelled? "LINES:".toList " SOURCE: app/a.html".toList = none := by decide
    rw [unread] at read
    cases read
  have listed : Table.WritesTable " 20->4|14->1| 14 -> 2".toList [(20, 4), (14, 1), (14, 2)] := by
    refine .inr ⟨[" 20->4".toList, "14->1".toList, " 14 -> 2".toList], by decide, by decide, ?_⟩
    exact .cons (Table.entry?_eq_some_iff.mp (by decide))
      (.cons (Table.entry?_eq_some_iff.mp (by decide))
        (.cons (Table.entry?_eq_some_iff.mp (by decide)) .nil))
  have names : NamesFile " app/a.html".toList "app/a.html".toList :=
    ⟨⟨[' '], [], by decide, by simp [isGap], by simp⟩, by decide, by simp [isGap],
      by simp [isBlank]⟩
  have holds : HoldsTable " 20->4|14->1| 14 -> 2\r".toList [(20, 4), (14, 1), (14, 2)] :=
    ⟨" 20->4|14->1| 14 -> 2".toList, ['\r'], by decide, .inr rfl, by decide, listed⟩
  exact ⟨_, _, _, _, cutAtFirst?_eq_some_iff.mp opened,
    ⟨[], _, _, blockLines, named, by simp⟩, names,
    ⟨[" SOURCE: app/a.html".toList], _, _, blockLines, tabled, by simpa using untabled⟩, holds⟩

/-- The first log has no error to tell, and of the two entries for one line the later counts. -/
theorem ofFailure_unsortedTemplate :
    ofFailure {} (fun _ => some unsortedTemplate) { logs := [strayCaret, missingTitle] } =
      .failure (.compileErrors [{
        message := "no title", severity := .error,
        position := { sourcePath := some "app/a.html", line := some 2 } }]) := by
  have silent : ∀ other ∈ [strayCaret], Log.recover? none other.lines = none := by
    decide
  have told : Log.recover? none missingTitle.lines =
      some ((Diagnostic.ofError "no title").atLine "a.scala" 15 |>.atColumn 1) := by
    decide
  have parts : [(20, 4), (14, 1), (14, 2)] =
      [(20, 4), (14, 1)] ++ ((14, 2) : UInt32 × UInt32) :: [] :=
    rfl
  have leads : Table.Leads [(20, 4), (14, 1), (14, 2)] 15 (some 2) :=
    .entry parts (by decide) (by simp) (by simp)
  rcases @ofFailure_eq_authored {} (fun _ => some unsortedTemplate)
      { logs := [strayCaret, missingTitle] } rfl (.inl rfl) rfl [strayCaret] [] missingTitle _ rfl
      silent told with ⟨file, line, _, numbered, _, generated⟩
  cases numbered
  rcases (generated unsortedTemplate rfl).1 _ _ writesTemplate_unsortedTemplate with
    ⟨author, authorLeads, reported⟩
  cases authorLeads.unique leads
  exact reported

end Report

end ReloadReport
