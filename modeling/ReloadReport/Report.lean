import ReloadReport.Analysis
import ReloadReport.Failure.Verdict
import ReloadReport.Settings

/-!
# Reports on reload compiles

What a reload reports after each compile: the sources of the compiled units, or why it failed and
where to look.
-/

namespace ReloadReport

inductive Report where
  | success (sources : SourceMap) (classpath : List Path)
  | failure (verdict : Verdict)
  deriving DecidableEq, Repr

/-- A diagnostic in a generated file is moved to the file that the author wrote, to the line that
its line came from. A column of the generated file means nothing there. -/
def Diagnostic.remapped (read : Path → Option String) (diagnostic : Diagnostic) : Diagnostic :=
  match diagnostic.position.sourcePath.bind fun path => Provenance.ofFile? read ⟨path⟩ with
  | none => diagnostic
  | some provenance =>
      { diagnostic with
        position := {
          sourcePath := some provenance.source.text
          line := diagnostic.position.line.bind provenance.sourceLine?
          pointerColumn := none } }

def Verdict.files : Verdict → List Path
  | .compileErrors diagnostics =>
      diagnostics.filterMap fun diagnostic => diagnostic.position.sourcePath.map Path.mk
  | _ => []

def Verdict.remapped (read : Path → Option String) : Verdict → Verdict
  | .compileErrors diagnostics => .compileErrors (diagnostics.map (Diagnostic.remapped read))
  | verdict => verdict

namespace Report

def ofAnalysis (read : Path → Option String) (analysis : Analysis) (classpath : List Path) :
    Except OriginError Report :=
  (analysis.sourceMap read).map fun sources => .success sources classpath

def ofFailure (settings : Settings) (read : Path → Option String) (failure : Failure) : Report :=
  let verdict := failure.verdict settings.logTailLines
  .failure (if settings.remapGenerated then verdict.remapped read else verdict)

end Report
end ReloadReport
