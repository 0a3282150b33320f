import ReloadReport.Files
import ReloadReport.Proofs.SourceLinks
import ReloadReport.Proofs.VerdictCases
import ReloadReport.Report

/-!
# The files that a report asks for

A report reads the files to which the origins of the units lead, or the file in which the error of a
failed compile is, and no other file. What the author wrote is not read, only named.
-/

namespace ReloadReport

namespace Files

/-- The files have a text at a path, whatever the spelling under which it was put there. Of several
entries for the path the first one counts. -/
def Holds (files : Files) (path : Path) (text : String) : Prop :=
  ∃ front spelling back, files.entries = front ++ (spelling, text) :: back ∧
    spelling.Same path ∧ ∀ other ∈ front, ¬ other.1.Same path

def Agree (files others : Files) (path : Path) : Prop :=
  ∀ text, files.Holds path text ↔ others.Holds path text

variable {files others : Files} {key spelling path : Path} {text : String}

theorem read_eq_some_iff : files.read path = some text ↔ files.Holds path text := by
  simp only [read, Option.map_eq_some_iff, List.find?_eq_some_iff_append]
  constructor
  · rintro ⟨⟨spelling, _⟩, ⟨same, front, back, parts, others⟩, rfl⟩
    refine ⟨front, spelling, back, parts, by simpa using same, fun other member => ?_⟩
    simpa using others other member
  · rintro ⟨front, spelling, back, parts, same, others⟩
    refine ⟨(spelling, text), ⟨by simpa using same, front, back, parts, fun other member => ?_⟩, rfl⟩
    simpa using others other member

theorem agree_iff : files.Agree others path ↔ files.read path = others.read path := by
  simp only [Agree, ← read_eq_some_iff]
  exact ⟨Option.ext, fun same text => by rw [same]⟩

theorem read_remove_of_same (same : key.Same path) : (files.remove key).read path = none := by
  rw [read, Option.map_eq_none_iff, List.find?_eq_none]
  intro entry member leads
  have apart : ¬ entry.1.Same key := by simpa [remove] using (List.mem_filter.mp member).2
  exact apart ((of_decide_eq_true leads).trans same.symm)

theorem read_remove_of_not_same (different : ¬ key.Same path) :
    (files.remove key).read path = files.read path := by
  have put := files.read_put_of_not_same "" different
  rw [← put]
  simp [read, Files.put, different]

theorem read_put_congr (same : key.Same spelling) (path : Path) :
    (files.put key text).read path = (files.put spelling text).read path := by
  by_cases here : key.Same path
  · rw [read_put_of_same files text here, read_put_of_same files text (same.symm.trans here)]
  · have there : ¬ spelling.Same path := fun leads => here (same.trans leads)
    rw [read_put_of_not_same files text here, read_put_of_not_same files text there]

theorem read_remove_congr (same : key.Same spelling) (path : Path) :
    (files.remove key).read path = (files.remove spelling).read path := by
  by_cases here : key.Same path
  · rw [read_remove_of_same here, read_remove_of_same (same.symm.trans here)]
  · have there : ¬ spelling.Same path := fun leads => here (same.trans leads)
    rw [read_remove_of_not_same here, read_remove_of_not_same there]

end Files

inductive Compile where
  | succeeded (analysis : Analysis) (classpath : List Path)
  | failed (failure : Failure)

namespace Compile

def report (settings : Settings) (files : Files) : Compile → Except OriginError Report
  | .succeeded analysis classpath => Report.ofAnalysis files.read analysis classpath
  | .failed failure => .ok (Report.ofFailure settings files.read failure)

/-- The report on a compile asks for a path: the first origin of a unit leads there, or the error
that explains the failure is there and is to be moved out of generated files. -/
inductive Asks (settings : Settings) : Compile → Path → Prop
  | origin {analysis : Analysis} {stated : Descriptor}
      (given : analysis.classes.find? name = some (stated :: others))
      (leads : stated.Leads (some path)) : Asks settings (.succeeded analysis classpath) path
  | error {failure : Failure} {diagnostic : Diagnostic} {path : Path}
      (remaps : settings.remapGenerated = true)
      (told : failure.verdict settings.logTailLines = .compileErrors [diagnostic])
      (named : diagnostic.position.sourcePath = some path.text) :
      Asks settings (.failed failure) path

variable {settings : Settings} {read other : Path → Option String}

section stages

theorem ofFile?_congr {path : Path} (same : read path = other path) :
    Provenance.ofFile? read path = Provenance.ofFile? other path := by
  rw [Provenance.ofFile?, Provenance.ofFile?, same]

/-- A link tells what the file says that its unit was compiled from, and no more. -/
theorem sourceMap_eq_of_asked {analysis : Analysis} {classpath : List Path}
    (same : ∀ path, Asks settings (.succeeded analysis classpath) path → read path = other path) :
    analysis.sourceMap read = analysis.sourceMap other := by
  have built := Analysis.ofClasses_entries analysis
  generalize analysis.classes.entries = classes at built
  subst built
  have links : ∀ name link, Analysis.Links read classes name link ↔
      Analysis.Links other classes name link := by
    have authored : ∀ name stated path, Analysis.FirstStated classes name stated →
        stated.Leads (some path) →
        Provenance.ofFile? read path = Provenance.ofFile? other path := by
      rintro name stated path ⟨others, given⟩ leads
      exact ofFile?_congr (same path (.origin (Analysis.find?_classes_ofClasses.mpr given) leads))
    intro name link
    constructor
    · rintro ⟨stated, first, leads, author⟩
      exact ⟨stated, first, leads, by rw [← authored name stated _ first leads, author]⟩
    · rintro ⟨stated, first, leads, author⟩
      exact ⟨stated, first, leads, by rw [authored name stated _ first leads, author]⟩
  apply ByName.traverse_congr
  · intro name problem
    rw [Analysis.exists_ofOrigins_error_iff, Analysis.exists_ofOrigins_error_iff]
  · intro name link
    rw [Analysis.exists_ofOrigins_ok_iff, Analysis.exists_ofOrigins_ok_iff, links]

/-- Of the file that the report on a failure asks for, only what it says about its origin counts. -/
theorem ofFailure_eq_of_asked {failure : Failure}
    (same : ∀ path, Asks settings (.failed failure) path →
      Provenance.ofFile? read path = Provenance.ofFile? other path) :
    Report.ofFailure settings read failure = Report.ofFailure settings other failure := by
  cases remaps : settings.remapGenerated with
  | false => simp [Report.ofFailure, remaps]
  | true =>
      cases told : failure.verdict settings.logTailLines with
      | application error => simp [Report.ofFailure, told, Verdict.remapped]
      | unexpected message cause => simp [Report.ofFailure, told, Verdict.remapped]
      | compileErrors diagnostics =>
          have explains := Failure.explains_verdict settings.logTailLines failure
          rw [told] at explains
          rcases explains.exists_error with ⟨diagnostic, rfl, _⟩
          have remapped : diagnostic.remapped read = diagnostic.remapped other := by
            cases named : diagnostic.position.sourcePath with
            | none => simp [Diagnostic.remapped, named]
            | some file =>
                have asked : Asks settings (.failed failure) ⟨file⟩ := .error remaps told named
                simp only [Diagnostic.remapped, named, Option.bind_some,
                  same ⟨file⟩ asked]
          simp [Report.ofFailure, told, Verdict.remapped, remapped]

theorem report_congr {files others : Files} (compile : Compile)
    (same : ∀ path, Asks settings compile path → files.read path = others.read path) :
    compile.report settings files = compile.report settings others := by
  cases compile with
  | succeeded analysis classpath =>
      simp only [report, Report.ofAnalysis, sourceMap_eq_of_asked same]
  | failed failure =>
      have told := ofFailure_eq_of_asked fun path asked => ofFile?_congr (same path asked)
      simp only [report, told]

theorem not_asks_failed {failure : Failure}
    (unasked : settings.remapGenerated = false ∨
      (∀ diagnostics, failure.verdict settings.logTailLines ≠ .compileErrors diagnostics) ∨
      ∃ diagnostic, failure.verdict settings.logTailLines = .compileErrors [diagnostic] ∧
        diagnostic.position.sourcePath = none) (path : Path) :
    ¬ Asks settings (.failed failure) path := by
  intro asks
  cases asks with
  | error remaps told named =>
      rcases unasked with off | untold | ⟨diagnostic, otherTold, unnamed⟩
      · cases remaps.symm.trans off
      · exact untold _ told
      · cases told.symm.trans otherTold
        cases named.symm.trans unnamed

end stages

/-- A report is the same against any two collections of files that agree, up to the spelling of
paths, at the paths that it asks for. A file at another path makes no difference, such as the
author's file that a generated one names, and every spelling of a path is one file. -/
theorem report_eq_of_agree (settings : Settings) (compile : Compile) (files : Files) :
    (∀ others, (∀ path, Asks settings compile path → files.Agree others path) →
      compile.report settings files = compile.report settings others) ∧
      (∀ failure others, compile = .failed failure →
        settings.remapGenerated = false ∨
          (∀ diagnostics, failure.verdict settings.logTailLines ≠ .compileErrors diagnostics) ∨
          (∃ diagnostic, failure.verdict settings.logTailLines = .compileErrors [diagnostic] ∧
            diagnostic.position.sourcePath = none) →
        compile.report settings files = compile.report settings others) ∧
      (∀ key text, (∀ path, Asks settings compile path → ¬ key.Same path) →
        compile.report settings (files.put key text) = compile.report settings files ∧
          compile.report settings (files.remove key) = compile.report settings files) ∧
      (∀ path provenance text, Asks settings compile path →
        Provenance.ofFile? files.read path = some provenance →
        (∀ asked, Asks settings compile asked → ¬ provenance.source.Same asked) →
        compile.report settings (files.put provenance.source text) =
            compile.report settings files ∧
          compile.report settings (files.remove provenance.source) =
            compile.report settings files) ∧
      ∀ key spelling text, Path.Same key spelling →
        (files.put key text).Holds spelling text ∧
          (∀ held, ¬ (files.remove key).Holds spelling held) ∧
          compile.report settings (files.put key text) =
            compile.report settings (files.put spelling text) ∧
          compile.report settings (files.remove key) =
            compile.report settings (files.remove spelling) := by
  have elsewhere : ∀ key text, (∀ path, Asks settings compile path → ¬ Path.Same key path) →
      compile.report settings (files.put key text) = compile.report settings files ∧
        compile.report settings (files.remove key) = compile.report settings files :=
    fun key text apart =>
      ⟨compile.report_congr fun path asked => files.read_put_of_not_same text (apart path asked),
        compile.report_congr fun path asked => Files.read_remove_of_not_same (apart path asked)⟩
  refine ⟨fun others agree => compile.report_congr fun path asked =>
      Files.agree_iff.mp (agree path asked), ?_, elsewhere,
    fun _ provenance text _ _ apart => elsewhere provenance.source text apart, ?_⟩
  · rintro failure others rfl unasked
    exact report_congr _ fun path asked => absurd asked (not_asks_failed unasked path)
  · intro key spelling text same
    refine ⟨Files.read_eq_some_iff.mp (files.read_put_of_same text same), fun held holds => ?_,
      compile.report_congr fun path _ => Files.read_put_congr same path,
      compile.report_congr fun path _ => Files.read_remove_congr same path⟩
    cases (Files.read_eq_some_iff.mpr holds).symm.trans (Files.read_remove_of_same same)

def routesFailure : Failure :=
  { problems := some [⟨"not found", .error, ⟨some "target/routes.scala", some 4, some 0⟩⟩] }

/-- The file that is asked for counts under any spelling, and what the author wrote does not. -/
theorem report_eq_of_authored :
    let generated := "// @SOURCE:conf/routes\n\n// @LINE:7\n"
    let files : Files := ⟨[(⟨"target/routes.scala"⟩, generated), (⟨"conf/routes"⟩, "GET /a")]⟩
    let others : Files := ⟨[(⟨"conf/routes"⟩, "GET /b"), (⟨"target//./routes.scala"⟩, generated)]⟩
    (∀ path, Asks {} (.failed routesFailure) path → files.Agree others path) ∧
      ¬ files.Agree others ⟨"conf/routes"⟩ ∧
      Compile.report {} files (.failed routesFailure) =
        Compile.report {} others (.failed routesFailure) := by
  intro generated files others
  have agree : ∀ path, Asks {} (.failed routesFailure) path → files.Agree others path := by
    intro path asks
    cases asks with
    | error remaps told named =>
        have problem : routesFailure.verdict none = .compileErrors
            [⟨"not found", .error, ⟨some "target/routes.scala", some 4, some 0⟩⟩] := by
          decide
        cases problem.symm.trans told
        have asked : path = ⟨"target/routes.scala"⟩ := congrArg Path.mk (Option.some.inj named).symm
        rw [asked, Files.agree_iff]
        decide
  refine ⟨agree, ?_, (report_eq_of_agree {} (.failed routesFailure) files).1 others agree⟩
  rw [Files.agree_iff]
  decide

end Compile
end ReloadReport
