import ReloadReport.Files
import ReloadReport.Proofs.RemappedReport
import ReloadReport.Proofs.SourceLinks

/-!
# The file to edit

A report on a compile that succeeded and a report on one that failed lead to the same file. Both ask
the file at a path what it was generated from, and every spelling of the path has the same answer.
-/

namespace ReloadReport

section links

variable {left right : Path}

theorem SourceLink.authoredPath_ofPath_of_same (files : Files) (same : left.Same right) :
    (ofPath files.read left).authoredPath = (ofPath files.read right).authoredPath := by
  simp only [ofPath, Provenance.ofFile?, files.read_eq_of_same same]

/-- Two spellings of a path have one file to edit, though it may be spelled in two ways as well. -/
theorem SourceLink.editablePath_ofPath_of_same (files : Files) (same : left.Same right) :
    (ofPath files.read left).editablePath.Same (ofPath files.read right).editablePath := by
  rw [editablePath, editablePath, authoredPath_ofPath_of_same files same]
  cases (ofPath files.read right).authoredPath with
  | none => exact same
  | some author => exact Path.Same.refl author

variable {stated : Descriptor} {path : Path}

theorem Analysis.sourceMap_withClass (read : Path → Option String)
    (leads : stated.Leads (some path)) (name : String) :
    ∃ sources, (({} : Analysis).withClass name [stated]).sourceMap read = .ok sources ∧
      sources.find? name = some (SourceLink.ofPath read path) := by
  have first : FirstStated [(name, [stated])] name stated :=
    ⟨[], [], [], rfl, by simp⟩
  cases done : (ofClasses [(name, [stated])]).sourceMap read with
  | error problem =>
      rcases sourceMap_eq_error_iff.mp done with ⟨other, ⟨failing, ⟨others, given⟩, fails⟩, _⟩
      rcases given with ⟨front, back, parts, _⟩
      have member : (other, failing :: others) ∈ [(name, [stated])] := by simp [parts]
      cases List.mem_singleton.mp member
      cases (Descriptor.path?_of_leads leads).symm.trans (Descriptor.path?_of_fails fails)
  | ok sources =>
      exact ⟨sources, done, (find?_of_sourceMap_ok done).mpr ⟨stated, first, leads, rfl⟩⟩

end links

section reports

variable {diagnostic : Diagnostic} {file : String}

theorem Diagnostic.sourcePath_remapped (read : Path → Option String)
    (named : diagnostic.position.sourcePath = some file) :
    (diagnostic.remapped read).position.sourcePath =
      some (SourceLink.ofPath read ⟨file⟩).editablePath.text := by
  rw [remapped, named, Option.bind_some, SourceLink.editablePath, SourceLink.ofPath]
  cases Provenance.ofFile? read ⟨file⟩ with
  | none => exact named
  | some provenance => rfl

namespace Report

variable {settings : Settings} {stated : Descriptor} {path : Path} {failure : Failure}
  {diagnostics : List Diagnostic}

/-- Where an error that is reported names a file by any spelling of the path to which the origin of
a unit leads, both reports lead to the same file: to the author's file where that file was
generated, and else to that file as it is named. -/
theorem ofFailure_same_editablePath (files : Files) (remaps : settings.remapGenerated = true)
    (leads : stated.path? = .ok (some path))
    (told : failure.verdict settings.logTailLines = .compileErrors diagnostics)
    (member : diagnostic ∈ diagnostics) (named : diagnostic.position.sourcePath = some file)
    (same : Path.Same ⟨file⟩ path) (name : String) (classpath : List Path) :
    ∃ sources link reported,
      ofAnalysis files.read (({} : Analysis).withClass name [stated]) classpath =
        .ok (.success sources classpath) ∧
      sources.find? name = some link ∧ link.resolvedPath = path ∧
      ofFailure settings files.read failure = .failure (.compileErrors [reported]) ∧
      (∀ author, link.authoredPath = some author →
        reported.position.sourcePath = some author.text) ∧
      (link.authoredPath = none → reported = diagnostic) ∧
      ∃ edited, reported.position.sourcePath = some edited ∧
        Path.Same ⟨edited⟩ link.editablePath := by
  rcases Analysis.sourceMap_withClass files.read (Descriptor.path?_eq_ok_iff.mp leads) name with
    ⟨sources, mapped, linked⟩
  have alone : diagnostics = [diagnostic] := by
    have explains := Failure.explains_verdict settings.logTailLines failure
    rw [told] at explains
    rcases explains.exists_error with ⟨only, rfl, _⟩
    rw [List.mem_singleton.mp member]
  subst alone
  have authored := SourceLink.authoredPath_ofPath_of_same files same
  have reported := Diagnostic.sourcePath_remapped files.read named
  refine ⟨sources, SourceLink.ofPath files.read path, diagnostic.remapped files.read, ?_, linked,
    rfl, ofFailure_of_told remaps told, fun author found => ?_, fun missing => ?_, _, reported,
    SourceLink.editablePath_ofPath_of_same files same⟩
  · rw [ofAnalysis, mapped]
    rfl
  · rw [reported, SourceLink.editablePath, authored, found, Option.getD_some]
  · rw [← authored] at missing
    exact Diagnostic.remapped_of_plain named (Option.map_eq_none_iff.mp missing)

def respelledFiles : Files :=
  .ofList [(⟨"/p/out/index.scala"⟩, "-- GENERATED --\nSOURCE: app/index.html\nLINES: 3->1\n")]

def respelledProblem : Diagnostic :=
  (Diagnostic.ofError "no title").atLine "/p/./out/index.scala/" 4

/-- The analysis, the compiler and the files in memory each spell the path in a way of their own. -/
theorem ofFailure_same_editablePath_respelled :
    Path.Same ⟨"/p/./out/index.scala/"⟩ ⟨"/p//out/index.scala"⟩ ∧
      ∃ sources link reported,
        ofAnalysis respelledFiles.read (({} : Analysis).withClass "index"
          [.absolute "/p//out/index.scala"]) [] = .ok (.success sources []) ∧
        sources.find? "index" = some link ∧
        ofFailure {} respelledFiles.read { problems := some [respelledProblem] } =
          .failure (.compileErrors [reported]) ∧
        ∃ edited, reported.position.sourcePath = some edited ∧
          Path.Same ⟨edited⟩ link.editablePath := by
  have remaps : ({} : Settings).remapGenerated = true := rfl
  have leads : Descriptor.path? (.absolute "/p//out/index.scala") =
      .ok (some ⟨"/p//out/index.scala"⟩) := rfl
  have told : Failure.verdict ({} : Settings).logTailLines
      { problems := some [respelledProblem] } = .compileErrors [respelledProblem] := by
    decide
  have same : Path.Same ⟨"/p/./out/index.scala/"⟩ ⟨"/p//out/index.scala"⟩ := by
    decide
  rcases ofFailure_same_editablePath respelledFiles remaps leads told List.mem_cons_self rfl same
      "index" [] with
    ⟨sources, link, reported, succeeded, linked, _, failed, _, _, edited⟩
  exact ⟨same, sources, link, reported, succeeded, linked, failed, edited⟩

end Report
end reports
end ReloadReport
