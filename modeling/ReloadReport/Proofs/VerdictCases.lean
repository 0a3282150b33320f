import ReloadReport.Failure.Verdict
import ReloadReport.Proofs.Log.ScanRun

/-!
# The cases of a verdict

Which explanation of a failed build applies, as a table of cases that exclude each other. The
verdict is the one of the table, and depends on nothing that the table does not mention.
-/

namespace ReloadReport.Failure

def Compiles (failure : Failure) : Prop :=
  failure.cause = none ∨ ∃ message, failure.cause = some (.compileFailed message)

/-- The first diagnostic that a log tells, every log being read on its own. -/
def recovered? (limit : Option UInt64) (failure : Failure) : Option Diagnostic :=
  failure.logs.findSome? fun log => Log.recover? limit log.lines

inductive Explains (limit : Option UInt64) (failure : Failure) : Verdict → Prop
  | application (cause : failure.cause = some (.application error)) :
      Explains limit failure (.application error)
  | exception (cause : failure.cause = some (.exception name message)) :
      Explains limit failure (.unexpected none failure.cause)
  | problem (compiles : failure.Compiles)
      (listed : failure.problems = some (front ++ problem :: back))
      (harmless : ∀ other ∈ front, other.severity ≠ .error) (grave : problem.severity = .error) :
      Explains limit failure (.compileErrors [problem])
  | harmless (compiles : failure.Compiles) (listed : failure.problems = some diagnostics)
      (harmless : ∀ other ∈ diagnostics, other.severity ≠ .error) :
      Explains limit failure (.unexpected
        (some "The compilation failed without reporting any problem!") failure.cause)
  | log (compiles : failure.Compiles) (unlisted : failure.problems = none)
      (logs : failure.logs = front ++ log :: back)
      (silent : ∀ other ∈ front, Log.recover? limit other.lines = none)
      (told : Log.recover? limit log.lines = some diagnostic) :
      Explains limit failure (.compileErrors [diagnostic])
  | silent (compiles : failure.Compiles) (unlisted : failure.problems = none)
      (silent : ∀ log ∈ failure.logs, Log.recover? limit log.lines = none)
      (known : ¬ (failure.cause = none ∧ failure.logs = [])) :
      Explains limit failure (.unexpected
        (some "The compilation failed without reporting any problem!") failure.cause)
  | unknown (cause : failure.cause = none) (unlisted : failure.problems = none)
      (logs : failure.logs = []) :
      Explains limit failure (.unexpected
        (some "The compilation task failed without any exception!") failure.cause)

/-- What is known of two failed compiles comes to the same: the first error that is listed, or,
where there is no list, the first that a log tells, and whether there are logs. -/
structure SameEvidence (limit : Option UInt64) (failure : Failure) (otherLimit : Option UInt64)
    (other : Failure) : Prop where
  problems : other.problems.map (·.find? Diagnostic.isError) =
    failure.problems.map (·.find? Diagnostic.isError)
  recovered : failure.problems = none → other.recovered? otherLimit = failure.recovered? limit
  logs : failure.problems = none → (other.logs = [] ↔ failure.logs = [])

variable {limit : Option UInt64} {failure : Failure}

theorem isError_iff {diagnostic : Diagnostic} :
    diagnostic.isError ↔ diagnostic.severity = .error := by
  simp [Diagnostic.isError]

section cases

theorem verdict_of_application {error : ApplicationError}
    (cause : failure.cause = some (.application error)) :
    failure.verdict limit = .application error := by
  simp [verdict, byApplication?, cause]

theorem verdict_of_exception {name : String} {message : Option String}
    (cause : failure.cause = some (.exception name message)) :
    failure.verdict limit = .unexpected none failure.cause := by
  simp [verdict, byApplication?, byException?, cause]

theorem verdict_of_compiles (compiles : failure.Compiles) :
    failure.verdict limit = (failure.byProblems?.or (failure.byLogs? limit)).getD
      failure.unexplained := by
  rcases compiles with cause | ⟨message, cause⟩
  · simp [verdict, byApplication?, byException?, cause]
  · simp [verdict, byApplication?, byException?, cause]

theorem verdict_of_problem (compiles : failure.Compiles) {problems : List Diagnostic}
    (listed : failure.problems = some problems) {problem : Diagnostic}
    (found : problems.find? Diagnostic.isError = some problem) :
    failure.verdict limit = .compileErrors [problem] := by
  simp [verdict_of_compiles compiles, byProblems?, listed, found]

theorem verdict_of_harmless (compiles : failure.Compiles) {problems : List Diagnostic}
    (listed : failure.problems = some problems)
    (missing : problems.find? Diagnostic.isError = none) :
    failure.verdict limit = .unexpected (some noProblem) failure.cause := by
  simp [verdict_of_compiles compiles, byProblems?, listed, missing]

theorem verdict_of_recovered (compiles : failure.Compiles) (unlisted : failure.problems = none)
    {diagnostic : Diagnostic} (found : failure.recovered? limit = some diagnostic) :
    failure.verdict limit = .compileErrors [diagnostic] := by
  rw [recovered?] at found
  simp [verdict_of_compiles compiles, byProblems?, unlisted, byLogs?, found]

theorem verdict_of_silent (compiles : failure.Compiles) (unlisted : failure.problems = none)
    (missing : failure.recovered? limit = none) :
    failure.verdict limit = failure.unexplained := by
  rw [recovered?] at missing
  simp [verdict_of_compiles compiles, byProblems?, unlisted, byLogs?, missing]

theorem unexplained_of_known (known : ¬ (failure.cause = none ∧ failure.logs = [])) :
    failure.unexplained = .unexpected (some noProblem) failure.cause := by
  simp [unexplained, known]

theorem unexplained_of_unknown (cause : failure.cause = none) (logs : failure.logs = []) :
    failure.unexplained = .unexpected (some noException) failure.cause := by
  simp [unexplained, cause, logs]

end cases

theorem cause_cases (failure : Failure) :
    (∃ error, failure.cause = some (.application error)) ∨
      (∃ name message, failure.cause = some (.exception name message)) ∨ failure.Compiles := by
  cases cause : failure.cause with
  | none => exact .inr (.inr (.inl cause))
  | some known =>
      cases known with
      | application error => exact .inl ⟨error, rfl⟩
      | compileFailed message => exact .inr (.inr (.inr ⟨message, cause⟩))
      | exception name message => exact .inr (.inl ⟨name, message, rfl⟩)

theorem explains_verdict (limit : Option UInt64) (failure : Failure) :
    Explains limit failure (failure.verdict limit) := by
  rcases failure.cause_cases with ⟨error, cause⟩ | ⟨name, message, cause⟩ | compiles
  · rw [verdict_of_application cause]
    exact .application cause
  · rw [verdict_of_exception cause]
    exact .exception cause
  · cases listed : failure.problems with
    | some problems =>
        cases found : problems.find? Diagnostic.isError with
        | some problem =>
            rw [verdict_of_problem compiles listed found]
            rcases List.find?_eq_some_iff_append.mp found with ⟨grave, front, back, rfl, harmless⟩
            refine .problem compiles listed (fun other member isError => ?_) (isError_iff.mp grave)
            simpa [isError_iff.mpr isError] using harmless other member
        | none =>
            rw [verdict_of_harmless compiles listed found]
            apply Explains.harmless compiles listed
            intro other member isError
            exact List.find?_eq_none.mp found other member (isError_iff.mpr isError)
    | none =>
        cases found : failure.recovered? limit with
        | some diagnostic =>
            rw [verdict_of_recovered compiles listed found]
            rcases List.findSome?_eq_some_iff.mp found with ⟨front, log, back, logs, told, silent⟩
            exact .log compiles listed logs silent told
        | none =>
            rw [verdict_of_silent compiles listed found]
            by_cases unknown : failure.cause = none ∧ failure.logs = []
            · rw [unexplained_of_unknown unknown.1 unknown.2]
              exact .unknown unknown.1 listed unknown.2
            · rw [unexplained_of_known unknown]
              exact .silent compiles listed (List.findSome?_eq_none_iff.mp found) unknown

theorem verdict_of_explains {verdict : Verdict} (explains : Explains limit failure verdict) :
    failure.verdict limit = verdict := by
  cases explains with
  | application cause => exact verdict_of_application cause
  | exception cause => exact verdict_of_exception cause
  | @problem front problem back compiles listed harmless grave =>
      refine verdict_of_problem compiles listed (List.find?_eq_some_iff_append.mpr
        ⟨isError_iff.mpr grave, front, back, rfl, fun other member => ?_⟩)
      simpa [Diagnostic.isError] using harmless other member
  | @harmless diagnostics compiles listed harmless =>
      have noError : ∀ other ∈ diagnostics, ¬ other.isError := fun other member isError =>
        harmless other member (isError_iff.mp isError)
      exact verdict_of_harmless compiles listed (List.find?_eq_none.mpr noError)
  | log compiles unlisted logs silent told =>
      exact verdict_of_recovered compiles unlisted
        (List.findSome?_eq_some_iff.mpr ⟨_, _, _, logs, told, silent⟩)
  | silent compiles unlisted silent known =>
      rw [verdict_of_silent compiles unlisted (List.findSome?_eq_none_iff.mpr silent)]
      exact unexplained_of_known known
  | unknown cause unlisted logs =>
      have missing : failure.recovered? limit = none := by rw [recovered?, logs]; rfl
      rw [verdict_of_silent (.inl cause) unlisted missing]
      exact unexplained_of_unknown cause logs

theorem Explains.exists_error {diagnostics : List Diagnostic}
    (explains : Explains limit failure (.compileErrors diagnostics)) :
    ∃ diagnostic, diagnostics = [diagnostic] ∧ diagnostic.severity = .error := by
  cases explains with
  | problem _ _ _ grave => exact ⟨_, rfl, grave⟩
  | log _ _ _ _ told => exact ⟨_, rfl, Log.severity_of_recover? told⟩

theorem verdict_congr {other : Failure} {otherLimit : Option UInt64}
    (sameCause : other.cause = failure.cause)
    (evidence : failure.Compiles → SameEvidence limit failure otherLimit other) :
    other.verdict otherLimit = failure.verdict limit := by
  rcases failure.cause_cases with ⟨error, cause⟩ | ⟨name, message, cause⟩ | compiles
  · rw [verdict_of_application cause, verdict_of_application (sameCause.trans cause)]
  · rw [verdict_of_exception cause, verdict_of_exception (sameCause.trans cause), sameCause]
  · have otherCompiles : other.Compiles := by rwa [Compiles, sameCause]
    have same := evidence compiles
    cases listed : failure.problems with
    | some problems =>
        have sameProblems := same.problems
        rw [listed, Option.map_some, Option.map_eq_some_iff] at sameProblems
        rcases sameProblems with ⟨otherProblems, otherListed, sameFound⟩
        cases found : problems.find? Diagnostic.isError with
        | some problem =>
            rw [verdict_of_problem compiles listed found,
              verdict_of_problem otherCompiles otherListed (sameFound.trans found)]
        | none =>
            rw [verdict_of_harmless compiles listed found,
              verdict_of_harmless otherCompiles otherListed (sameFound.trans found), sameCause]
    | none =>
        have otherUnlisted : other.problems = none := by simpa [listed] using same.problems
        cases found : failure.recovered? limit with
        | some diagnostic =>
            rw [verdict_of_recovered compiles listed found, verdict_of_recovered otherCompiles
              otherUnlisted ((same.recovered listed).trans found)]
        | none =>
            have sameEmpty : other.logs.isEmpty = failure.logs.isEmpty := by
              rw [Bool.eq_iff_iff, List.isEmpty_iff, List.isEmpty_iff]
              exact same.logs listed
            rw [verdict_of_silent compiles listed found, verdict_of_silent otherCompiles
              otherUnlisted ((same.recovered listed).trans found), unexplained, unexplained,
              sameCause, sameEmpty]

/-- The verdict is the explanation of the table. Errors in the sources are told one at a time, and
nothing makes a difference but the cause and the evidence for a failed compile. -/
theorem verdict_eq_iff_explains (limit : Option UInt64) (failure : Failure) :
    (∀ verdict, failure.verdict limit = verdict ↔ Explains limit failure verdict) ∧
      (∀ diagnostics, failure.verdict limit = .compileErrors diagnostics →
        ∃ diagnostic, diagnostics = [diagnostic] ∧ diagnostic.severity = .error) ∧
      ∀ (other : Failure) (otherLimit : Option UInt64), other.cause = failure.cause →
        (failure.Compiles → SameEvidence limit failure otherLimit other) →
        other.verdict otherLimit = failure.verdict limit := by
  refine ⟨fun verdict => ⟨?_, verdict_of_explains⟩, fun diagnostics told => ?_,
    fun other otherLimit => verdict_congr⟩
  · rintro rfl
    exact explains_verdict limit failure
  · have explains := explains_verdict limit failure
    rw [told] at explains
    exact explains.exists_error

end ReloadReport.Failure
