import ReloadReport.Failure
import ReloadReport.Log.Scan

/-!
# Verdicts on failed builds

What is told about a failed build. The possible explanations stand in a fixed order, and the first
one that applies is the verdict.
-/

namespace ReloadReport

inductive Verdict where
  | application (error : ApplicationError)
  | compileErrors (diagnostics : List Diagnostic)
  | unexpected (message : Option String) (cause : Option Cause)
  deriving DecidableEq, Repr

namespace Verdict

def label : Verdict → String
  | .application _ => "already_typed"
  | .compileErrors _ => "structured_compile_failure"
  | .unexpected _ _ => "unexpected_failure"

def display : Verdict → List String
  | .application error => [error.display]
  | .compileErrors diagnostics => diagnostics.map Diagnostic.display
  | .unexpected _ cause => (cause.map Cause.display).toList

end Verdict

namespace Failure

def noProblem : String :=
  "The compilation failed without reporting any problem!"

def noException : String :=
  "The compilation task failed without any exception!"

def byApplication? (failure : Failure) : Option Verdict :=
  match failure.cause with
  | some (.application error) => some (.application error)
  | _ => none

/-- An exception that is not the compiler's is told as it is, whatever problems and logs came
with it: those only describe failed compiles. -/
def byException? (failure : Failure) : Option Verdict :=
  match failure.cause with
  | some (.exception _ _) => some (.unexpected none failure.cause)
  | _ => none

/-- A list of problems explains the failure by its first error, or shows that there is none. -/
def byProblems? (failure : Failure) : Option Verdict :=
  failure.problems.map fun problems =>
    match problems.find? Diagnostic.isError with
    | some problem => .compileErrors [problem]
    | none => .unexpected (some noProblem) failure.cause

/-- The first log that tells of a complete error explains the failure by it. Every log is read on
its own. -/
def byLogs? (limit : Option UInt64) (failure : Failure) : Option Verdict :=
  (failure.logs.findSome? fun log => Log.recover? limit log.lines).map fun diagnostic =>
    .compileErrors [diagnostic]

def unexplained (failure : Failure) : Verdict :=
  let message := if failure.cause.isNone && failure.logs.isEmpty then noException else noProblem
  .unexpected (some message) failure.cause

def verdict (limit : Option UInt64) (failure : Failure) : Verdict :=
  failure.byApplication?.or
    (failure.byException?.or (failure.byProblems?.or (failure.byLogs? limit)))
  |>.getD failure.unexplained

end Failure
end ReloadReport
