import ReloadReport.Diagnostic

/-!
# Failed builds

What the build tool hands over when a build step failed: the exception that ended it, the problems
that the compiler listed, and the console logs of the tasks.
-/

namespace ReloadReport

/-- An error of the application itself, fit for display as it is. -/
structure ApplicationError where
  title : String
  description : String
  deriving DecidableEq, Repr, Inhabited

def ApplicationError.display (error : ApplicationError) : String :=
  error.title ++ ": " ++ error.description

inductive Cause where
  | application (error : ApplicationError)
  | compileFailed (message : Option String)
  | exception (name : String) (message : Option String)
  deriving DecidableEq, Repr

namespace Cause

def colonMessage : Option String → String
  | none => ""
  | some message => ": " ++ message

def display : Cause → String
  | .application error => error.display
  | .compileFailed message => "compilation failed" ++ colonMessage message
  | .exception name message => name ++ colonMessage message

end Cause

structure ConsoleLog where
  task : String
  lines : List String := []
  deriving DecidableEq, Repr, Inhabited

structure Failure where
  cause : Option Cause := none
  /-- The problems that the compiler listed, if it made a list. -/
  problems : Option (List Diagnostic) := none
  logs : List ConsoleLog := []
  deriving DecidableEq, Repr, Inhabited

end ReloadReport
