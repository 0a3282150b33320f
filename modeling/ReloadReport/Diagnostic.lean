/-!
# Diagnostics

A problem that a compiler reports, whether it came as a record or was recovered from a log.
-/

namespace ReloadReport

inductive Severity where
  | error
  | warn
  | info
  deriving DecidableEq, Repr, Inhabited

def Severity.word : Severity → String
  | .error => "error"
  | .warn => "warn"
  | .info => "info"

def Severity.ofWord? (word : String) : Option Severity :=
  if word = "error" then some .error
  else if word = "warn" then some .warn
  else if word = "info" then some .info
  else none

@[simp] theorem Severity.ofWord?_word (severity : Severity) :
    Severity.ofWord? severity.word = some severity := by
  cases severity <;> rfl

/-- Where a problem is, as far as it is known. Lines count from one, columns from zero. -/
structure Position where
  sourcePath : Option String := none
  line : Option UInt32 := none
  pointerColumn : Option UInt32 := none
  deriving DecidableEq, Repr, Inhabited

structure Diagnostic where
  message : String
  severity : Severity
  position : Position := {}
  deriving DecidableEq, Repr, Inhabited

namespace Diagnostic

def ofError (message : String) : Diagnostic :=
  { message, severity := .error }

def atLine (diagnostic : Diagnostic) (sourcePath : String) (line : UInt32) : Diagnostic :=
  { diagnostic with
    position := { diagnostic.position with sourcePath := some sourcePath, line := some line } }

def atColumn (diagnostic : Diagnostic) (column : UInt32) : Diagnostic :=
  { diagnostic with position := { diagnostic.position with pointerColumn := some column } }

def isError (diagnostic : Diagnostic) : Bool :=
  diagnostic.severity == .error

def colonNumber : Option UInt32 → String
  | none => ""
  | some number => ":" ++ number.toNat.repr

/-- The place of a problem for display. Line and column are left out where no file is known. -/
def place (position : Position) : String :=
  match position.sourcePath with
  | none => ""
  | some path =>
      " " ++ path ++ colonNumber position.line ++ colonNumber position.pointerColumn ++ ":"

def display (diagnostic : Diagnostic) : String :=
  "[" ++ diagnostic.severity.word ++ "]" ++ place diagnostic.position ++ " " ++ diagnostic.message

example : ((ofError "not found").atLine "app/Home.scala" 12 |>.atColumn 4).display =
    "[error] app/Home.scala:12:4: not found" := by
  decide

example : ((ofError "").atColumn 4).display = "[error] " := by
  decide

end Diagnostic
end ReloadReport
