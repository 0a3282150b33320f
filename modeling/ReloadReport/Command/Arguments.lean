import ReloadReport.Path
import ReloadReport.Settings
import ReloadReport.Text.Search

/-!
# Arguments of the command

The command reports on one compile. Options for all reports stand before the word that names the
report, and the files to read after it. An option takes the next argument as its value, or what
follows an equals sign in its own.
-/

namespace ReloadReport.Command

open Text

inductive Task where
  | sourceMap (analysis : Path) (classpath : List Path)
  | classify (failure : Option Path) (logs : List Path)
  deriving DecidableEq, Repr

structure Overrides where
  keepGenerated : Bool := false
  logTailLines : Option UInt64 := none
  deriving DecidableEq, Repr, Inhabited

inductive Request where
  | version
  | report (overrides : Overrides) (task : Task)
  deriving DecidableEq, Repr

/-- Whether an argument may be the value of the option before it. One that starts with a dash may
not, unless it is a single dash. -/
def mayBeValue (argument : String) : Bool :=
  argument = "-" || argument.toList.head? ≠ some '-'

def joined? (argument : String) : Option (String × String) :=
  (cutAtFirst? ['='] argument.toList).map fun (name, value) =>
    (String.ofList name, String.ofList value)

def options? : List String → Option (List (String × String))
  | [] => some []
  | [last] => if last = "--" then some [] else (joined? last).map fun option => [option]
  | argument :: next :: rest =>
      match joined? argument with
      | some option => (options? (next :: rest)).map (option :: ·)
      | none =>
          if mayBeValue next then (options? rest).map ((argument, next) :: ·) else none

def valuesOf (name : String) (options : List (String × String)) : List Path :=
  options.filterMap fun option => if option.1 = name then some ⟨option.2⟩ else none

def pathOptions? (names : List String) (arguments : List String) :
    Option (List (String × String)) :=
  (options? arguments).bind fun options =>
    if options.all fun option => names.contains option.1 && option.2 ≠ "" then some options
    else none

def task? (word : String) (arguments : List String) : Option Task :=
  if word = "source-map" then do
    let options ← pathOptions? ["--analysis", "--classpath"] arguments
    match valuesOf "--analysis" options with
    | [analysis] => some (.sourceMap analysis (valuesOf "--classpath" options))
    | _ => none
  else if word = "classify" then do
    let options ← pathOptions? ["--failure", "--log"] arguments
    match valuesOf "--failure" options with
    | [] => some (.classify none (valuesOf "--log" options))
    | [failure] => some (.classify (some failure) (valuesOf "--log" options))
    | _ => none
  else none

def Overrides.withLimit? (overrides : Overrides) (value : String) : Option Overrides :=
  if overrides.logTailLines.isSome then none
  else (numeral64? value.toList).map fun limit => { overrides with logTailLines := some limit }

/-- Whether an argument asks for the version. The short form may have other letters behind it, which
are then not looked at. -/
def asksVersion (argument : String) : Bool :=
  argument = "--version" || ['-', 'V'].isPrefixOf argument.toList

def requestAfter? (overrides : Overrides) : List String → Option Request
  | [] => none
  | [last] =>
      if asksVersion last then some .version else (task? last []).map (.report overrides)
  | argument :: next :: rest =>
      if asksVersion argument then some .version
      else if argument = "--no-remap" then
        if overrides.keepGenerated then none
        else requestAfter? { overrides with keepGenerated := true } (next :: rest)
      else if argument = "--log-tail-lines" then
        (overrides.withLimit? next).bind fun overrides => requestAfter? overrides rest
      else
        match joined? argument with
        | some ("--log-tail-lines", value) =>
            (overrides.withLimit? value).bind fun overrides => requestAfter? overrides (next :: rest)
        | _ => (task? argument (next :: rest)).map (.report overrides)

def request? (arguments : List String) : Option Request :=
  requestAfter? {} arguments

example : request? ["--no-remap", "--log-tail-lines=+3", "classify", "--log", "a", "--log=b"] =
    some (.report ⟨true, some 3⟩ (.classify none [⟨"a"⟩, ⟨"b"⟩])) := by
  decide

example : request? ["classify", "--no-remap"] = none ∧ request? ["source-map"] = none ∧
    request? ["classify", "--log", ""] = none ∧ request? [] = none := by
  decide

end ReloadReport.Command
