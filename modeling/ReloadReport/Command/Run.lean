import ReloadReport.Command.Arguments
import ReloadReport.Exchange.Report
import ReloadReport.Json.Writer
import ReloadReport.Text.Lines

/-!
# Answers of the command

What the command prints, as a function of its arguments, the environment and the files.
-/

namespace ReloadReport.Command

inductive ReadError where
  | missing
  | directory
  | notDirectory
  | tooLong
  | denied
  | notText
  | other (message : String)
  deriving DecidableEq, Repr

def ReadError.message : ReadError → String
  | .missing => "No such file or directory (os error 2)"
  | .directory => "Is a directory (os error 21)"
  | .notDirectory => "Not a directory (os error 20)"
  | .tooLong => "File name too long (os error 36)"
  | .denied => "Permission denied (os error 13)"
  | .notText => "stream did not contain valid UTF-8"
  | .other message => message

abbrev Reader :=
  Path → Except ReadError String

inductive Problem where
  | unreadableFile (path : Path) (error : ReadError)
  | unreadableLog (path : Path) (error : ReadError)
  | invalidJson (path : Path)
  | origin (error : OriginError)
  deriving DecidableEq, Repr

namespace Problem

def context : Problem → String
  | .unreadableFile path _ => "Failed to read " ++ path.text
  | .unreadableLog path _ => "Failed to read log " ++ path.text
  | .invalidJson path => "Invalid JSON in " ++ path.text
  | .origin _ => "Failed to build source map"

/-- What stood in its way. Where a text is no JSON, its file says it all. -/
def cause? : Problem → Option String
  | .unreadableFile _ error => some error.message
  | .unreadableLog _ error => some error.message
  | .invalidJson _ => none
  | .origin error => some error.message

def indented (text : String) : List Char :=
  (text.toList.splitOn '\n').flatMap fun line => "\n    ".toList ++ line

def message (problem : Problem) : String :=
  "Error: " ++ problem.context ++
    match problem.cause? with
    | none => ""
    | some cause => "\n\nCaused by:" ++ String.ofList (indented cause)

end Problem

abbrev Environment :=
  String → Option String

def settings (environment : Environment) (overrides : Overrides) : Settings :=
  let base := Settings.ofEnvironment (environment "RELOAD_REMAP_GENERATED")
    (environment "RELOAD_LOG_TAIL_LINES")
  { remapGenerated := base.remapGenerated && !overrides.keepGenerated
    logTailLines := overrides.logTailLines.or base.logTailLines }

def readJson (read : Reader) (decode? : Json → Option α) (path : Path) : Except Problem α :=
  match read path with
  | .error error => .error (.unreadableFile path error)
  | .ok text =>
      match (Json.parse? text).bind decode? with
      | none => .error (.invalidJson path)
      | some value => .ok value

def readLog (read : Reader) (path : Path) : Except Problem ConsoleLog :=
  match read path with
  | .error error => .error (.unreadableLog path error)
  | .ok text =>
      .ok { task := path.text, lines := (Text.lines text.toList).map String.ofList }

def readFailure (read : Reader) (failure : Option Path) (logs : List Path) :
    Except Problem Failure := do
  let failure ← match failure with
    | none => .ok {}
    | some path => readJson read Failure.ofJson? path
  let logs ← logs.mapM (readLog read)
  .ok { failure with logs := failure.logs ++ logs }

def Reader.texts (read : Reader) (path : Path) : Option String :=
  (read path).toOption

def report (read : Reader) (settings : Settings) : Task → Except Problem Report
  | .sourceMap analysis classpath => do
      let analysis ← readJson read Analysis.ofJson? analysis
      (Report.ofAnalysis read.texts analysis classpath).mapError Problem.origin
  | .classify failure logs => do
      let failure ← readFailure read failure logs
      .ok (Report.ofFailure settings read.texts failure)

def Task.inputs : Task → List Path
  | .sourceMap analysis _ => [analysis]
  | .classify failure logs => failure.toList ++ logs

/-- The files that the report on a task looks at for what they say about their origin, as far as
the inputs of the task can be read. -/
def Task.inspected (read : Reader) (settings : Settings) : Task → List Path
  | .sourceMap analysis _ =>
      ((readJson read Analysis.ofJson? analysis).toOption.map Analysis.compiledFiles).getD []
  | .classify failure logs =>
      ((readFailure read failure logs).toOption.map fun failure =>
        (failure.verdict settings.logTailLines).files).getD []

structure Answer where
  code : UInt32
  output : String := ""
  error : String := ""
  deriving DecidableEq, Repr, Inhabited

def Answer.ofReport : Except Problem Report → Answer
  | .ok report => { code := 0, output := report.toJson.pretty ++ "\n" }
  | .error problem => { code := 1, error := problem.message ++ "\n" }

def usage : String :=
  "Usage: reload-inspect [--no-remap] [--log-tail-lines <N>] source-map --analysis <FILE> " ++
    "[--classpath <PATH>]...\n       reload-inspect [--no-remap] [--log-tail-lines <N>] classify " ++
    "[--failure <FILE>] [--log <FILE>]...\n"

def run (read : Reader) (environment : Environment) (arguments : List String) : Answer :=
  match request? arguments with
  | none => { code := 2, error := usage }
  | some .version => { code := 0, output := "reload-inspect 0.1.0\n" }
  | some (.report overrides task) =>
      .ofReport (report read (settings environment overrides) task)

end ReloadReport.Command
