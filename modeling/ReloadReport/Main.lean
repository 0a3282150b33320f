import ReloadReport.Command.Run

/-!
# The command

Reads the files that a request needs, and prints the answer.
-/

namespace ReloadReport.Command

/-- The error that the host gave for a file. Its code may come negated. -/
def ReadError.ofHost : IO.Error → ReadError
  | .noFileOrDirectory _ _ _ => .missing
  | .permissionDenied _ _ _ => .denied
  | .inappropriateType _ code _ =>
      if code = 21 ∨ code = 0 - 21 then .directory else .notDirectory
  | .invalidArgument (some path) code details =>
      if code = 36 ∨ code = 0 - 36 then .tooLong
      else .other (toString (IO.Error.invalidArgument (some path) code details))
  | error => .other (toString error)

def loadFile (path : Path) : IO (Except ReadError String) := do
  try
    let content ← IO.FS.readBinFile path.text
    return match String.fromUTF8? content with
      | none => .error .notText
      | some text => .ok text
  catch error => return .error (.ofHost error)

/-- Files that were read before. All others count as missing. -/
def loaded (files : List (Path × Except ReadError String)) : Reader := fun path =>
  (files.lookup path).getD (.error .missing)

def loadFor (environment : Environment) : Option Request → IO Reader
  | some (.report overrides task) => do
      let inputs ← task.inputs.mapM fun path => return (path, ← loadFile path)
      let inspected := task.inspected (loaded inputs) (settings environment overrides)
      let sources ← inspected.mapM fun path => return (path, ← loadFile path)
      return loaded (inputs ++ sources)
  | _ => return loaded []

end ReloadReport.Command

open ReloadReport.Command in
def main (arguments : List String) : IO UInt32 := do
  let remap ← IO.getEnv "RELOAD_REMAP_GENERATED"
  let tail ← IO.getEnv "RELOAD_LOG_TAIL_LINES"
  let environment : Environment := fun name =>
    if name = "RELOAD_REMAP_GENERATED" then remap
    else if name = "RELOAD_LOG_TAIL_LINES" then tail
    else none
  let read ← loadFor environment (request? arguments)
  let answer := run read environment arguments
  IO.print answer.output
  IO.eprint answer.error
  return answer.code
