import ReloadReport.ByName
import ReloadReport.Origin
import ReloadReport.Provenance

/-!
# Analyses of successful compiles

After a compile the build tool lists the compiled units with the files they may have come from. From
this every unit is linked to the file to edit.
-/

namespace ReloadReport

structure Analysis where
  classes : ByName (List Descriptor) := .empty
  deriving DecidableEq, Repr

instance : Inhabited Analysis := ⟨{}⟩

def Analysis.withClass (analysis : Analysis) (name : String) (origins : List Descriptor) :
    Analysis where
  classes := analysis.classes.insert name origins

structure SourceLink where
  resolvedPath : Path
  authoredPath : Option Path := none
  deriving DecidableEq, Repr, Inhabited

def SourceLink.editablePath (link : SourceLink) : Path :=
  link.authoredPath.getD link.resolvedPath

/-- The link for a compiled file. What the author wrote is not taken for a generated file again. -/
def SourceLink.ofPath (read : Path → Option String) (path : Path) : SourceLink where
  resolvedPath := path
  authoredPath := (Provenance.ofFile? read path).map Provenance.source

/-- The link for a unit. Its first origin counts, and the others are further names of it. There is
no link where no origin is stated, or none is known. -/
def SourceLink.ofOrigins (read : Path → Option String) :
    List Descriptor → Except OriginError (Option SourceLink)
  | [] => .ok none
  | first :: _ => first.path?.map (Option.map (SourceLink.ofPath read))

abbrev SourceMap :=
  ByName SourceLink

def compiledFile? : List Descriptor → Option Path
  | [] => none
  | first :: _ => first.path?.toOption.join

def Analysis.compiledFiles (analysis : Analysis) : List Path :=
  analysis.classes.entries.filterMap fun (_, origins) => compiledFile? origins

/-- The links for all units. The first unit whose origin cannot be told spoils the map. -/
def Analysis.sourceMap (read : Path → Option String) (analysis : Analysis) :
    Except OriginError SourceMap :=
  analysis.classes.traverse (SourceLink.ofOrigins read)

end ReloadReport
