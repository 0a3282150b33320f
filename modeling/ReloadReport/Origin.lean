import ReloadReport.Origin.Error
import ReloadReport.Origin.FileUri
import ReloadReport.Text.Search

/-!
# Origins of compiled units

The build tool states for every compiled unit where it came from, in one of four shapes. A
statement is first taken for what its kind says it is, and then led to a path.
-/

namespace ReloadReport

inductive Origin where
  | none
  | plainFile (path : Path)
  | relativeFile (segments : List String)
  | absoluteFile (id : String)
  deriving DecidableEq, Repr

/-- A statement of an origin: a kind, and values of which the kind needs at most one. -/
structure Descriptor where
  kind : String
  path : Option Path := none
  names : Option (List String) := none
  id : Option String := none
  deriving DecidableEq, Repr, Inhabited

namespace Descriptor

def file (path : Path) : Descriptor :=
  { kind := "file", path := some path }

def relative (names : List String) : Descriptor :=
  { kind := "virtual_relative", names := some names }

def absolute (id : String) : Descriptor :=
  { kind := "virtual_absolute", id := some id }

/-- The origin that a statement makes. Its kind has to be known, and the value that the kind needs
has to be there; other values are not looked at. -/
def origin (stated : Descriptor) : Except OriginError Origin :=
  if stated.kind = "none" then .ok .none
  else if stated.kind = "file" then
    match stated.path with
    | some path => .ok (.plainFile path)
    | none => .error (.unknownShape "file without path")
  else if stated.kind = "virtual_relative" then
    match stated.names with
    | some names => .ok (.relativeFile names)
    | none => .error (.unknownShape "virtual_relative without names")
  else if stated.kind = "virtual_absolute" then
    match stated.id with
    | some id => .ok (.absoluteFile id)
    | none => .error (.unknownShape "virtual_absolute without id")
  else .error (.unknownShape stated.kind)

end Descriptor

namespace Origin

def isBaseMarker (segment : String) : Bool :=
  (Text.after? ['$', '\x7b'] segment.toList).isSome

/-- The path that an origin leads to, if it leads to one at all. The base marker of a relative file
is left out, so its path is relative to the current directory. -/
def path? : Origin → Except OriginError (Option Path)
  | .none => .ok Option.none
  | .plainFile path => .ok (some path)
  | .relativeFile [] => .error (.missingBaseMarker [])
  | .relativeFile (marker :: segments) =>
      if isBaseMarker marker then .ok (some (Path.ofSegments segments))
      else .error (.missingBaseMarker (marker :: segments))
  | .absoluteFile id =>
      match FileUri.parse (FileUri.ofId id) with
      | .error reason => .error (.invalidUri id reason)
      | .ok uri =>
          match uri.localPath? with
          | some path => .ok (some path)
          | Option.none => .error (.noLocalPath uri.text)

end Origin

def Descriptor.path? (stated : Descriptor) : Except OriginError (Option Path) :=
  stated.origin.bind Origin.path?

/-- The marker is left out and the names keep their order. -/
example : (Descriptor.relative ["$\x7bBASE\x7d", "app", "A.scala"]).path? =
    .ok (some ⟨"app/A.scala"⟩) :=
  rfl

example : (Descriptor.relative ["app"]).path? = .error (.missingBaseMarker ["app"]) :=
  rfl

end ReloadReport
