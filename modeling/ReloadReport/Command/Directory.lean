import ReloadReport.Command.Run

/-!
# Directories in memory

A tree of files under the current directory, in which paths are looked up step by step as the host
does it. A folder is there if a file is somewhere in it. Of what is outside the current directory
only the way up is known, which ends at the root, and a few places that every host has.
-/

namespace ReloadReport.Command

structure Directory where
  files : List (List (List Char) × ByteArray) := []

inductive Place where
  | inside (names : List (List Char))
  | above
  | rooted (names : List (List Char))
  deriving DecidableEq, Repr

namespace Directory

instance : Inhabited Directory := ⟨{}⟩

def put (directory : Directory) (path : Path) (content : ByteArray) : Directory where
  files := (path.names, content) :: directory.files

def hostFolders : List (List (List Char)) :=
  [] :: ["dev", "etc", "home", "proc", "sys", "tmp", "usr", "var"].map fun name => [name.toList]

def emptyFile : List (List Char) :=
  ["dev".toList, "null".toList]

def contentAt? (directory : Directory) : Place → Option ByteArray
  | .inside names => directory.files.lookup names
  | .above => none
  | .rooted names => if names = emptyFile then some ByteArray.empty else none

def occupied (directory : Directory) (names : List (List Char)) : Bool :=
  directory.files.any fun file => names.isPrefixOf file.1

def longestName : Nat := 255

def longestPath : Nat := 4095

def below? (directory : Directory) (name : List Char) : Place → Option Place
  | .inside names =>
      if directory.occupied (names ++ [name]) then some (.inside (names ++ [name])) else none
  | .above => none
  | .rooted names =>
      if names ++ [name] ∈ emptyFile :: hostFolders then some (.rooted (names ++ [name])) else none

def enter (directory : Directory) (name : List Char) (place : Place) : Except ReadError Place :=
  if longestName < Text.byteWidth name then .error .tooLong
  else
    match directory.below? name place with
    | none => .error .missing
    | some place => .ok place

def leave : Place → Place
  | .inside [] => .above
  | .inside names => .inside names.dropLast
  | .above => .above
  | .rooted names => .rooted names.dropLast

/-- The place that the pieces of a path lead to from a place. Every piece needs a folder to start
from. -/
def follow (directory : Directory) (place : Place) : List (List Char) → Except ReadError Place
  | [] => .ok place
  | piece :: pieces =>
      if (directory.contentAt? place).isSome then .error .notDirectory
      else if piece = [] ∨ piece = ['.'] then directory.follow place pieces
      else if piece = ['.', '.'] then directory.follow (leave place) pieces
      else (directory.enter piece place).bind fun place => directory.follow place pieces

def textAt (directory : Directory) (place : Place) : Except ReadError String :=
  match directory.contentAt? place with
  | none => .error .directory
  | some content =>
      match String.fromUTF8? content with
      | none => .error .notText
      | some text => .ok text

/-- The text of the file at a path. An empty path leads nowhere. -/
def read (directory : Directory) (path : Path) : Except ReadError String :=
  if path.text = "" then .error .missing
  else if longestPath < path.text.utf8ByteSize then .error .tooLong
  else
    let start := if path.isAbsolute then Place.rooted [] else .inside []
    (directory.follow start path.pieces).bind directory.textAt

end Directory
end ReloadReport.Command
