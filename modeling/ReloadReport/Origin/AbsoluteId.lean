import ReloadReport.Path

/-!
# Absolute ids

The build tool names some files by an absolute id, which is the local part of a file URI. Reading it
walks down the pieces between the slashes, with the folders entered so far on a stack, so that a
double dot can leave one. Tabs and line ends are no part of a name.
-/

namespace ReloadReport.AbsoluteId

/-- A drive is a letter before a colon, or before a bar in its stead. -/
def isDrive (segment : List Char) : Bool :=
  match segment with
  | [letter, mark] => letter.isAlpha && (mark == ':' || mark == '|')
  | _ => false

def rooted (id : List Char) : List Char :=
  if id.head? = some '/' then id else '/' :: id

def isBreak (c : Char) : Bool :=
  c == '\t' || c == '\n' || c == '\r'

def unbroken (piece : List Char) : List Char :=
  piece.filter fun c => !isBreak c

/-- The drive and the name after it in a piece right below the root that has a tab or a line end
after the colon of the drive. The name has a character at least, and stands for itself even if it
is made of dots. -/
def driveAndName? (folders : List (List Char)) (piece : List Char) :
    Option (List Char × List Char) :=
  match folders, piece.dropWhile isBreak with
  | [], letter :: rest =>
      match rest.dropWhile isBreak with
      | ':' :: gap :: name =>
          if letter.isAlpha ∧ isBreak gap ∧ unbroken name ≠ [] then
            some ([letter, ':'], unbroken name)
          else none
      | _ => none
  | _, _ => none

/-- The name under which a segment is entered. A drive right below the root takes its colon. -/
def named (folders : List (List Char)) (segment : List Char) : List Char :=
  if folders = [] ∧ isDrive segment then segment.take 1 ++ [':'] else segment

/-- The folders after a segment. A single dot stays, and a double dot leaves the innermost folder
unless that is a drive or there is none. The innermost folder stands first. -/
def enter (folders : List (List Char)) (segment : List Char) : List (List Char) :=
  if segment = ['.'] then folders
  else if segment = ['.', '.'] then
    match folders with
    | [] => []
    | inner :: outer => if isDrive inner then inner :: outer else outer
  else named folders segment :: folders

def pass (folders : List (List Char)) (piece : List Char) : List (List Char) :=
  match driveAndName? folders piece with
  | some (drive, name) => [name, drive]
  | none => enter folders (unbroken piece)

/-- The folders and the name in the innermost one after the last piece. A dot or a double dot leads
to a folder, which has no name after it. -/
def finish (folders : List (List Char)) (piece : List Char) : List (List Char) × List Char :=
  match driveAndName? folders piece with
  | some (drive, name) => ([drive], name)
  | none =>
      let segment := unbroken piece
      if segment = ['.'] ∨ segment = ['.', '.'] then (enter folders segment, [])
      else (folders, named folders segment)

def walk : List (List Char) → List (List Char) → List (List Char) × List Char
  | folders, [] => (folders, [])
  | folders, [last] => finish folders last
  | folders, piece :: next :: pieces => walk (pass folders piece) (next :: pieces)

def spelled (folders : List (List Char)) (name : List Char) : List Char :=
  folders.reverse.flatMap (· ++ ['/']) ++ name

def endsInDrive (text : List Char) : Bool :=
  isDrive (text.drop (text.length - 2))

end ReloadReport.AbsoluteId
