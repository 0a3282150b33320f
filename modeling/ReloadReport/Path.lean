/-!
# Paths

File paths as the build tool writes them. A path keeps its spelling; two spellings of one place
are compared by where they lead.
-/

namespace ReloadReport

structure Path where
  text : String
  deriving DecidableEq, Repr, Inhabited

namespace Path

/-- Where a path leads: from the root or from the current directory, possibly with an explicit
dot for the latter, and then down the names. -/
structure Location where
  absolute : Bool
  here : Bool
  names : List (List Char)
  deriving DecidableEq, Repr

def pieces (path : Path) : List (List Char) :=
  path.text.toList.splitOn '/'

def isAbsolute (path : Path) : Bool :=
  path.text.toList.head? = some '/'

/-- The pieces of a path that lead anywhere. Repeated slashes, a slash at the end and single dots
do not; two dots do, since what is above a link depends on the link. -/
def names (path : Path) : List (List Char) :=
  path.pieces.filter fun piece => piece ≠ [] && piece ≠ ['.']

def location (path : Path) : Location where
  absolute := path.isAbsolute
  here := path.pieces.head? = some ['.']
  names := path.names

def Same (left right : Path) : Prop :=
  left.location = right.location

instance (left right : Path) : Decidable (Same left right) :=
  inferInstanceAs (Decidable (left.location = right.location))

/-- Append a segment. One that starts with a slash replaces the path; any other is parted from
the path by one slash, unless nothing stands before it. An empty segment thus leaves a slash at
the end. -/
def push (path : Path) (segment : String) : Path :=
  if segment.toList.head? = some '/' then ⟨segment⟩
  else if path.text.toList.getLast?.all (· == '/') then ⟨path.text ++ segment⟩
  else ⟨path.text ++ "/" ++ segment⟩

def ofSegments (segments : List String) : Path :=
  segments.foldl push ⟨""⟩

theorem Same.refl (path : Path) : Same path path :=
  Eq.refl path.location

theorem Same.symm {left right : Path} (same : Same left right) : Same right left :=
  Eq.symm same

theorem Same.trans {left middle right : Path} (first : Same left middle)
    (second : Same middle right) : Same left right :=
  Eq.trans first second

/-- Slashes and dots inside a path do not matter, a dot in front of it does. -/
example : Same ⟨"a//b/./c/"⟩ ⟨"a/b/c"⟩ ∧ ¬ Same ⟨"./a"⟩ ⟨"a"⟩ ∧ ¬ Same ⟨"a/../b"⟩ ⟨"b"⟩ ∧
    Same ⟨"."⟩ ⟨"./"⟩ := by
  decide

example : ofSegments ["a", "", "b/", "c"] = ⟨"a/b/c"⟩ ∧ ofSegments ["a", "/b"] = ⟨"/b"⟩ ∧
    ofSegments ["a", ""] = ⟨"a/"⟩ ∧ ofSegments [] = ⟨""⟩ := by
  decide

end Path
end ReloadReport
