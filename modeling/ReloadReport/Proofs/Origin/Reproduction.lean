import ReloadReport.Proofs.Origin.NormalForm

/-!
# Ids that are paths

An absolute id, with its slash in front, is the path that it stands for unless something in it is
left out, changed or resolved. A path that is read as an id again has only dots that could be
resolved.
-/

namespace ReloadReport
namespace AbsoluteId

open Text

/-- Nothing in the text is left out or resolved, and no slash is put behind it. -/
structure Reproducible (text : List Char) : Prop where
  noBackslash : '\\' ∉ text
  noTab : '\t' ∉ text
  noLineFeed : '\n' ∉ text
  noReturn : '\r' ∉ text
  solid : Solid text
  oneSlash : ¬ ['/', '/'] <+: text
  noDots : ['.'] ∉ text.splitOn '/' ∧ ['.', '.'] ∉ text.splitOn '/'
  noDrive : ∀ front letter mark, text = front ++ [letter, mark] → letter.isAlpha →
    mark ≠ ':' ∧ mark ≠ '|'

namespace Reproducible

variable {text : List Char}

theorem whole (reproducible : Reproducible text) : ∀ c ∈ text, isBreak c = false :=
  whole_of_noBreak reproducible.noTab reproducible.noLineFeed reproducible.noReturn

theorem not_isDots (reproducible : Reproducible text) :
    ∀ piece ∈ text.splitOn '/', ¬ IsDots piece := by
  rintro piece inside (rfl | rfl)
  · exact reproducible.noDots.1 inside
  · exact reproducible.noDots.2 inside

end Reproducible

theorem Normal.reproducible_iff {text : List Char} (normal : Normal text) :
    Reproducible text ↔ ∀ piece ∈ text.splitOn '/', ¬ IsDots piece := by
  refine ⟨Reproducible.not_isDots, fun noDots => ?_⟩
  have oneSlash : ¬ ['/', '/'] <+: text := by
    rcases normal.oneSlash with ⟨rest, rfl, other⟩
    rintro ⟨behind, parts⟩
    rw [← (List.cons.inj parts).2] at other
    exact other rfl
  exact {
    noBackslash := normal.noBackslash
    noTab := normal.noTab
    noLineFeed := normal.noLineFeed
    noReturn := normal.noReturn
    solid := normal.solid
    oneSlash
    noDots := ⟨fun inside => noDots _ inside (.inl rfl), fun inside => noDots _ inside (.inr rfl)⟩
    noDrive := normal.noDrive }

section ids

variable {id : List Char}

theorem cleaned_eq_rooted (noBackslash : '\\' ∉ rooted id) (solid : Solid (rooted id)) :
    cleaned id = rooted id := by
  have none : ∀ c ∈ ([] : List Char), decide (c.toNat ≤ 0x20) = true := by simp
  have stops : ∀ c ∈ (rooted id).getLast?, decide (c.toNat ≤ 0x20) = false := by
    intro c last
    simpa using solid c last
  have kept := dropEndWhile_append none stops
  rw [List.append_nil] at kept
  rw [cleaned, kept]
  exact slashed_eq_self noBackslash

namespace Normal

variable {text : List Char}

theorem rooted_eq (normal : Normal text) : rooted text = text := by
  rcases normal.oneSlash with ⟨rest, rfl, _⟩
  rfl

theorem cleaned_eq (normal : Normal text) : cleaned text = text := by
  have same := normal.rooted_eq
  rw [cleaned_eq_rooted, same]
  · rw [same]
    exact normal.noBackslash
  · rw [same]
    exact normal.solid

theorem not_hidesDots (normal : Normal text) : ¬ HidesDots (text.splitOn '/') := by
  intro hides
  rcases hides.exists_break with ⟨piece, listed, c, member, isBreak⟩
  have inText := (mem_of_mem_splitOn listed member).1
  rw [whole_of_noBreak normal.noTab normal.noLineFeed normal.noReturn c inText] at isBreak
  cases isBreak

end Normal

theorem reproducible_of_same (same : pathText id = rooted id) : Reproducible (rooted id) := by
  have normal : Normal (rooted id) := same ▸ normal_pathText id
  have cleanedSame := cleaned_eq_rooted normal.noBackslash normal.solid
  apply normal.reproducible_iff.mpr
  intro piece inside isDots
  have hides := (exists_isDots_pathText_iff id).mp ⟨piece, same ▸ inside, isDots⟩
  rw [cleanedSame] at hides
  exact normal.not_hidesDots hides

/-- The piece before the slash in front is entered as a folder, and no other piece is right below
the root or leaves anything. -/
theorem walk_of_reproducible {tail last : List Char} {pieces : List (List Char)}
    (reproducible : Reproducible ('/' :: tail)) (split : tail.splitOn '/' = pieces ++ [last]) :
    walk [] (([] :: pieces) ++ [last]) = (pieces.reverse ++ [[]], last) := by
  have whole : ∀ piece ∈ pieces ++ [last], ∀ c ∈ piece, isBreak c = false := by
    intro piece inside c member
    rw [← split] at inside
    exact reproducible.whole c (List.mem_cons_of_mem '/' (mem_of_mem_splitOn inside member).1)
  have enter : ∀ piece ∈ pieces ++ [last], ¬ IsDots piece := by
    intro piece inside
    have inSplit : piece ∈ ('/' :: tail).splitOn '/' := by
      rw [splitOn_cons_self, split]
      exact List.mem_cons_of_mem [] inside
    exact reproducible.not_isDots piece inSplit
  rcases List.forall_mem_append.mp whole with ⟨piecesWhole, lastWhole⟩
  rcases List.forall_mem_append.mp enter with ⟨piecesEnter, lastEnters⟩
  have below : pieces.reverse ++ [[]] ≠ ([] : List (List Char)) := by simp
  have entered : pass [] [] = [[]] := rfl
  rw [walk_append_singleton, List.foldl_cons, entered,
    foldl_pass_of_kept (by simp) piecesWhole piecesEnter,
    finish_of_kept below (lastWhole last (by simp)) (lastEnters last (by simp))]

theorem same_of_reproducible (reproducible : Reproducible (rooted id)) :
    pathText id = rooted id := by
  have cleanedSame := cleaned_eq_rooted reproducible.noBackslash reproducible.solid
  rcases exists_rooted id with ⟨tail, slash⟩
  rcases exists_splitOn '/' tail with ⟨pieces, last, split, parts⟩
  have splitAll : (cleaned id).splitOn '/' = ([] :: pieces) ++ [last] := by
    rw [cleanedSame, slash, splitOn_cons_self, split, List.cons_append]
  rw [slash] at reproducible
  have stops : ∀ c ∈ tail.head?, (c == '/') = false := by
    intro c head
    rcases List.head?_eq_some_iff.mp head with ⟨rest, rfl⟩
    apply beq_eq_false_iff_ne.mpr
    rintro rfl
    exact reproducible.oneSlash ⟨rest, rfl⟩
  have spelledSame : spelled (pieces.reverse ++ [[]]) last = '/' :: tail := by
    simp [spelled, parts]
  have openedSame : opened (pieces.reverse ++ [[]]) last = '/' :: tail := by
    rw [opened, spelledSame, List.dropWhile_cons_of_pos rfl, dropWhile_eq_self stops]
  have notDrive : ¬ endsInDrive ('/' :: tail) := by
    intro drive
    rcases endsInDrive_iff.mp drive with ⟨front, letter, mark, same, isAlpha, colon | bar⟩
    · exact (reproducible.noDrive front letter mark same isAlpha).1 colon
    · exact (reproducible.noDrive front letter mark same isAlpha).2 bar
  rw [pathText_eq, splitAll, walk_of_reproducible reproducible split, openedSame, closed,
    if_neg notDrive, slash]

theorem pathText_eq_rooted_iff : pathText id = rooted id ↔ Reproducible (rooted id) :=
  ⟨reproducible_of_same, same_of_reproducible⟩

theorem pathText_pathText_eq_iff (id : List Char) :
    pathText (pathText id) = pathText id ↔ ¬ HidesDots ((cleaned id).splitOn '/') := by
  have normal := normal_pathText id
  have same := @pathText_eq_rooted_iff (pathText id)
  rw [normal.rooted_eq] at same
  rw [same, normal.reproducible_iff, ← exists_isDots_pathText_iff]
  simp

/-- Dots that an id hides are resolved when its path is read, so that path has a path that is left
as it is. -/
theorem pathText_settles (id : List Char) :
    pathText (pathText (pathText id)) = pathText (pathText id) := by
  have normal := normal_pathText id
  apply (pathText_pathText_eq_iff (pathText id)).mpr
  rw [normal.cleaned_eq]
  exact normal.not_hidesDots

end ids

end AbsoluteId

/-- Every absolute id leads to a path, and it is the path itself, with a slash in front, just where
it has nothing that reading an id takes away or changes. -/
theorem Origin.path?_absoluteFile (id : String) :
    ∃ path, (Origin.absoluteFile id).path? = .ok (some path) ∧
      (path.text = String.ofList (AbsoluteId.rooted id.toList) ↔
        AbsoluteId.Reproducible (AbsoluteId.rooted id.toList)) := by
  refine ⟨AbsoluteId.path id, Origin.path?_of_absoluteFile id, ?_⟩
  rw [← AbsoluteId.pathText_eq_rooted_iff]
  exact String.ofList_inj

example : (Origin.absoluteFile "x/%2e%2e/a b#é?%").path? = .ok (some ⟨"/x/%2e%2e/a b#é?%"⟩) := by
  rfl

/-- The path of an absolute id has one slash in front and nothing that reading an id leaves out or
changes, and it has a segment made of dots just where the id, which then has tabs or line ends,
hides one behind a drive. The path is its own path as an id, unless it has such a segment; it then
leads to a path that is. -/
theorem Origin.path?_absoluteFile_normal (id : String) :
    ∃ path, (Origin.absoluteFile id).path? = .ok (some path) ∧
      AbsoluteId.Normal path.text.toList ∧
      ((∃ piece ∈ path.pieces, AbsoluteId.IsDots piece) ↔
        AbsoluteId.HidesDots ((AbsoluteId.cleaned id.toList).splitOn '/')) ∧
      (AbsoluteId.HidesDots ((AbsoluteId.cleaned id.toList).splitOn '/') →
        ∃ c ∈ id.toList, AbsoluteId.isBreak c) ∧
      ((Origin.absoluteFile path.text).path? = .ok (some path) ↔
        ¬ AbsoluteId.HidesDots ((AbsoluteId.cleaned id.toList).splitOn '/')) ∧
      ∃ settled, (Origin.absoluteFile path.text).path? = .ok (some settled) ∧
        (Origin.absoluteFile settled.text).path? = .ok (some settled) := by
  have text : (AbsoluteId.path id).text.toList = AbsoluteId.pathText id.toList :=
    String.toList_ofList
  have again : (Origin.absoluteFile (AbsoluteId.path id).text).path? =
      .ok (some ⟨String.ofList (AbsoluteId.pathText (AbsoluteId.pathText id.toList))⟩) := by
    rw [Origin.path?_of_absoluteFile, AbsoluteId.path, text]
  refine ⟨AbsoluteId.path id, Origin.path?_of_absoluteFile id, ?_, ?_, ?_, ?_, _, again, ?_⟩
  · rw [text]
    exact AbsoluteId.normal_pathText id.toList
  · rw [Path.pieces, text]
    exact AbsoluteId.exists_isDots_pathText_iff id.toList
  · exact AbsoluteId.exists_isBreak_of_hidesDots
  · rw [again, ← AbsoluteId.pathText_pathText_eq_iff]
    simp [AbsoluteId.path, String.ofList_inj]
  · rw [Origin.path?_of_absoluteFile, AbsoluteId.path, String.toList_ofList,
      AbsoluteId.pathText_settles]

/-- Behind a tab a double dot is a name of the drive, and stands for the folder above as soon as the
path is read again. -/
theorem Origin.path?_absoluteFile_hiddenDots :
    (Origin.absoluteFile "../c:\t..").path? = .ok (some ⟨"/c:/.."⟩) ∧
      ['.', '.'] ∈ (Path.mk "/c:/..").pieces ∧
      (Origin.absoluteFile "/c:/..").path? = .ok (some ⟨"/c:/"⟩) := by
  rw [Origin.path?_of_absoluteFile, Origin.path?_of_absoluteFile]
  decide

end ReloadReport
