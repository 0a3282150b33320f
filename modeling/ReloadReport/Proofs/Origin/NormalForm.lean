import ReloadReport.Proofs.Origin.FileUri
import ReloadReport.Proofs.Origin.HiddenDots

/-!
# The form of a path

Every path of an absolute id starts with one slash and has nothing that reading an id leaves out or
turns into a slash. It has a segment made of dots only where the id hides one behind a drive.
-/

namespace ReloadReport.AbsoluteId

open Text

/-- A text from the root with nothing in it that is left out or changed, and with no slash to be put
behind it. -/
structure Normal (text : List Char) : Prop where
  oneSlash : ∃ rest, text = '/' :: rest ∧ rest.head? ≠ some '/'
  noBackslash : '\\' ∉ text
  noTab : '\t' ∉ text
  noLineFeed : '\n' ∉ text
  noReturn : '\r' ∉ text
  solid : Solid text
  noDrive : ∀ front letter mark, text = front ++ [letter, mark] → letter.isAlpha →
    mark ≠ ':' ∧ mark ≠ '|'

section texts

variable {text : List Char}

theorem endsInDrive_iff : endsInDrive text ↔ ∃ front letter mark,
    text = front ++ [letter, mark] ∧ letter.isAlpha ∧ (mark = ':' ∨ mark = '|') := by
  rw [endsInDrive, isDrive_iff]
  constructor
  · rintro ⟨letter, mark, last, drive⟩
    refine ⟨text.take (text.length - 2), letter, mark, ?_, drive⟩
    rw [← last, List.take_append_drop]
  · rintro ⟨front, letter, mark, rfl, drive⟩
    refine ⟨letter, mark, ?_, drive⟩
    simp

theorem whole_of_noBreak (noTab : '\t' ∉ text) (noLineFeed : '\n' ∉ text)
    (noReturn : '\r' ∉ text) : ∀ c ∈ text, isBreak c = false := by
  intro c member
  apply isBreak_eq_false_iff.mpr
  refine ⟨?_, ?_, ?_⟩ <;> rintro rfl
  · exact noTab member
  · exact noLineFeed member
  · exact noReturn member

end texts

section paths

variable {folders : List (List Char)} {name path piece : List Char} {c : Char}

def opened (folders : List (List Char)) (name : List Char) : List Char :=
  '/' :: (spelled folders name).dropWhile (· == '/')

def closed (path : List Char) : List Char :=
  if endsInDrive path then path ++ ['/'] else path

theorem pathText_eq (id : List Char) : pathText id =
    closed (opened (walk [] ((cleaned id).splitOn '/')).1 (walk [] ((cleaned id).splitOn '/')).2) :=
  rfl

theorem spelled_eq (folders : List (List Char)) (name : List Char) :
    spelled folders name = ['/'].intercalate (folders.reverse ++ [name]) :=
  (intercalate_append_singleton '/' folders.reverse name).symm

theorem closed_cases (path : List Char) : closed path = path ∨ closed path = path ++ ['/'] := by
  rw [closed]
  split
  · exact .inr rfl
  · exact .inl rfl

theorem mem_closed (member : c ∈ closed path) : c ∈ path ∨ c = '/' := by
  rcases closed_cases path with same | longer
  · exact .inl (same ▸ member)
  · rw [longer, List.mem_append, List.mem_singleton] at member
    exact member

theorem mem_opened (member : c ∈ opened folders name) :
    c = '/' ∨ (∃ folder ∈ folders, c ∈ folder) ∨ c ∈ name := by
  rcases List.mem_cons.mp member with first | inside
  · exact .inl first
  · have spelledMember := List.dropWhile_subset _ inside
    simp only [spelled, List.mem_append, List.mem_flatMap, List.mem_reverse,
      List.mem_singleton] at spelledMember
    rcases spelledMember with ⟨folder, listed, here | slash⟩ | last
    · exact .inr (.inl ⟨folder, listed, here⟩)
    · exact .inl slash
    · exact .inr (.inr last)

theorem solid_slash : Solid ['/'] := by
  simp [Solid]

theorem solid_opened (solid : Solid name) : Solid (opened folders name) := by
  have inFolders : ∀ folders : List (List Char), Solid (folders.flatMap (· ++ ['/'])) := by
    intro folders
    induction folders with
    | nil => simp [Solid]
    | cons folder folders induction =>
        have behindFolder : Solid (folder ++ ['/']) := by simp [Solid]
        exact behindFolder.append induction
  have spelledSolid : Solid (spelled folders name) := (inFolders folders.reverse).append solid
  exact solid_slash.append (spelledSolid.of_suffix (List.dropWhile_suffix _))

theorem solid_closed (solid : Solid path) : Solid (closed path) := by
  rcases closed_cases path with same | longer
  · rwa [same]
  · rw [longer]
    exact solid.append solid_slash

theorem exists_closed_opened (folders : List (List Char)) (name : List Char) :
    ∃ rest, closed (opened folders name) = '/' :: rest ∧ rest.head? ≠ some '/' := by
  have stops := @head?_dropWhile_false (· == '/') (spelled folders name)
  rw [opened]
  cases parts : (spelled folders name).dropWhile (· == '/') with
  | nil => exact ⟨[], rfl, by simp⟩
  | cons first rest =>
      have other : first ≠ '/' := by simpa [parts] using stops
      rcases closed_cases ('/' :: first :: rest) with same | longer
      · exact ⟨first :: rest, same, by simpa using other⟩
      · exact ⟨first :: rest ++ ['/'], longer, by simpa using other⟩

theorem not_endsInDrive_closed (path : List Char) : ¬ endsInDrive (closed path) := by
  rw [closed]
  split
  next =>
    intro drive
    rcases endsInDrive_iff.mp drive with ⟨front, letter, mark, same, _, marked⟩
    have lastSame := congrArg List.getLast? same
    simp at lastSame
    subst lastSame
    simp at marked
  next notDrive => exact notDrive

theorem mem_splitOn_closed_iff (nonempty : piece ≠ []) :
    piece ∈ (closed path).splitOn '/' ↔ piece ∈ path.splitOn '/' := by
  rcases closed_cases path with same | longer
  · rw [same]
  · rw [longer, splitOn_append_cons, List.splitOn_nil, List.mem_append, List.mem_singleton,
      or_iff_left nonempty]

theorem mem_splitOn_opened_iff (nonempty : piece ≠ []) (noSlash : ∀ folder ∈ folders, '/' ∉ folder)
    (nameNoSlash : '/' ∉ name) :
    piece ∈ (opened folders name).splitOn '/' ↔ piece ∈ folders ∨ piece = name := by
  have apart : ∀ piece ∈ folders.reverse ++ [name], '/' ∉ piece := by
    simpa [or_imp, forall_and] using ⟨noSlash, nameNoSlash⟩
  rw [opened, splitOn_cons_self, List.mem_cons, or_iff_right nonempty,
    mem_splitOn_dropWhile_iff nonempty, spelled_eq, List.splitOn_intercalate '/' apart (by simp)]
  simp

end paths

section ids

variable {id : List Char} {c : Char}

theorem mem_cleaned (member : c ∈ cleaned id) : c = '/' ∨ c ∈ id := by
  rcases List.mem_map.mp member with ⟨first, inTrimmed, same⟩
  have inRooted : first ∈ rooted id := by
    rw [dropEndWhile, List.mem_reverse] at inTrimmed
    exact List.mem_reverse.mp (List.dropWhile_subset _ inTrimmed)
  have inId : first = '/' ∨ first ∈ id := by
    rw [rooted] at inRooted
    split at inRooted
    next => exact .inr inRooted
    next => exact List.mem_cons.mp inRooted
  split at same
  next => exact .inl same.symm
  next => exact same ▸ inId

theorem exists_isBreak_of_hidesDots (hides : HidesDots ((cleaned id).splitOn '/')) :
    ∃ c ∈ id, isBreak c := by
  rcases hides.exists_break with ⟨piece, listed, c, member, broken⟩
  rcases mem_cleaned (mem_of_mem_splitOn listed member).1 with rfl | inId
  · cases broken
  · exact ⟨c, inId, broken⟩

theorem solid_cleaned (id : List Char) : Solid (cleaned id) := by
  intro c last
  rw [cleaned, List.getLast?_map, dropEndWhile, List.getLast?_reverse] at last
  rcases Option.map_eq_some_iff.mp last with ⟨first, head, rfl⟩
  have stops : 0x20 < first.toNat := by simpa using head?_dropWhile_false first head
  split
  next => decide
  next => exact stops

theorem noBackslash_cleaned (id : List Char) : '\\' ∉ cleaned id := by
  intro member
  rcases List.mem_map.mp member with ⟨c, _, same⟩
  split at same
  next => cases same
  next other => exact other same

theorem mem_pathText (member : c ∈ pathText id) :
    c = '/' ∨ c = ':' ∨ c ∈ cleaned id ∧ isBreak c = false := by
  have inPieces : ∀ piece ∈ (cleaned id).splitOn '/', ∀ name, Leaves piece name → c ∈ name →
      c = ':' ∨ c ∈ cleaned id ∧ isBreak c = false := by
    intro piece inside name leaves inName
    exact (leaves.mem inName).imp_right fun found =>
      ⟨(mem_of_mem_splitOn inside found.1).1, found.2⟩
  rcases exists_splitOn '/' (cleaned id) with ⟨pieces, last, split, _⟩
  rw [pathText_eq] at member
  rw [split] at member inPieces
  rcases mem_closed member with inside | slash
  · rcases mem_opened inside with slash | ⟨folder, listed, inFolder⟩ | inName
    · exact .inl slash
    · rcases leaves_of_mem_walk listed with ⟨piece, inside, leaves⟩
      exact .inr (inPieces piece inside folder leaves inFolder)
    · exact .inr (inPieces last (by simp) _ (leaves_walk pieces last) inName)
  · exact .inl slash

theorem solid_pathText (id : List Char) : Solid (pathText id) := by
  rcases exists_splitOn '/' (cleaned id) with ⟨pieces, last, split, parts⟩
  have lastSolid : Solid last := (solid_cleaned id).of_suffix ⟨_, parts.symm⟩
  rw [pathText_eq, split]
  exact solid_closed (solid_opened ((leaves_walk pieces last).solid lastSolid))

theorem noSlash_of_leaves {piece name : List Char} (inside : piece ∈ (cleaned id).splitOn '/')
    (leaves : Leaves piece name) : '/' ∉ name := by
  intro member
  rcases leaves.mem member with colon | ⟨inPiece, _⟩
  · cases colon
  · exact (mem_of_mem_splitOn inside inPiece).2 rfl

/-- A path has a segment made of dots just where the pieces of the id hide one. -/
theorem exists_isDots_pathText_iff (id : List Char) :
    (∃ piece ∈ (pathText id).splitOn '/', IsDots piece) ↔ HidesDots ((cleaned id).splitOn '/') := by
  have nonempty : ∀ {piece}, IsDots piece → piece ≠ [] := by
    rintro _ (rfl | rfl) <;> simp
  rcases exists_splitOn '/' (cleaned id) with ⟨pieces, last, split, _⟩
  have noSlash : ∀ folder ∈ (walk [] (pieces ++ [last])).1, '/' ∉ folder := by
    intro folder listed
    rcases leaves_of_mem_walk listed with ⟨piece, inside, leaves⟩
    exact noSlash_of_leaves (split ▸ inside) leaves
  have nameNoSlash : '/' ∉ (walk [] (pieces ++ [last])).2 :=
    noSlash_of_leaves (split ▸ List.mem_append_right pieces List.mem_cons_self)
      (leaves_walk pieces last)
  rw [pathText_eq, split, ← exists_isDots_walk_iff]
  -- Pieces that are not empty come from the folders and the name alone, which have no slashes.
  have inside_iff : ∀ {piece}, IsDots piece →
      (piece ∈ (closed (opened (walk [] (pieces ++ [last])).1
          (walk [] (pieces ++ [last])).2)).splitOn '/' ↔
        piece ∈ (walk [] (pieces ++ [last])).1 ∨ piece = (walk [] (pieces ++ [last])).2) :=
    fun isDots => (mem_splitOn_closed_iff (nonempty isDots)).trans
      (mem_splitOn_opened_iff (nonempty isDots) noSlash nameNoSlash)
  constructor
  · rintro ⟨piece, inside, isDots⟩
    rcases (inside_iff isDots).mp inside with listed | rfl
    · exact .inl ⟨piece, listed, isDots⟩
    · exact .inr isDots
  · rintro (⟨folder, listed, isDots⟩ | isDots)
    · exact ⟨folder, (inside_iff isDots).mpr (.inl listed), isDots⟩
    · exact ⟨_, (inside_iff isDots).mpr (.inr rfl), isDots⟩

theorem normal_pathText (id : List Char) : Normal (pathText id) := by
  have noBackslash : '\\' ∉ pathText id := by
    intro member
    rcases mem_pathText member with slash | colon | ⟨inCleaned, _⟩
    · cases slash
    · cases colon
    · exact noBackslash_cleaned id inCleaned
  have whole : ∀ c ∈ pathText id, isBreak c = false := by
    intro c member
    rcases mem_pathText member with rfl | rfl | ⟨_, unbroken⟩
    · rfl
    · rfl
    · exact unbroken
  exact {
    oneSlash := exists_closed_opened _ _
    noBackslash
    noTab := fun member => absurd (whole _ member) (by decide)
    noLineFeed := fun member => absurd (whole _ member) (by decide)
    noReturn := fun member => absurd (whole _ member) (by decide)
    solid := solid_pathText id
    noDrive := fun front letter mark parts isAlpha => not_or.mp fun marked =>
      not_endsInDrive_closed _ (endsInDrive_iff.mpr ⟨front, letter, mark, parts, isAlpha, marked⟩) }

end ids

end ReloadReport.AbsoluteId
