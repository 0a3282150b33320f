import ReloadReport.Origin.AbsoluteId
import ReloadReport.Proofs.Text.Pieces

/-!
# Walking down the pieces of an id

What a piece can leave behind as a folder or as a name. A walk has no other folders and names, so
what the pieces have not is not in the path either, and pieces that spell themselves are all kept.
-/

namespace ReloadReport.AbsoluteId

variable {piece segment name drive folder : List Char} {folders : List (List Char)} {c : Char}

def IsDots (segment : List Char) : Prop :=
  segment = ['.'] ∨ segment = ['.', '.']

instance (segment : List Char) : Decidable (IsDots segment) :=
  inferInstanceAs (Decidable (segment = ['.'] ∨ segment = ['.', '.']))

/-- A text with nothing at its end that would be left out. -/
def Solid (text : List Char) : Prop :=
  ∀ c ∈ text.getLast?, 0x20 < c.toNat

namespace Solid

variable {front back text : List Char}

theorem of_suffix (solid : Solid text) (suffix : back <:+ text) : Solid back := by
  rcases suffix with ⟨front, rfl⟩
  intro c last
  exact solid c (by simp [Option.mem_def.mp last])

theorem append (frontSolid : Solid front) (backSolid : Solid back) : Solid (front ++ back) := by
  intro c last
  rw [List.getLast?_append, Option.mem_def, Option.or_eq_some_iff] at last
  rcases last with inBack | ⟨_, inFront⟩
  · exact backSolid c inBack
  · exact frontSolid c inFront

end Solid

inductive Leaves (piece : List Char) : List Char → Prop where
  | nameless : Leaves piece []
  | segment (enters : ¬ IsDots (unbroken piece)) : Leaves piece (unbroken piece)
  /-- A drive, which may have had a bar for its colon. -/
  | drive {letter : Char} (isAlpha : letter.isAlpha) (inside : letter ∈ piece) :
      Leaves piece [letter, ':']
  | behind {front back : List Char} (parts : piece = front ++ back)
      (broken : ∃ c ∈ front, isBreak c) : Leaves piece (unbroken back)

theorem mem_unbroken_iff : c ∈ unbroken piece ↔ c ∈ piece ∧ isBreak c = false := by
  simp [unbroken, List.mem_filter]

theorem isDrive_iff : isDrive segment ↔
    ∃ letter mark, segment = [letter, mark] ∧ letter.isAlpha ∧ (mark = ':' ∨ mark = '|') := by
  constructor
  · intro drive
    unfold isDrive at drive
    split at drive
    next letter mark =>
      exact ⟨letter, mark, rfl, by simpa using drive⟩
    next => cases drive
  · rintro ⟨letter, mark, rfl, isAlpha, marked⟩
    simpa [isDrive, isAlpha] using marked

inductive Parted (piece : List Char) : List Char → List Char → Prop where
  | intro {front back : List Char} {gap letter : Char} (parts : piece = front ++ gap :: back)
      (broken : isBreak gap) (isAlpha : letter.isAlpha) (inside : letter ∈ front) :
      Parted piece [letter, ':'] (unbroken back)

theorem driveAndName?_eq_some_iff : driveAndName? folders piece = some (drive, name) ↔
    ∃ letter rest gap back, folders = [] ∧ piece.dropWhile isBreak = letter :: rest ∧
      rest.dropWhile isBreak = ':' :: gap :: back ∧ (letter.isAlpha ∧ isBreak gap ∧
      unbroken back ≠ []) ∧ drive = [letter, ':'] ∧ name = unbroken back := by
  constructor
  · intro parted
    unfold driveAndName? at parted
    split at parted
    next letter rest letterAt =>
      split at parted
      next gap back colonAt =>
        split at parted
        next drives =>
          cases parted
          exact ⟨letter, rest, gap, back, rfl, letterAt, colonAt, drives, rfl, rfl⟩
        next => cases parted
      next => cases parted
    next => cases parted
  · intro parts
    rcases parts with ⟨letter, rest, gap, back, rfl, letterAt, colonAt, drives, rfl, rfl⟩
    simp only [driveAndName?, letterAt, colonAt]
    exact if_pos drives

/-- A drive is parted from a name only right below the root. -/
theorem parted_of_driveAndName? (parted : driveAndName? folders piece = some (drive, name)) :
    folders = [] ∧ Parted piece drive name := by
  rcases driveAndName?_eq_some_iff.mp parted with
    ⟨letter, rest, gap, back, atRoot, letterAt, colonAt, ⟨isAlpha, broken, _⟩, rfl, rfl⟩
  rcases List.dropWhile_suffix (l := piece) isBreak with ⟨before, pieceParts⟩
  rcases List.dropWhile_suffix (l := rest) isBreak with ⟨between, restParts⟩
  rw [letterAt] at pieceParts
  rw [colonAt] at restParts
  have parts : piece = (before ++ letter :: between ++ [':']) ++ gap :: back := by
    rw [← pieceParts, ← restParts]
    simp
  exact ⟨atRoot, .intro parts broken isAlpha (by simp)⟩

namespace Parted

theorem leaves (parted : Parted piece drive name) : Leaves piece drive ∧ Leaves piece name := by
  cases parted with
  | @intro front back gap letter parts broken isAlpha inside =>
      have split : piece = (front ++ [gap]) ++ back := by simp [parts]
      constructor
      · exact .drive isAlpha (parts ▸ List.mem_append_left _ inside)
      · exact .behind split ⟨gap, by simp, broken⟩

theorem exists_break (parted : Parted piece drive name) : ∃ c ∈ piece, isBreak c := by
  cases parted with
  | @intro _ _ gap _ parts broken => exact ⟨gap, by simp [parts], broken⟩

theorem not_isDots (parted : Parted piece drive name) : ¬ IsDots drive := by
  cases parted with
  | intro => simp [IsDots]

end Parted

theorem driveAndName?_of_whole (folders : List (List Char))
    (whole : ∀ c ∈ piece, isBreak c = false) : driveAndName? folders piece = none := by
  cases parted : driveAndName? folders piece with
  | none => rfl
  | some parts =>
      rcases (parted_of_driveAndName? parted).2.exists_break with ⟨c, member, broken⟩
      rw [whole c member] at broken
      cases broken

theorem leaves_named (enters : ¬ IsDots (unbroken piece)) :
    Leaves piece (named folders (unbroken piece)) := by
  rw [named]
  split
  next drive =>
    rcases isDrive_iff.mp drive.2 with ⟨letter, mark, segment, isAlpha, _⟩
    have inside : letter ∈ unbroken piece := by simp [segment]
    rw [segment]
    exact .drive isAlpha (mem_unbroken_iff.mp inside).1
  next => exact .segment enters

theorem mem_enter (member : folder ∈ enter folders (unbroken piece)) :
    folder ∈ folders ∨ Leaves piece folder := by
  unfold enter at member
  split at member
  next => exact .inl member
  next notDot =>
    split at member
    next =>
      split at member
      next => cases member
      next inner outer =>
        split at member
        next => exact .inl member
        next => exact .inl (List.mem_cons_of_mem inner member)
    next notDots =>
      rcases List.mem_cons.mp member with rfl | outer
      · exact .inr (leaves_named (not_or.mpr ⟨notDot, notDots⟩))
      · exact .inl outer

theorem mem_pass (member : folder ∈ pass folders piece) :
    folder ∈ folders ∨ Leaves piece folder := by
  rw [pass] at member
  split at member
  next drive name parted =>
    rcases (parted_of_driveAndName? parted).2.leaves with ⟨leavesDrive, leavesName⟩
    rcases List.mem_pair.mp member with rfl | rfl
    · exact .inr leavesName
    · exact .inr leavesDrive
  next => exact mem_enter member

theorem mem_finish (member : folder ∈ (finish folders piece).1) :
    folder ∈ folders ∨ Leaves piece folder := by
  simp only [finish] at member
  split at member
  next drive name parted =>
    rw [List.mem_singleton.mp member]
    exact .inr (parted_of_driveAndName? parted).2.leaves.1
  next =>
    split at member
    next => exact mem_enter member
    next => exact .inl member

theorem leaves_finish (folders : List (List Char)) (piece : List Char) :
    Leaves piece (finish folders piece).2 := by
  simp only [finish]
  split
  next drive name parted => exact (parted_of_driveAndName? parted).2.leaves.2
  next =>
    split
    next => exact .nameless
    next enters => exact leaves_named enters

theorem walk_append (folders : List (List Char)) (front : List (List Char))
    {back : List (List Char)} (some : back ≠ []) :
    walk folders (front ++ back) = walk (front.foldl pass folders) back := by
  induction front generalizing folders with
  | nil => rfl
  | cons piece front induction =>
      rcases List.exists_cons_of_ne_nil (List.append_ne_nil_of_right_ne_nil front some) with
        ⟨next, rest, parts⟩
      rw [List.foldl_cons, ← induction (pass folders piece), List.cons_append, parts, walk]

theorem walk_append_singleton (folders : List (List Char)) (pieces : List (List Char))
    (last : List Char) :
    walk folders (pieces ++ [last]) = finish (pieces.foldl pass folders) last :=
  walk_append folders pieces (List.cons_ne_nil last [])

theorem mem_foldl_pass {pieces : List (List Char)} (member : folder ∈ pieces.foldl pass folders) :
    folder ∈ folders ∨ ∃ piece ∈ pieces, Leaves piece folder := by
  induction pieces generalizing folders with
  | nil => exact .inl member
  | cons piece pieces induction =>
      rcases induction member with passed | ⟨later, inside, leaves⟩
      · exact (mem_pass passed).imp_right fun leaves => ⟨piece, List.mem_cons_self, leaves⟩
      · exact .inr ⟨later, List.mem_cons_of_mem piece inside, leaves⟩

section walks

variable {pieces : List (List Char)} {last : List Char}

theorem leaves_of_mem_walk (member : folder ∈ (walk [] (pieces ++ [last])).1) :
    ∃ piece ∈ pieces ++ [last], Leaves piece folder := by
  rw [walk_append_singleton] at member
  rcases mem_finish member with passed | leaves
  · rcases mem_foldl_pass passed with outside | ⟨piece, inside, leaves⟩
    · cases outside
    · exact ⟨piece, List.mem_append_left [last] inside, leaves⟩
  · exact ⟨last, List.mem_append_right pieces (List.mem_singleton_self last), leaves⟩

theorem leaves_walk (pieces : List (List Char)) (last : List Char) :
    Leaves last (walk [] (pieces ++ [last])).2 := by
  rw [walk_append_singleton]
  exact leaves_finish _ last

end walks

theorem isBreak_eq_false_iff : isBreak c = false ↔ c ≠ '\t' ∧ c ≠ '\n' ∧ c ≠ '\r' := by
  simp [isBreak, and_assoc]

theorem isBreak_of_solid (solid : 0x20 < c.toNat) : isBreak c = false := by
  apply isBreak_eq_false_iff.mpr
  refine ⟨?_, ?_, ?_⟩ <;> rintro rfl <;> exact absurd solid (by decide)

theorem isBreak_of_isAlpha (isAlpha : c.isAlpha) : isBreak c = false := by
  apply isBreak_eq_false_iff.mpr
  refine ⟨?_, ?_, ?_⟩ <;> rintro rfl <;> exact absurd isAlpha (by decide)

theorem unbroken_eq_self (whole : ∀ c ∈ piece, isBreak c = false) : unbroken piece = piece := by
  apply List.filter_eq_self.mpr
  intro c member
  simp [whole c member]

theorem solid_unbroken (solid : Solid piece) : Solid (unbroken piece) := by
  rcases List.eq_nil_or_concat piece with rfl | ⟨front, last, rfl⟩
  · exact solid
  · have lastSolid : 0x20 < last.toNat := solid last (by simp)
    have kept : unbroken (front.concat last) = unbroken front ++ [last] := by
      simp [unbroken, isBreak_of_solid lastSolid]
    rw [kept]
    simpa [Solid] using lastSolid

namespace Leaves

theorem mem (leaves : Leaves piece name) (member : c ∈ name) :
    c = ':' ∨ c ∈ piece ∧ isBreak c = false := by
  cases leaves with
  | nameless => cases member
  | segment => exact .inr (mem_unbroken_iff.mp member)
  | drive isAlpha inside =>
      rcases List.mem_pair.mp member with rfl | rfl
      · exact .inr ⟨inside, isBreak_of_isAlpha isAlpha⟩
      · exact .inl rfl
  | behind parts =>
      rcases mem_unbroken_iff.mp member with ⟨inside, whole⟩
      exact .inr ⟨parts ▸ List.mem_append_right _ inside, whole⟩

theorem solid (leaves : Leaves piece name) (solid : Solid piece) : Solid name := by
  cases leaves with
  | nameless => simp [Solid]
  | segment => exact solid_unbroken solid
  | drive => simp [Solid]
  | @behind front back parts => exact solid_unbroken (solid.of_suffix ⟨front, parts.symm⟩)

end Leaves

/-! ## Pieces that are kept -/

theorem driveAndName?_of_inside (inside : folders ≠ []) : driveAndName? folders piece = none := by
  cases folders with
  | nil => exact absurd rfl inside
  | cons folder folders => rfl

theorem pass_of_kept (inside : folders ≠ []) (whole : ∀ c ∈ piece, isBreak c = false)
    (enters : ¬ IsDots piece) : pass folders piece = piece :: folders := by
  rcases not_or.mp enters with ⟨notDot, notDots⟩
  simp [pass, driveAndName?_of_inside inside, unbroken_eq_self whole, enter, named, notDot, notDots,
    inside]

theorem finish_of_kept (inside : folders ≠ []) (whole : ∀ c ∈ piece, isBreak c = false)
    (enters : ¬ IsDots piece) : finish folders piece = (folders, piece) := by
  rcases not_or.mp enters with ⟨notDot, notDots⟩
  simp [finish, driveAndName?_of_inside inside, unbroken_eq_self whole, named, notDot, notDots,
    inside]

theorem foldl_pass_of_kept {pieces : List (List Char)} (inside : folders ≠ [])
    (whole : ∀ piece ∈ pieces, ∀ c ∈ piece, isBreak c = false)
    (enter : ∀ piece ∈ pieces, ¬ IsDots piece) :
    pieces.foldl pass folders = pieces.reverse ++ folders := by
  induction pieces generalizing folders with
  | nil => rfl
  | cons piece pieces induction =>
      rcases List.forall_mem_cons.mp whole with ⟨pieceWhole, laterWhole⟩
      rcases List.forall_mem_cons.mp enter with ⟨pieceEnters, laterEnter⟩
      rw [List.foldl_cons, pass_of_kept inside pieceWhole pieceEnters,
        induction (List.cons_ne_nil piece folders) laterWhole laterEnter]
      simp

end ReloadReport.AbsoluteId
