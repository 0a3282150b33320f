import ReloadReport.Command.Directory

/-!
# Files written over

Where a file is written over, every path leads where it led before. The paths to the file read the
new text, and all others read what they read before.
-/

namespace ReloadReport.Command.Directory

variable {directory : Directory} {file : Path} {old new : ByteArray}

theorem contentAt?_put_self : (directory.put file new).contentAt? (.inside file.names) = some new :=
  List.lookup_cons_self

theorem contentAt?_put_of_ne {place : Place} (other : place ≠ .inside file.names) :
    (directory.put file new).contentAt? place = directory.contentAt? place := by
  cases place with
  | inside names =>
      have different : (names == file.names) = false := by
        simpa using fun same => other (congrArg Place.inside same)
      rw [contentAt?, put, List.lookup_cons, different]
      rfl
  | above | rooted => rfl

section follow

variable (held : directory.files.lookup file.names = some old)

include held

theorem occupied_put (names : List (List Char)) :
    (directory.put file new).occupied names = directory.occupied names := by
  have there : (file.names, old) ∈ directory.files := by
    rcases List.lookup_eq_some_iff.mp held with ⟨front, back, parts, _⟩
    simp [parts]
  rw [occupied, put, List.any_cons]
  cases leads : names.isPrefixOf file.names with
  | false => rfl
  | true => exact (List.any_eq_true.mpr ⟨_, there, leads⟩).symm

theorem isSome_contentAt?_put (place : Place) :
    ((directory.put file new).contentAt? place).isSome = (directory.contentAt? place).isSome := by
  by_cases here : place = .inside file.names
  · rw [here, contentAt?_put_self, contentAt?, held]
    rfl
  · rw [contentAt?_put_of_ne here]

theorem enter_put (name : List Char) (place : Place) :
    (directory.put file new).enter name place = directory.enter name place := by
  have below : (directory.put file new).below? name place = directory.below? name place := by
    cases place with
    | inside names => rw [below?, occupied_put held, below?]
    | above | rooted => rfl
  rw [enter, below, enter]

theorem follow_put (place : Place) (pieces : List (List Char)) :
    (directory.put file new).follow place pieces = directory.follow place pieces := by
  induction pieces generalizing place with
  | nil => rfl
  | cons piece pieces induction =>
      simp only [follow, isSome_contentAt?_put held, enter_put held, induction]

end follow

section read

variable {text other : String}

theorem textAt_of_text {place : Place} (holds : directory.contentAt? place = some text.toUTF8) :
    directory.textAt place = .ok text := by
  have decoded : String.fromUTF8? text.toUTF8 = some text := dif_pos text.isValidUTF8
  simp only [textAt, holds, decoded]

/-- A text that is put in place of another is read by the paths that read the other one. -/
theorem read_put (held : directory.files.lookup file.names = some text.toUTF8) (path : Path) :
    (directory.put file other.toUTF8).read path = directory.read path ∨
      directory.read path = .ok text ∧ (directory.put file other.toUTF8).read path = .ok other := by
  -- Some texts are no paths in any directory, whatever is in it.
  by_cases unled : path.text = "" ∨ longestPath < path.text.utf8ByteSize
  · refine .inl ?_
    rcases unled with empty | long
    · rw [read, if_pos empty, read, if_pos empty]
    · simp only [read, long, if_true]
  · rcases not_or.mp unled with ⟨nonempty, short⟩
    simp only [read, if_neg nonempty, if_neg short, follow_put held]
    cases directory.follow (if path.isAbsolute then .rooted [] else .inside []) path.pieces with
    | error problem => exact .inl rfl
    | ok place =>
        by_cases here : place = .inside file.names
        · exact .inr ⟨textAt_of_text (here ▸ held), textAt_of_text (here ▸ contentAt?_put_self)⟩
        · refine .inl ?_
          simp only [Except.bind, textAt, contentAt?_put_of_ne here]

end read

end ReloadReport.Command.Directory
