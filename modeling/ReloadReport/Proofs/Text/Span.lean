import ReloadReport.Text.Blank

/-!
# Runs of characters

A run of characters of one class in front of a text is cut off whole, and trimming a text takes
away such runs at both ends and nothing else.
-/

namespace ReloadReport.Text

variable {p : Char → Bool} {run rest : List Char}

theorem takeWhile_run (inside : ∀ c ∈ run, p c) (stops : ∀ c ∈ rest.head?, p c = false) :
    (run ++ rest).takeWhile p = run := by
  rw [List.takeWhile_append_of_pos inside]
  cases rest with
  | nil => simp
  | cons c rest => simp [stops c rfl]

theorem dropWhile_run (inside : ∀ c ∈ run, p c) (stops : ∀ c ∈ rest.head?, p c = false) :
    (run ++ rest).dropWhile p = rest := by
  rw [List.dropWhile_append_of_pos inside]
  cases rest with
  | nil => simp
  | cons c rest => simp [stops c rfl]

theorem run_unique {otherRun otherRest : List Char} (same : run ++ rest = otherRun ++ otherRest)
    (inside : ∀ c ∈ run, p c) (stops : ∀ c ∈ rest.head?, p c = false)
    (otherInside : ∀ c ∈ otherRun, p c) (otherStops : ∀ c ∈ otherRest.head?, p c = false) :
    run = otherRun ∧ rest = otherRest := by
  have sameRun := congrArg (List.takeWhile p) same
  have sameRest := congrArg (List.dropWhile p) same
  rw [takeWhile_run inside stops, takeWhile_run otherInside otherStops] at sameRun
  rw [dropWhile_run inside stops, dropWhile_run otherInside otherStops] at sameRest
  exact ⟨sameRun, sameRest⟩

theorem dropWhile_eq_self (stops : ∀ c ∈ rest.head?, p c = false) : rest.dropWhile p = rest := by
  have none : ∀ c ∈ ([] : List Char), p c := by simp
  exact dropWhile_run none stops

theorem length_le_length_takeWhile (rest : List Char) (inside : ∀ c ∈ run, p c) :
    run.length ≤ ((run ++ rest).takeWhile p).length := by
  rw [List.takeWhile_append_of_pos inside]
  simp

theorem mem_of_mem_takeWhile {text : List Char} {c : Char} (member : c ∈ text.takeWhile p) :
    p c :=
  List.all_eq_true.mp List.all_takeWhile c member

theorem notMem_dropWhile {text : List Char} {c : Char} (notMember : c ∉ text) :
    c ∉ text.dropWhile p :=
  fun member => notMember ((List.dropWhile_subset p) member)

theorem head?_dropWhile_false {text : List Char} : ∀ c ∈ (text.dropWhile p).head?, p c = false := by
  intro c head
  have stopped := List.head?_dropWhile_not p text
  rw [Option.mem_def.mp head] at stopped
  simpa using stopped

theorem dropWhile_append_singleton {c : Char} (stops : p c = false) (text : List Char) :
    (text ++ [c]).dropWhile p = text.dropWhile p ++ [c] := by
  rw [List.dropWhile_append]
  split
  next gone => simp [List.isEmpty_iff.mp gone, stops]
  next => rfl

theorem dropEndWhile_append (inside : ∀ c ∈ run, p c)
    (stops : ∀ c ∈ rest.getLast?, p c = false) : dropEndWhile p (rest ++ run) = rest := by
  rw [dropEndWhile, List.reverse_append,
    dropWhile_run (by simpa using inside) (by simpa using stops), List.reverse_reverse]

/-- A character that is not of the class keeps what stands in front of it. -/
theorem dropEndWhile_append_cons (front back : List Char) {c : Char} (stops : p c = false) :
    dropEndWhile p (front ++ c :: back) = front ++ c :: dropEndWhile p back := by
  have kept : (c :: front.reverse).dropWhile p = c :: front.reverse :=
    dropWhile_eq_self (by simpa using stops)
  have reversed : (front ++ c :: back).reverse = back.reverse ++ c :: front.reverse := by simp
  rw [dropEndWhile, dropEndWhile, reversed, List.dropWhile_append, kept]
  split
  next gone => simp [List.isEmpty_iff.mp gone]
  next => simp

theorem dropEndWhile_eq_self (stops : ∀ c ∈ rest.getLast?, p c = false) :
    dropEndWhile p rest = rest := by
  have none : ∀ c ∈ ([] : List Char), p c := by simp
  simpa using dropEndWhile_append none stops

theorem dropEndWhile_append_singleton (text : List Char) (c : Char) :
    dropEndWhile p (text ++ [c]) = if p c then dropEndWhile p text else text ++ [c] := by
  rw [dropEndWhile, List.reverse_append, List.reverse_singleton, List.singleton_append,
    List.dropWhile_cons]
  split
  next => rfl
  next => simp

/-- Every text is what is left of it at its end, and a run behind that. -/
theorem exists_dropEndWhile_append (p : Char → Bool) (text : List Char) :
    ∃ run, text = dropEndWhile p text ++ run ∧ ∀ c ∈ run, p c := by
  refine ⟨(text.reverse.takeWhile p).reverse, ?_, ?_⟩
  · rw [dropEndWhile, ← List.reverse_append, List.takeWhile_append_dropWhile, List.reverse_reverse]
  · intro c member
    exact mem_of_mem_takeWhile (List.mem_reverse.mp member)

theorem trim_surrounded {front back text : List Char} (frontBlank : ∀ c ∈ front, isBlank c)
    (backBlank : ∀ c ∈ back, isBlank c) (headSolid : ∀ c ∈ text.head?, isBlank c = false)
    (lastSolid : ∀ c ∈ text.getLast?, isBlank c = false) : trim (front ++ text ++ back) = text := by
  rw [trim, List.append_assoc, List.dropWhile_append_of_pos frontBlank]
  cases text with
  | nil =>
      have gone : back.dropWhile isBlank = [] := by
        rw [← List.append_nil back]
        exact dropWhile_run backBlank (by simp)
      simp [gone, trimEnd, dropEndWhile]
  | cons c text =>
      rw [dropWhile_eq_self (by simpa using headSolid c rfl), trimEnd]
      exact dropEndWhile_append backBlank lastSolid

theorem exists_trim_surrounded (text : List Char) :
    ∃ front back, text = front ++ trim text ++ back ∧ (∀ c ∈ front, isBlank c) ∧
      ∀ c ∈ back, isBlank c := by
  rcases exists_dropEndWhile_append isBlank (text.dropWhile isBlank) with ⟨back, parts, backBlank⟩
  refine ⟨text.takeWhile isBlank, back, ?_, fun c member => mem_of_mem_takeWhile member, backBlank⟩
  rw [trim, trimEnd, List.append_assoc, ← parts, List.takeWhile_append_dropWhile]

end ReloadReport.Text
