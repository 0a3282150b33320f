import Mathlib.Data.List.Induction
import ReloadReport.Proofs.Origin.Walk

/-!
# Names made of dots

A dot or a double dot between slashes is resolved and leaves no name. Only behind a drive and a tab
or a line end a name may be made of dots, and it is all of this kind that a walk can leave.
-/

namespace ReloadReport.AbsoluteId

/-- Among the pieces of an id, those in front lead back to the root, the next one is a drive with a
name made of dots behind a tab or a line end, and those behind it do not leave that name. -/
inductive HidesDots (pieces : List (List Char)) : Prop where
  | intro {front back : List (List Char)} {piece drive dots : List Char}
      (parts : pieces = front ++ piece :: back) (atRoot : front.foldl pass [] = [])
      (parted : driveAndName? [] piece = some (drive, dots)) (isDots : IsDots dots)
      (stays : [dots, drive] <:+ back.foldl pass [dots, drive]) : HidesDots pieces

variable {piece segment drive name folder dots : List Char} {folders pieces : List (List Char)}

theorem HidesDots.exists_break (hides : HidesDots pieces) :
    ∃ piece ∈ pieces, ∃ c ∈ piece, isBreak c := by
  rcases hides with ⟨rfl, _, parted⟩
  exact ⟨_, List.mem_append_right _ List.mem_cons_self,
    (parted_of_driveAndName? parted).2.exists_break⟩

theorem mem_of_isDots_of_mem_enter (isDots : IsDots folder)
    (member : folder ∈ enter folders segment) : folder ∈ folders := by
  unfold enter at member
  split at member
  next => exact member
  next notDot =>
    split at member
    next =>
      split at member
      next => cases member
      next inner outer =>
        split at member
        next => exact member
        next => exact List.mem_cons_of_mem inner member
    next notDots =>
      rcases List.mem_cons.mp member with rfl | outer
      · rw [named] at isDots
        split at isDots
        next drive =>
          rcases isDrive_iff.mp drive.2 with ⟨letter, mark, rfl, _⟩
          exact absurd isDots (by simp [IsDots])
        next => exact absurd isDots (not_or.mpr ⟨notDot, notDots⟩)
      · exact outer

/-- A folder below another one stays until a double dot leaves it. -/
theorem suffix_enter {outer : List Char} (stays : [folder, outer] <:+ folders)
    (noDrive : ¬ isDrive folder) (segment : List Char) :
    [folder, outer] <:+ enter folders segment ∨ enter folders segment = [outer] := by
  unfold enter
  split
  next => exact .inl stays
  next =>
    split
    next =>
      rcases stays with ⟨deeper, rfl⟩
      cases deeper with
      | nil => exact .inr (by simp [noDrive])
      | cons innermost deeper =>
          refine .inl ?_
          by_cases drive : isDrive innermost
          · exact ⟨innermost :: deeper, by simp [drive]⟩
          · exact ⟨deeper, by simp [drive]⟩
    next => exact .inl (stays.trans (List.suffix_cons _ folders))

theorem foldl_pass_of_parted {front : List (List Char)} (atRoot : front.foldl pass [] = [])
    (parted : driveAndName? [] piece = some (drive, name)) (back : List (List Char)) :
    (front ++ piece :: back).foldl pass [] = back.foldl pass [name, drive] := by
  rw [List.foldl_append, atRoot, List.foldl_cons, pass, parted]

theorem hidesDots_of_mem_foldl (isDots : IsDots folder) (member : folder ∈ pieces.foldl pass []) :
    HidesDots pieces := by
  induction pieces using List.reverseRecOn with
  | nil => cases member
  | append_singleton pieces piece induction =>
      rw [List.foldl_append, List.foldl_cons, List.foldl_nil] at member
      cases parted : driveAndName? (pieces.foldl pass []) piece with
      | some parts =>
          rcases parted_of_driveAndName? parted with ⟨atRoot, apart⟩
          rw [pass, parted] at member
          rcases List.mem_pair.mp member with rfl | rfl
          · exact .intro rfl atRoot (atRoot ▸ parted) isDots (List.suffix_refl _)
          · exact absurd isDots apart.not_isDots
      | none =>
          have entered : pass (pieces.foldl pass []) piece =
              enter (pieces.foldl pass []) (unbroken piece) := by
            rw [pass, parted]
          rw [entered] at member
          -- Dots are never entered, so they were there before this piece and are not left by it.
          rcases induction (mem_of_isDots_of_mem_enter isDots member) with
            @⟨front, back, hidden, drive, dots, rfl, atRoot, hiddenParted, hiddenDots, stays⟩
          rw [foldl_pass_of_parted atRoot hiddenParted] at entered member
          have noDrive : ¬ isDrive dots := by
            rcases hiddenDots with rfl | rfl <;> decide
          have further : [dots, drive] <:+ (back ++ [piece]).foldl pass [dots, drive] := by
            rw [List.foldl_append, List.foldl_cons, List.foldl_nil, entered]
            rcases suffix_enter stays noDrive (unbroken piece) with still | left
            · exact still
            · rw [left, List.mem_singleton] at member
              exact absurd (member ▸ isDots) (parted_of_driveAndName? hiddenParted).2.not_isDots
          exact .intro (by simp) atRoot hiddenParted hiddenDots further

/-- A walk leaves a folder or a name made of dots just where the pieces hide one. -/
theorem exists_isDots_iff (pieces : List (List Char)) :
    (∃ folder ∈ pieces.foldl pass [], IsDots folder) ↔ HidesDots pieces := by
  constructor
  · rintro ⟨folder, member, isDots⟩
    exact hidesDots_of_mem_foldl isDots member
  · rintro ⟨rfl, atRoot, parted, isDots, stays⟩
    rw [foldl_pass_of_parted atRoot parted]
    exact ⟨_, stays.subset List.mem_cons_self, isDots⟩

/-! ## The last piece -/

/-- The last piece is walked like the others, but what it enters is the name. -/
theorem pass_eq_finish (folders : List (List Char)) (last : List Char) :
    pass folders last = (finish folders last).2 :: (finish folders last).1 ∨
      pass folders last = (finish folders last).1 ∧ (finish folders last).2 = [] := by
  rw [pass, finish]
  cases driveAndName? folders last with
  | some parts => exact .inl rfl
  | none =>
      by_cases isDots : IsDots (unbroken last)
      · exact .inr (by simp [show unbroken last = ['.'] ∨ unbroken last = ['.', '.'] from isDots])
      · rcases not_or.mp isDots with ⟨notDot, notDots⟩
        exact .inl (by simp [enter, notDot, notDots])

theorem exists_isDots_walk_iff (pieces : List (List Char)) (last : List Char) :
    ((∃ folder ∈ (walk [] (pieces ++ [last])).1, IsDots folder) ∨
        IsDots (walk [] (pieces ++ [last])).2) ↔ HidesDots (pieces ++ [last]) := by
  have nameless : ¬ IsDots [] := by decide
  rw [← exists_isDots_iff, List.foldl_append, List.foldl_cons, List.foldl_nil,
    walk_append_singleton]
  rcases pass_eq_finish (pieces.foldl pass []) last with named | ⟨unnamed, empty⟩
  · rw [named, List.exists_mem_cons_iff, or_comm]
  · simp [unnamed, empty, nameless]

end ReloadReport.AbsoluteId
