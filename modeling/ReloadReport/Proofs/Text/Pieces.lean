import Mathlib.Data.List.Basic

/-!
# Pieces between marks

What the pieces of a text that lie between the places of a mark have of the text.
-/

namespace ReloadReport.Text

variable {mark c : Char} {text piece last : List Char} {pieces : List (List Char)}

theorem mem_of_mem_splitOn (inside : piece ∈ text.splitOn mark) (member : c ∈ piece) :
    c ∈ text ∧ c ≠ mark := by
  induction text generalizing piece with
  | nil =>
      rw [List.splitOn_nil, List.mem_singleton] at inside
      rw [inside] at member
      cases member
  | cons first text induction =>
      rw [List.splitOn_cons_eq_if_modifyHead] at inside
      split at inside
      next =>
        rcases List.mem_cons.mp inside with rfl | later
        · cases member
        · exact (induction later member).imp_left (List.mem_cons_of_mem first)
      next other =>
        rcases List.exists_cons_of_ne_nil (List.splitOn_ne_nil mark text) with
          ⟨head, rest, split⟩
        rw [split, List.modifyHead_cons] at inside
        rw [split] at induction
        rcases List.mem_cons.mp inside with rfl | later
        · rcases List.mem_cons.mp member with rfl | further
          · exact ⟨List.mem_cons_self, by simpa using other⟩
          · exact (induction List.mem_cons_self further).imp_left (List.mem_cons_of_mem first)
        · exact (induction (List.mem_cons_of_mem head later) member).imp_left
            (List.mem_cons_of_mem first)

theorem splitOn_append_cons (mark : Char) (front back : List Char) :
    (front ++ mark :: back).splitOn mark = front.splitOn mark ++ back.splitOn mark :=
  List.splitOnP_append_cons front back (beq_self_eq_true mark)

theorem splitOn_cons_self (mark : Char) (text : List Char) :
    (mark :: text).splitOn mark = [] :: text.splitOn mark :=
  List.splitOn_append_cons_self_of_not_mem List.not_mem_nil text

/-- What follows a mark does not depend on the piece in front of it. -/
theorem exists_splitOn_append (below : text = [] ∨ text.head? = some mark) :
    ∃ later, ∀ piece, mark ∉ piece → (piece ++ text).splitOn mark = piece :: later := by
  rcases below with rfl | starts
  · exact ⟨[], fun piece noMark => by rw [List.append_nil, List.splitOn_eq_singleton noMark]⟩
  · rcases List.head?_eq_some_iff.mp starts with ⟨rest, rfl⟩
    exact ⟨rest.splitOn mark, fun piece noMark =>
      List.splitOn_append_cons_self_of_not_mem noMark rest⟩

theorem notMem_intercalate (different : c ≠ mark) (notMember : ∀ piece ∈ pieces, c ∉ piece) :
    c ∉ [mark].intercalate pieces := by
  induction pieces with
  | nil => simp
  | cons piece pieces induction =>
      rcases List.forall_mem_cons.mp notMember with ⟨here, later⟩
      cases pieces with
      | nil => simpa using here
      | cons next pieces =>
          rw [List.intercalate_cons_cons]
          simp [here, different, induction later]

theorem intercalate_append_singleton (mark : Char) (pieces : List (List Char)) (last : List Char) :
    [mark].intercalate (pieces ++ [last]) = pieces.flatMap (· ++ [mark]) ++ last := by
  induction pieces with
  | nil => simp
  | cons piece pieces induction =>
      rw [List.cons_append, List.intercalate_cons_of_ne_nil (by simp), induction]
      simp

theorem exists_splitOn (mark : Char) (text : List Char) :
    ∃ pieces last, text.splitOn mark = pieces ++ [last] ∧
      text = pieces.flatMap (· ++ [mark]) ++ last := by
  rcases List.eq_nil_or_concat (text.splitOn mark) with none | ⟨pieces, last, split⟩
  · exact absurd none (List.splitOn_ne_nil mark text)
  · refine ⟨pieces, last, by simpa using split, ?_⟩
    rw [← intercalate_append_singleton, ← List.concat_eq_append, ← split,
      List.intercalate_splitOn]

theorem splitOn_append_of_notMem {front back : List Char} (notMember : mark ∉ back)
    (split : front.splitOn mark = pieces ++ [last]) :
    (front ++ back).splitOn mark = pieces ++ [last ++ back] := by
  have joined : front = [mark].intercalate (pieces ++ [last]) := by
    rw [← split, List.intercalate_splitOn]
  have longer : front ++ back = [mark].intercalate (pieces ++ [last ++ back]) := by
    rw [joined, intercalate_append_singleton, intercalate_append_singleton, List.append_assoc]
  rw [longer, List.splitOn_intercalate mark ?_ (by simp)]
  intro piece inside member
  rcases List.mem_append.mp inside with earlier | ending
  · exact (mem_of_mem_splitOn (split ▸ List.mem_append_left [last] earlier) member).2 rfl
  · rw [List.mem_singleton.mp ending, List.mem_append] at member
    have inFront := member.resolve_right notMember
    exact (mem_of_mem_splitOn (split ▸ List.mem_append_right pieces List.mem_cons_self) inFront).2
      rfl

/-- Pieces with a mark behind each stand in front of the pieces of the text behind them. -/
theorem splitOn_flatMap_append (noMark : ∀ piece ∈ pieces, mark ∉ piece) (text : List Char) :
    (pieces.flatMap (· ++ [mark]) ++ text).splitOn mark = pieces ++ text.splitOn mark := by
  induction pieces with
  | nil => rfl
  | cons piece pieces induction =>
      rcases List.forall_mem_cons.mp noMark with ⟨here, later⟩
      rw [List.cons_append, ← induction later, ← List.splitOn_append_cons_self_of_not_mem here]
      simp

section word

variable {word : List Char}

theorem eq_nil_of_prefix_cons (notMember : mark ∉ word) (starts : word <+: mark :: text) :
    word = [] := by
  rcases List.prefix_cons_iff.mp starts with empty | ⟨rest, rfl, _⟩
  · exact empty
  · exact absurd List.mem_cons_self notMember

theorem infix_append_cons_iff (notMember : mark ∉ word) {front back : List Char} :
    word <:+: front ++ mark :: back ↔ word <:+: front ∨ word <:+: back := by
  rw [List.infix_append_iff, List.infix_cons_iff]
  constructor
  · rintro (inFront | (starts | inBack) | ⟨left, right, rfl, ends, starts⟩)
    · exact .inl inFront
    · exact .inr (eq_nil_of_prefix_cons notMember starts ▸ List.nil_infix)
    · exact .inr inBack
    · have noRight : mark ∉ right := fun member => notMember (List.mem_append_right left member)
      rw [eq_nil_of_prefix_cons noRight starts, List.append_nil]
      exact .inl ends.isInfix
  · rintro (inFront | inBack)
    · exact .inl inFront
    · exact .inr (.inl (.inr inBack))

theorem infix_flatMap_append_iff (notMember : mark ∉ word) :
    word <:+: pieces.flatMap (· ++ [mark]) ++ text ↔
      (∃ piece ∈ pieces, word <:+: piece) ∨ word <:+: text := by
  induction pieces with
  | nil => simp
  | cons piece pieces induction =>
      rw [List.flatMap_cons, List.append_assoc, List.append_assoc, List.singleton_append,
        infix_append_cons_iff notMember, induction, List.exists_mem_cons_iff, or_assoc]

end word

theorem mem_splitOn_dropWhile_iff (nonempty : piece ≠ []) :
    piece ∈ (text.dropWhile (· == mark)).splitOn mark ↔ piece ∈ text.splitOn mark := by
  induction text with
  | nil => rfl
  | cons first text induction =>
      by_cases same : first = mark
      · rw [List.dropWhile_cons_of_pos (by simpa using same), induction, same, splitOn_cons_self,
          List.mem_cons, or_iff_right nonempty]
      · rw [List.dropWhile_cons_of_neg (by simpa using same)]

end ReloadReport.Text
