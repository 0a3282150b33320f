import ReloadReport.Log.Colour

/-!
# Erased colours

What is left of a text after one pass from its left end that erases every mark it meets, and the
colourless text as what two such passes leave.
-/

namespace ReloadReport.Log

/-- The second text is left of the first after one pass from the left that erases the mark. -/
inductive Erased (mark : List Char) : List Char → List Char → Prop
  | nil : Erased mark [] []
  | erase : Erased mark text rest → Erased mark (mark ++ text) rest
  | keep : ¬ mark <+: c :: text → Erased mark text rest → Erased mark (c :: text) (c :: rest)

def resetMark : List Char :=
  "\x1b[0m".toList

def redMark : List Char :=
  "\x1b[31m".toList

/-- First the ends of colours are erased, then the starts of red. -/
def Colourless (raw text : List Char) : Prop :=
  ∃ halfway, Erased resetMark raw halfway ∧ Erased redMark halfway text

theorem erased_dropReset (text : List Char) : Erased resetMark text (dropReset text) := by
  fun_induction dropReset text with
  | case1 text induction => exact induction.erase
  | case2 c text plain induction =>
      refine induction.keep ?_
      intro found
      rcases found with ⟨rest, marked⟩
      injection marked with sameHead sameTail
      exact plain rest sameHead.symm sameTail.symm
  | case3 => exact .nil

theorem erased_dropRed (text : List Char) : Erased redMark text (dropRed text) := by
  fun_induction dropRed text with
  | case1 text induction => exact induction.erase
  | case2 c text plain induction =>
      refine induction.keep ?_
      intro found
      rcases found with ⟨rest, marked⟩
      injection marked with sameHead sameTail
      exact plain rest sameHead.symm sameTail.symm
  | case3 => exact .nil

theorem Erased.unique {mark text left right : List Char} (nonempty : mark ≠ [])
    (leftErased : Erased mark text left) (rightErased : Erased mark text right) : left = right := by
  have noErasure : ∀ {text : List Char}, mark ++ text ≠ [] := fun empty =>
    nonempty (List.append_eq_nil_iff.mp empty).1
  induction leftErased generalizing right with
  | nil =>
      generalize empty : ([] : List Char) = whole at rightErased
      cases rightErased with
      | nil => rfl
      | erase => exact absurd empty.symm noErasure
      | keep => cases empty
  | @erase text rest _ induction =>
      generalize marked : mark ++ text = whole at rightErased
      cases rightErased with
      | nil => exact absurd marked noErasure
      | erase erased => exact induction (List.append_cancel_left marked ▸ erased)
      | keep unmarked => exact absurd ⟨text, marked⟩ unmarked
  | @keep c text rest unmarked _ induction =>
      generalize kept : c :: text = whole at rightErased
      cases rightErased with
      | nil => cases kept
      | erase => exact absurd ⟨_, kept.symm⟩ unmarked
      | keep _ erased =>
          injection kept with sameHead sameTail
          subst sameHead sameTail
          rw [induction erased]

theorem colourless_iff {raw text : List Char} :
    Colourless raw text ↔ text = withoutColour raw := by
  constructor
  · intro erased
    rcases erased with ⟨halfway, resets, reds⟩
    rw [resets.unique (by decide) (erased_dropReset raw)] at reds
    exact reds.unique (by decide) (erased_dropRed _)
  · rintro rfl
    exact ⟨dropReset raw, erased_dropReset raw, erased_dropRed _⟩

end ReloadReport.Log
