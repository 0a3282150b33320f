/-!
# Finding marks in texts

What follows a label, the cut of a text at the first place where a mark stands, and the cut at the
last place on a line where a reader accepts the rest.
-/

namespace ReloadReport.Text

def after? : (label text : List Char) → Option (List Char)
  | [], text => some text
  | _ :: _, [] => none
  | mark :: label, c :: text => if mark = c then after? label text else none

def cutAtFirst? (mark : List Char) : List Char → Option (List Char × List Char)
  | [] => (after? mark []).map fun rest => ([], rest)
  | c :: text =>
      match after? mark (c :: text) with
      | some rest => some ([], rest)
      | none => (cutAtFirst? mark text).map fun (before, rest) => (c :: before, rest)

/-- The longest part of the first line after which `accept` reads the rest of the text, and what
it reads there. -/
def cutAtLast? (accept : List Char → Option α) : List Char → Option (List Char × α)
  | [] => (accept []).map fun found => ([], found)
  | c :: text =>
      match if c = '\n' then none else cutAtLast? accept text with
      | some (before, found) => some (c :: before, found)
      | none => (accept (c :: text)).map fun found => ([], found)

theorem after?_eq_some_iff {label text rest : List Char} :
    after? label text = some rest ↔ text = label ++ rest := by
  induction label generalizing text with
  | nil => simp [after?]
  | cons mark label induction =>
      cases text with
      | nil => simp [after?]
      | cons c text =>
          by_cases same : mark = c
          · simp [after?, same, induction]
          · simp [after?, same, Ne.symm same]

theorem eq_of_cutAtFirst? {mark text before rest : List Char}
    (cut : cutAtFirst? mark text = some (before, rest)) : text = before ++ mark ++ rest := by
  induction text generalizing before with
  | nil =>
      simp only [cutAtFirst?, Option.map_eq_some_iff, Prod.mk.injEq] at cut
      obtain ⟨_, found, rfl, rfl⟩ := cut
      simpa using after?_eq_some_iff.mp found
  | cons c text induction =>
      rw [cutAtFirst?] at cut
      split at cut
      next found =>
        obtain ⟨rfl, rfl⟩ := by simpa using cut
        simpa using after?_eq_some_iff.mp found
      next =>
        simp only [Option.map_eq_some_iff, Prod.mk.injEq, Prod.exists] at cut
        obtain ⟨front, _, found, rfl, rfl⟩ := cut
        simpa using induction found

example : cutAtFirst? ['-', '>'] "1->2->3".toList = some (['1'], ['2', '-', '>', '3']) ∧
    cutAtFirst? ['-', '>'] "12".toList = none := by
  decide

/-- The last place on the first line is taken, even if the text goes on. -/
example : cutAtLast? (after? [':']) "a:b:c\n:".toList =
    some (['a', ':', 'b'], ['c', '\n', ':']) := by
  decide

end ReloadReport.Text
