/-!
# Colour sequences

Build logs are coloured by escape sequences, of which the ones for red and for the end of a colour
occur in error lines.
-/

namespace ReloadReport.Log

def dropReset : List Char → List Char
  | '\x1b' :: '[' :: '0' :: 'm' :: text => dropReset text
  | c :: text => c :: dropReset text
  | [] => []

def dropRed : List Char → List Char
  | '\x1b' :: '[' :: '3' :: '1' :: 'm' :: text => dropRed text
  | c :: text => c :: dropRed text
  | [] => []

/-- The text without colour sequences. The ends of colours go first, so a sequence that they had
parted is taken out as well. -/
def withoutColour (text : List Char) : List Char :=
  dropRed (dropReset text)

theorem dropReset_of_notMem {text : List Char} (notMember : '\x1b' ∉ text) :
    dropReset text = text := by
  fun_induction dropReset text with
  | case1 text induction => exact absurd List.mem_cons_self notMember
  | case2 c text plain induction =>
      rw [induction fun member => notMember (List.mem_cons_of_mem c member)]
  | case3 => rfl

theorem dropRed_of_notMem {text : List Char} (notMember : '\x1b' ∉ text) :
    dropRed text = text := by
  fun_induction dropRed text with
  | case1 text induction => exact absurd List.mem_cons_self notMember
  | case2 c text plain induction =>
      rw [induction fun member => notMember (List.mem_cons_of_mem c member)]
  | case3 => rfl

theorem withoutColour_of_notMem {text : List Char} (notMember : '\x1b' ∉ text) :
    withoutColour text = text := by
  rw [withoutColour, dropReset_of_notMem notMember, dropRed_of_notMem notMember]

/-- Removing the end of a colour may join the halves of a start, which then goes too. -/
example : withoutColour "\x1b[31m[error]\x1b[0m \x1b[3\x1b[0m1mx\x1b[1m".toList =
    "[error] x\x1b[1m".toList := by
  decide

end ReloadReport.Log
