import ReloadReport.Json.Limits
import ReloadReport.Proofs.Text.Pieces
import ReloadReport.Text.Lines
import ReloadReport.Text.Search

/-!
# Line ends

Carriage returns in front of the line feeds of a text change neither its lines nor what it spells
as JSON.
-/

namespace ReloadReport

namespace Text

def withReturns (text : List Char) : List Char :=
  text.flatMap fun c => if c = '\n' then ['\r', '\n'] else [c]

def returnedText (text : String) : String :=
  String.ofList (withReturns text.toList)

def returned : List (List Char) → List (List Char)
  | [] => []
  | [last] => [last]
  | piece :: next :: pieces => (piece ++ ['\r']) :: returned (next :: pieces)

@[simp] theorem toList_returnedText (text : String) :
    (returnedText text).toList = withReturns text.toList :=
  String.toList_ofList

@[simp] theorem withReturns_lineFeed (text : List Char) :
    withReturns ('\n' :: text) = '\r' :: '\n' :: withReturns text := rfl

@[simp] theorem withReturns_cons {c : Char} (different : c ≠ '\n') (text : List Char) :
    withReturns (c :: text) = c :: withReturns text := by
  simp [withReturns, different]

theorem returned_ne_nil {pieces : List (List Char)} (some : pieces ≠ []) :
    returned pieces ≠ [] := by
  cases pieces with
  | nil => exact absurd rfl some
  | cons piece pieces => cases pieces <;> simp [returned]

theorem splitOn_withReturns (text : List Char) :
    (withReturns text).splitOn '\n' = returned (text.splitOn '\n') := by
  induction text with
  | nil => rfl
  | cons c text induction =>
      rcases List.exists_cons_of_ne_nil (List.splitOn_ne_nil '\n' text) with ⟨piece, pieces, split⟩
      by_cases feed : c = '\n'
      · subst feed
        have behind := splitOn_append_cons '\n' ['\r'] (withReturns text)
        rw [withReturns_lineFeed, splitOn_cons_self, split, returned, ← split, ← induction]
        exact behind
      · rw [withReturns_cons feed, List.splitOn_cons_eq_if_modifyHead,
          List.splitOn_cons_eq_if_modifyHead, induction, split]
        cases pieces <;> simp [feed, returned]

theorem returned_tail (pieces : List (List Char)) :
    (returned pieces).tail = returned pieces.tail := by
  cases pieces with
  | nil => rfl
  | cons piece pieces => cases pieces <;> rfl

/-- What pieces tell, they tell with carriage returns behind them, where each of those that a line
feed ends does. -/
theorem findSome?_returned {pieces : List (List Char)} {read? : List Char → Option α}
    (ignores : ∀ piece ∈ pieces.dropLast, read? (piece ++ ['\r']) = read? piece) :
    (returned pieces).findSome? read? = pieces.findSome? read? := by
  induction pieces with
  | nil => rfl
  | cons piece pieces induction =>
      cases pieces with
      | nil => rfl
      | cons next pieces =>
          rw [List.dropLast_cons_cons] at ignores
          rcases List.forall_mem_cons.mp ignores with ⟨here, later⟩
          rw [returned, List.findSome?_cons, List.findSome?_cons, here, induction later]

theorem linesOfPieces_returned {pieces : List (List Char)}
    (noReturn : ∀ piece ∈ pieces, '\r' ∉ piece) :
    linesOfPieces (returned pieces) = linesOfPieces pieces := by
  induction pieces with
  | nil => rfl
  | cons piece pieces induction =>
      cases pieces with
      | nil => rfl
      | cons next pieces =>
          rcases List.forall_mem_cons.mp noReturn with ⟨here, later⟩
          rcases List.exists_cons_of_ne_nil (returned_ne_nil (List.cons_ne_nil next pieces)) with
            ⟨head, rest, behind⟩
          have unended : piece.getLast? ≠ some '\r' := fun last =>
            here (List.mem_of_mem_getLast? last)
          rw [returned, behind, linesOfPieces, linesOfPieces, ← behind, induction later]
          simp [dropReturn, unended]

section marks

variable {mark : List Char} (noReturn : '\r' ∉ mark) (noFeed : '\n' ∉ mark)

include noReturn noFeed

theorem after?_withReturns (text : List Char) :
    after? mark (withReturns text) = (after? mark text).map withReturns := by
  induction mark generalizing text with
  | nil => rfl
  | cons c mark induction =>
      rcases not_or.mp (mt List.mem_cons.mpr noReturn) with ⟨notReturn, noReturn⟩
      rcases not_or.mp (mt List.mem_cons.mpr noFeed) with ⟨notFeed, noFeed⟩
      cases text with
      | nil => rfl
      | cons first text =>
          by_cases feed : first = '\n'
          · subst feed
            rw [withReturns_lineFeed, after?, if_neg (Ne.symm notReturn), after?,
              if_neg (Ne.symm notFeed)]
            rfl
          · rw [withReturns_cons feed, after?, after?]
            split
            next => exact induction noReturn noFeed text
            next => rfl

theorem cutAtFirst?_withReturns (nonempty : mark ≠ []) (text : List Char) :
    cutAtFirst? mark (withReturns text) =
      (cutAtFirst? mark text).map (Prod.map withReturns withReturns) := by
  -- No mark starts at a carriage return that was put in, and none at the line feed behind it.
  have unread (c : Char) (other : c ∉ mark) (rest : List Char) :
      after? mark (c :: rest) = none := by
    rcases List.exists_cons_of_ne_nil nonempty with ⟨first, mark, rfl⟩
    rw [List.mem_cons, not_or] at other
    exact if_neg (Ne.symm other.1)
  induction text with
  | nil =>
      have none : after? mark [] = none := by
        rcases List.exists_cons_of_ne_nil nonempty with ⟨first, mark, rfl⟩
        rfl
      rw [withReturns, List.flatMap_nil, cutAtFirst?, none]
      rfl
  | cons c text induction =>
      by_cases feed : c = '\n'
      · subst feed
        rw [withReturns_lineFeed, cutAtFirst?, unread '\r' noReturn, cutAtFirst?,
          unread '\n' noFeed, cutAtFirst?, unread '\n' noFeed, induction]
        cases cutAtFirst? mark text <;> rfl
      · have after := after?_withReturns noReturn noFeed (c :: text)
        rw [withReturns_cons feed] at after
        rw [withReturns_cons feed, cutAtFirst?, after, cutAtFirst?]
        cases after? mark (c :: text) with
        | some rest => rfl
        | none =>
            rw [Option.map_none, induction]
            cases cutAtFirst? mark text with
            | none => rfl
            | some parts => simp [withReturns_cons feed]

end marks

theorem lines_withReturns {text : List Char} (noReturn : '\r' ∉ text) :
    lines (withReturns text) = lines text := by
  rw [lines, splitOn_withReturns, linesOfPieces_returned, lines]
  exact fun piece inside member => noReturn (mem_of_mem_splitOn inside member).1

end Text

namespace Json

open Text (withReturns)

namespace Token

/-- Between tokens both line ends are white space, at the end of a word both end it, and in a string
neither may stand. -/
theorem step?_return (mode : Mode) :
    step? mode '\r' = none ∧ step? mode '\n' = none ∨
      ∃ tokens, step? mode '\r' = some (tokens, .between) ∧
        step? mode '\n' = some (tokens, .between) := by
  cases mode with
  | between => exact .inr ⟨[], rfl, rfl⟩
  | word read =>
      cases meaning : ofWord? read.reverse with
      | none => exact .inl ⟨by simp [step?, meaning]; rfl, by simp [step?, meaning]; rfl⟩
      | some token =>
          refine .inr ⟨[token], ?_, ?_⟩
          · simp [step?, meaning]
            rfl
          · simp [step?, meaning]
            rfl
  | text | escape | unit | half | halfEscape | garbled | garbledEscape | garbledUnit =>
      exact .inl ⟨rfl, rfl⟩

theorem scan?_withReturns (mode : Mode) (text : List Char) :
    scan? mode (withReturns text) = scan? mode text := by
  induction text generalizing mode with
  | nil => rfl
  | cons c text induction =>
      by_cases feed : c = '\n'
      · subst feed
        rw [Text.withReturns_lineFeed]
        rcases step?_return mode with ⟨returned, fed⟩ | ⟨tokens, returned, fed⟩
        · simp [scan?, returned, fed]
        · have between : step? .between '\n' = some ([], .between) := rfl
          have behind := induction .between
          simp [scan?, returned, fed, between, behind]
      · simp [Text.withReturns_cons feed, scan?, induction]

end Token

theorem parse?_returnedText (text : String) : parse? (Text.returnedText text) = parse? text := by
  simp [parse?, ofText?, Token.ofText?, Token.scan?_withReturns]

end Json
end ReloadReport
