import ReloadReport.Proofs.Provenance.Sorting
import ReloadReport.Proofs.Provenance.Written

/-!
# Listed entries

The entries that a text lists, whatever else stands between its bars, and orders of the pieces that
list the same. Pieces may be exchanged unless both are entries for one place, since then the later
one counts.
-/

namespace ReloadReport.Provenance

open Text

namespace Table

/-- The entries that some pieces write, in their order. A piece that writes none is passed over. -/
inductive WritesEntries : List (List Char) → Table → Prop
  | nil : WritesEntries [] []
  | entry (writes : WritesEntry piece entry) :
      WritesEntries pieces table → WritesEntries (piece :: pieces) (entry :: table)
  | broken (unwritten : ∀ entry, ¬ WritesEntry piece entry) :
      WritesEntries pieces table → WritesEntries (piece :: pieces) table

def Apart (left right : List Char) : Prop :=
  ∀ entry other, WritesEntry left entry → WritesEntry right other → entry.1 ≠ other.1

/-- The same pieces in an order that exchanges of neighbours lead to, all of them apart. -/
inductive Reordered : List (List Char) → List (List Char) → Prop
  | nil : Reordered [] []
  | cons (piece : List Char) :
      Reordered pieces others → Reordered (piece :: pieces) (piece :: others)
  | swap (apart : Apart left right) (pieces : List (List Char)) :
      Reordered (left :: right :: pieces) (right :: left :: pieces)
  | trans : Reordered pieces middle → Reordered middle others → Reordered pieces others

variable {pieces others : List (List Char)}

theorem writesEntries_filterMap (pieces : List (List Char)) :
    WritesEntries pieces (pieces.filterMap entry?) := by
  induction pieces with
  | nil => exact .nil
  | cons piece pieces induction =>
      cases read : entry? piece with
      | none =>
          rw [List.filterMap_cons_none read]
          refine .broken (fun entry writes => ?_) induction
          cases read.symm.trans (entry?_eq_some_iff.mpr writes)
      | some entry =>
          rw [List.filterMap_cons_some read]
          exact .entry (entry?_eq_some_iff.mp read) induction

theorem writesEntries_splitOn (text : List Char) :
    WritesEntries (text.splitOn '|') (entries text) :=
  writesEntries_filterMap (text.splitOn '|')

theorem apart_iff_of_read {left right : List Char} :
    Apart left right ↔ ∀ entry ∈ entry? left, ∀ other ∈ entry? right, entry.1 ≠ other.1 := by
  simp only [Apart, Option.mem_def, entry?_eq_some_iff]
  exact ⟨fun apart entry writes other otherWrites => apart entry other writes otherWrites,
    fun apart entry other writes otherWrites => apart entry writes other otherWrites⟩

instance (left right : List Char) : Decidable (Apart left right) :=
  decidable_of_iff
    (( entry? left).all fun entry => ( entry? right).all fun other => entry.1 != other.1) <| by
      simp only [apart_iff_of_read, Option.all_eq_true, Option.mem_def, bne_iff_ne]

namespace Reordered

theorem perm (reordered : Reordered pieces others) : pieces.Perm others := by
  induction reordered with
  | nil => exact .nil
  | cons piece _ induction => exact induction.cons piece
  | swap => exact .swap _ _ _
  | trans _ _ first second => exact first.trans second

theorem of_perm (perm : pieces.Perm others) (distinct : pieces.Pairwise Apart) :
    Reordered pieces others := by
  induction perm with
  | nil => exact .nil
  | cons piece _ induction => exact (induction (List.pairwise_cons.mp distinct).2).cons piece
  | swap left right pieces =>
      exact .swap ((List.pairwise_cons.mp distinct).1 left List.mem_cons_self) pieces
  | trans first _ firstInduction secondInduction =>
      have symmetric : ∀ {left right : List Char}, Apart left right → Apart right left :=
        fun apart entry other writes otherWrites => (apart other entry otherWrites writes).symm
      exact (firstInduction distinct).trans
        (secondInduction ((first.pairwise_iff symmetric).mp distinct))

theorem agrees (reordered : Reordered pieces others) :
    Agrees (pieces.filterMap entry?) (others.filterMap entry?) := by
  induction reordered with
  | nil => exact fun place => rfl
  | cons piece _ induction =>
      intro place
      cases read : entry? piece with
      | none => simpa [read] using induction place
      | some entry => simp [read, List.filter_cons, induction place]
  | @swap left right apart pieces =>
      intro place
      cases leftRead : entry? left with
      | none => simp [leftRead, List.filterMap_cons]
      | some entry =>
          cases rightRead : entry? right with
          | none => simp [leftRead, rightRead]
          | some other =>
              have different := apart_iff_of_read.mp apart entry leftRead other rightRead
              by_cases here : entry.1 = place
              · have elsewhere : other.1 ≠ place := fun same => different (here.trans same.symm)
                simp [leftRead, rightRead, here, elsewhere]
              · simp [leftRead, rightRead, List.filter_cons, here]
  | trans _ _ first second => exact fun place => (first place).trans (second place)

theorem ofText_eq (reordered : Reordered pieces others) (noBar : ∀ piece ∈ pieces, '|' ∉ piece) :
    ofText (['|'].intercalate others) = ofText (['|'].intercalate pieces) := by
  have othersNoBar : ∀ piece ∈ others, '|' ∉ piece := fun piece member =>
    noBar piece (reordered.perm.mem_iff.mpr member)
  rw [ofText_intercalate noBar, ofText_intercalate othersNoBar, reordered.agrees.sorted_eq]

end Reordered
end Table

/-- A line with a label and the text of a table behind it, which one carriage return may end. -/
def Tabulates (label line text : List Char) : Prop :=
  ∃ value ending, Labels label line value ∧ value = text ++ ending ∧
    (ending = [] ∨ ending = ['\r']) ∧ '\r' ∉ text

/-- The entries that a block lists behind a label, in the order of the text: those of the first line
with the label that has the form of a table, and none where there is no such line. -/
def ListsBehind (label : List Char) (block : List (List Char)) (listed : Table) : Prop :=
  (∃ text, FirstWith (Tabulates label) block text ∧
      Table.WritesEntries (text.splitOn '|') listed) ∨
    (∀ line ∈ block, ∀ text, ¬ Tabulates label line text) ∧ listed = []

section labels

variable {label line text : List Char} {mark : Char}

theorem tableBehind_eq_some_iff (starts : label.head? = some mark) (solid : isGap mark = false) :
    (labelled? label line).bind tableText? = some text ↔ Tabulates label line text := by
  simp only [Option.bind_eq_some_iff, labelled?_eq_some_iff starts solid, tableText?_eq_some_iff,
    Tabulates]
  constructor
  · rintro ⟨value, labels, ending, parts⟩
    exact ⟨value, ending, labels, parts⟩
  · rintro ⟨value, ending, labels, parts⟩
    exact ⟨value, labels, ending, parts⟩

theorem exists_listsBehind (label : List Char) (starts : label.head? = some mark)
    (solid : isGap mark = false) (block : List (List Char)) :
    ∃ listed, ListsBehind label block listed ∧ tableOf label block = Table.sorted listed := by
  rw [tableOf]
  cases found : block.findSome? fun line => (labelled? label line).bind tableText? with
  | none =>
      refine ⟨[], .inr ⟨fun line member text tabulates => ?_, rfl⟩, List.mergeSort_nil.symm⟩
      have unread := List.findSome?_eq_none_iff.mp found line member
      cases unread.symm.trans ((tableBehind_eq_some_iff starts solid).mpr tabulates)
  | some text =>
      rcases List.findSome?_eq_some_iff.mp found with ⟨front, line, back, parts, read, noneBefore⟩
      refine ⟨Table.entries text, .inl ⟨text, ⟨front, line, back, parts, ?_, ?_⟩,
        Table.writesEntries_splitOn text⟩, rfl⟩
      · exact (tableBehind_eq_some_iff starts solid).mp read
      · intro other member otherText tabulates
        cases (noneBefore other member).symm.trans
          ((tableBehind_eq_some_iff starts solid).mpr tabulates)

end labels

end ReloadReport.Provenance
