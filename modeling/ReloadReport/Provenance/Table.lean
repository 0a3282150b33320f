import ReloadReport.Text.Blank
import ReloadReport.Text.Numeral
import ReloadReport.Text.Search

/-!
# Place tables

Tables that lead from places of a generated file to places of the file it was generated from. A
place is a line number or a character offset. A table is read in ascending order, and an entry
holds for all places up to the next entry.
-/

namespace ReloadReport.Provenance

open Text

abbrev Table :=
  List (UInt32 × UInt32)

namespace Table

def entry? (text : List Char) : Option (UInt32 × UInt32) := do
  let (generated, source) ← cutAtFirst? ['-', '>'] text
  let generated ← numeral32? (trim generated)
  let source ← numeral32? (trim source)
  some (generated, source)

/-- Entries are parted by bars. A text between bars that is no entry is passed over. -/
def entries (text : List Char) : Table :=
  (text.splitOn '|').filterMap entry?

/-- The entries in ascending order of their places in the generated file. Entries for one place
keep their order. -/
def sorted (table : Table) : Table :=
  table.mergeSort fun left right => left.1 ≤ right.1

def ofText (text : List Char) : Table :=
  sorted (entries text)

/-- The author's place for a place of the generated file: that of the last entry before the first
one that lies beyond the place. -/
def at? (table : Table) (place : UInt32) : Option UInt32 :=
  (table.takeWhile (·.1 ≤ place)).getLast?.map Prod.snd

theorem ascends_trans (first second third : UInt32 × UInt32)
    (below : decide (first.1 ≤ second.1) = true) (beyond : decide (second.1 ≤ third.1) = true) :
    decide (first.1 ≤ third.1) = true := by
  simp only [decide_eq_true_eq] at below beyond ⊢
  exact UInt32.le_trans below beyond

theorem ascends_total (first second : UInt32 × UInt32) :
    (decide (first.1 ≤ second.1) || decide (second.1 ≤ first.1)) = true := by
  simp only [Bool.or_eq_true, decide_eq_true_eq]
  exact UInt32.le_total first.1 second.1

theorem pairwise_sorted (table : Table) :
    (sorted table).Pairwise fun left right => left.1 ≤ right.1 := by
  have ordered := List.pairwise_mergeSort ascends_trans ascends_total table
  simpa [sorted] using ordered

example : entries "5->1|x->2|9->| +20 -> 4 |1->2->3".toList = [(5, 1), (20, 4)] := by
  decide

/-- Of two entries for one place the later one holds, and before the first entry there is none. -/
example : at? [(5, 1), (5, 2), (20, 4)] 19 = some 2 ∧ at? [(5, 1)] 4 = none := by
  decide

end Table
end ReloadReport.Provenance
