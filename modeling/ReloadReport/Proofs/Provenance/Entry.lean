import Mathlib.Data.List.Forall2
import ReloadReport.Proofs.Text.Numeral
import ReloadReport.Proofs.Text.Search
import ReloadReport.Proofs.Text.Span
import ReloadReport.Provenance.Table

/-!
# Written tables

How an entry of a table is written, and that reading a written table gives its entries in their
order.
-/

namespace ReloadReport.Provenance.Table

open Text

/-- A numeral for the word, with white space around it. -/
def WritesWord (text : List Char) (word : UInt32) : Prop :=
  ∃ front numeral back, text = front ++ numeral ++ back ∧ (∀ c ∈ front, isBlank c) ∧
    (∀ c ∈ back, isBlank c) ∧ SpellsSigned numeral word.toNat

def WritesEntry (text : List Char) (entry : UInt32 × UInt32) : Prop :=
  ∃ left right, text = left ++ ['-', '>'] ++ right ∧ WritesWord left entry.1 ∧
    WritesWord right entry.2

/-- The entries of a table, joined by bars, or a blank text where there are none. -/
def WritesTable (text : List Char) (table : Table) : Prop :=
  (table = [] ∧ ∀ c ∈ text, isBlank c) ∨
    ∃ pieces, pieces ≠ [] ∧ text = ['|'].intercalate pieces ∧ List.Forall₂ WritesEntry pieces table

theorem mem_of_spellsSigned {text : List Char} {n : Nat} (spells : SpellsSigned text n) {c : Char}
    (member : c ∈ text) : c.isDigit ∨ c = '+' := by
  rcases spells with ⟨digits, rfl | rfl, spells⟩
  · exact .inl (spells.ascii c member)
  · rcases List.mem_cons.mp member with rfl | later
    · exact .inr rfl
    · exact .inl (spells.ascii c later)

theorem not_isBlank_of_mem_numeral {text : List Char} {n : Nat} (spells : SpellsSigned text n)
    {c : Char} (member : c ∈ text) : isBlank c = false := by
  rcases mem_of_spellsSigned spells member with digit | rfl
  · exact not_isBlank_of_isDigit digit
  · rfl

theorem numeral32?_trim_eq_some_iff {text : List Char} {word : UInt32} :
    numeral32? (trim text) = some word ↔ WritesWord text word := by
  rw [numeral32?_eq_some_iff]
  constructor
  · intro spells
    rcases exists_trim_surrounded text with ⟨front, back, parts, frontBlank, backBlank⟩
    exact ⟨front, trim text, back, parts, frontBlank, backBlank, spells⟩
  · intro writes
    rcases writes with ⟨front, numeral, back, rfl, frontBlank, backBlank, spells⟩
    rwa [trim_surrounded frontBlank backBlank
      (fun c head => not_isBlank_of_mem_numeral spells (List.mem_of_mem_head? head))
      (fun c last => not_isBlank_of_mem_numeral spells (List.mem_of_getLast? last))]

theorem WritesWord.notMem {text : List Char} {word : UInt32} (writes : WritesWord text word)
    {c : Char} (solid : isBlank c = false) (noDigit : c.isDigit = false) (noPlus : c ≠ '+') :
    c ∉ text := by
  rcases writes with ⟨front, numeral, back, rfl, frontBlank, backBlank, spells⟩
  intro member
  have inNumeral : c ∈ numeral := by
    rcases List.mem_append.mp member with inside | behind
    · rcases List.mem_append.mp inside with before | here
      · cases solid.symm.trans (frontBlank c before)
      · exact here
    · cases solid.symm.trans (backBlank c behind)
  rcases mem_of_spellsSigned spells inNumeral with digit | plus
  · cases noDigit.symm.trans digit
  · exact noPlus plus

theorem entry?_eq_some_iff {text : List Char} {entry : UInt32 × UInt32} :
    entry? text = some entry ↔ WritesEntry text entry := by
  simp only [ entry?, Option.bind_eq_bind, Option.bind_eq_some_iff, Prod.exists,
    cutAtFirst?_eq_some_iff, numeral32?_trim_eq_some_iff]
  constructor
  · intro read
    rcases read with ⟨left, right, first, generated, leftWrites, source, rightWrites, pair⟩
    cases pair
    exact ⟨left, right, first.parts, leftWrites, rightWrites⟩
  · intro writes
    rcases writes with ⟨left, right, rfl, leftWrites, rightWrites⟩
    have noDash : '-' ∉ left := leftWrites.notMem rfl rfl (by decide)
    exact ⟨left, right, FirstAt.of_notMem noDash ['>'] right, entry.1, leftWrites, entry.2,
      rightWrites, rfl⟩

theorem WritesEntry.noBar {text : List Char} {entry : UInt32 × UInt32}
    (writes : WritesEntry text entry) : '|' ∉ text := by
  rcases writes with ⟨left, right, rfl, leftWrites, rightWrites⟩
  have leftNoBar : '|' ∉ left := leftWrites.notMem rfl rfl (by decide)
  have rightNoBar : '|' ∉ right := rightWrites.notMem rfl rfl (by decide)
  simp [leftNoBar, rightNoBar]

theorem filterMap_entry? {pieces : List (List Char)} {table : Table}
    (writes : List.Forall₂ WritesEntry pieces table) : pieces.filterMap entry? = table := by
  induction writes with
  | nil => rfl
  | cons here _ induction =>
      rw [List.filterMap_cons, entry?_eq_some_iff.mpr here, induction]

theorem entry?_of_blank {text : List Char} (blank : ∀ c ∈ text, isBlank c) :
    entry? text = none := by
  rw [Option.eq_none_iff_forall_not_mem]
  intro entry read
  rcases entry?_eq_some_iff.mp read with ⟨left, right, rfl, _⟩
  exact absurd (blank '-' (by simp)) (by decide)

/-- Pieces without bars are found again behind the bars that join them. -/
theorem entries_intercalate {pieces : List (List Char)} (noBar : ∀ piece ∈ pieces, '|' ∉ piece) :
    entries (['|'].intercalate pieces) = pieces.filterMap entry? := by
  cases pieces with
  | nil => rfl
  | cons piece pieces => rw [entries, List.splitOn_intercalate '|' noBar (List.cons_ne_nil _ _)]

theorem ofText_intercalate {pieces : List (List Char)} (noBar : ∀ piece ∈ pieces, '|' ∉ piece) :
    ofText (['|'].intercalate pieces) = sorted (pieces.filterMap entry?) := by
  rw [ofText, entries_intercalate noBar]

theorem entries_of_writesTable {text : List Char} {table : Table}
    (writes : WritesTable text table) :
    entries text = table := by
  rcases writes with ⟨rfl, blank⟩ | ⟨pieces, nonempty, rfl, writes⟩
  · have noBar : '|' ∉ text := fun member => absurd (blank '|' member) (by decide)
    rw [entries, List.splitOn_eq_singleton noBar]
    simp [entry?_of_blank blank]
  · have noBar : ∀ piece ∈ pieces, '|' ∉ piece := by
      intro piece member
      rcases List.mem_iff_getElem.mp member with ⟨index, inside, rfl⟩
      have inTable : index < table.length := writes.length_eq ▸ inside
      exact ((List.forall₂_iff_get.mp writes).2 index inside inTable).noBar
    rw [entries_intercalate noBar]
    exact filterMap_entry? writes

end ReloadReport.Provenance.Table
