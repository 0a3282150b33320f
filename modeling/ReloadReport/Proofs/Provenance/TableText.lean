import ReloadReport.Proofs.Provenance.Entry
import ReloadReport.Proofs.Provenance.Sorting

/-!
# Texts of tables

The text of a table, from which the table is read back sorted, and what is read from any pieces that
bars join: the entries among them, sorted, and nothing else. Whether a piece is an entry does not
depend on what stands beside it.
-/

namespace ReloadReport.Provenance.Table

open Text

section written

def entryText (entry : UInt32 × UInt32) : List Char :=
  Nat.toDigits 10 entry.1.toNat ++ ['-', '>'] ++ Nat.toDigits 10 entry.2.toNat

def text (table : Table) : List Char :=
  ['|'].intercalate (table.map entryText)

theorem writesWord_toDigits {gaps : List Char} (inside : ∀ c ∈ gaps, isGap c) (word : UInt32) :
    WritesWord (gaps ++ Nat.toDigits 10 word.toNat) word :=
  ⟨gaps, _, [], by simp, fun c member => isBlank_of_isGap (inside c member), by simp,
    _, .inl rfl, spells_toDigits word.toNat⟩

theorem writesEntry_entryText {gaps : List Char} (inside : ∀ c ∈ gaps, isGap c)
    (entry : UInt32 × UInt32) : WritesEntry (gaps ++ entryText entry) entry := by
  have noGaps : ∀ c ∈ ([] : List Char), isGap c := by simp
  exact ⟨gaps ++ Nat.toDigits 10 entry.1.toNat, [] ++ Nat.toDigits 10 entry.2.toNat,
    by simp [entryText], writesWord_toDigits inside entry.1, writesWord_toDigits noGaps entry.2⟩

theorem forall₂_entryText (table : Table) :
    List.Forall₂ WritesEntry (table.map entryText) table := by
  induction table with
  | nil => exact .nil
  | cons entry table induction =>
      exact .cons (@writesEntry_entryText [] (by simp) entry) induction

theorem writesTable_text {gaps : List Char} (inside : ∀ c ∈ gaps, isGap c) (table : Table) :
    WritesTable (gaps ++ text table) table := by
  cases table with
  | nil =>
      refine .inl ⟨rfl, fun c member => isBlank_of_isGap (inside c ?_)⟩
      simpa [text] using member
  | cons entry table =>
      refine .inr ⟨(gaps ++ entryText entry) :: table.map entryText, by simp, ?_,
        .cons (writesEntry_entryText inside entry) (forall₂_entryText table)⟩
      cases table with
      | nil => simp [text]
      | cons next table => simp [text, List.intercalate_cons_cons]

theorem text_cons_cons (entry next : UInt32 × UInt32) (table : Table) :
    text (entry :: next :: table) = entryText entry ++ ['|'] ++ text (next :: table) := by
  simp [text, List.intercalate_cons_cons]

theorem mem_entryText {c : Char} {entry : UInt32 × UInt32} (member : c ∈ entryText entry) :
    c.isDigit ∨ c ∈ ['-', '>', '|'] := by
  simp only [entryText, List.mem_append] at member
  rcases member with (digit | arrow) | digit
  · exact .inl ((spells_toDigits _).ascii c digit)
  · exact .inr (List.mem_append_left ['|'] arrow)
  · exact .inl ((spells_toDigits _).ascii c digit)

theorem mem_text {c : Char} {table : Table} (member : c ∈ text table) :
    c.isDigit ∨ c ∈ ['-', '>', '|'] := by
  induction table with
  | nil => simp [text] at member
  | cons entry table induction =>
      cases table with
      | nil => exact mem_entryText (by simpa [text] using member)
      | cons next table =>
          rw [text_cons_cons, List.mem_append, List.mem_append] at member
          rcases member with (here | bar) | later
          · exact mem_entryText here
          · rw [List.mem_singleton.mp bar]
            exact .inr (by simp)
          · exact induction later

theorem ofText_text (table : Table) : ofText (text table) = sorted table := by
  have writes : WritesTable (text table) table := @writesTable_text [] (by simp) table
  rw [ofText, entries_of_writesTable writes]

end written

/-- The texts around the first arrow of a piece are numerals for the two numbers, once the white
space at their ends is trimmed. -/
def Arrow (piece : List Char) (generated source : Nat) : Prop :=
  ∃ left right, FirstAt ['-', '>'] piece left right ∧ SpellsSigned (trim left) generated ∧
    SpellsSigned (trim right) source

def IsEntry (piece : List Char) : Prop :=
  ∃ generated source, Arrow piece generated source ∧ generated < UInt32.size ∧
    source < UInt32.size

section arrow

variable {piece : List Char} {generated source : Nat} {entry : UInt32 × UInt32}

theorem arrow_iff_of_cut :
    Arrow piece generated source ↔ ((cutAtFirst? ['-', '>'] piece).any fun parts =>
      numeral? (trim parts.1) = some generated ∧ numeral? (trim parts.2) = some source) = true := by
  simp only [Arrow, Option.any_eq_true, Prod.exists, cutAtFirst?_eq_some_iff, decide_eq_true_eq,
    numeral?_eq_some_iff]

instance : Decidable (Arrow piece generated source) :=
  decidable_of_iff _ arrow_iff_of_cut.symm

theorem entry?_eq_some_iff_arrow :
    entry? piece = some entry ↔ Arrow piece entry.1.toNat entry.2.toNat := by
  simp only [ entry?, Option.bind_eq_bind, Option.bind_eq_some_iff, Prod.exists,
    cutAtFirst?_eq_some_iff, numeral32?_eq_some_iff]
  constructor
  · intro read
    rcases read with ⟨left, right, first, generated, leftSpells, source, rightSpells, pair⟩
    cases pair
    exact ⟨left, right, first, leftSpells, rightSpells⟩
  · intro arrow
    rcases arrow with ⟨left, right, first, leftSpells, rightSpells⟩
    exact ⟨left, right, first, entry.1, leftSpells, entry.2, rightSpells, rfl⟩

/-- Of the arrows in a piece only the first one can stand between numerals. -/
theorem writesEntry_iff_arrow :
    WritesEntry piece entry ↔ Arrow piece entry.1.toNat entry.2.toNat := by
  rw [← entry?_eq_some_iff, entry?_eq_some_iff_arrow]

theorem isEntry_iff_exists_read : IsEntry piece ↔ ∃ entry, entry? piece = some entry := by
  simp only [entry?_eq_some_iff_arrow]
  constructor
  · intro isEntry
    rcases isEntry with ⟨generated, source, arrow, generatedFits, sourceFits⟩
    refine ⟨(UInt32.ofNat generated, UInt32.ofNat source), ?_⟩
    rwa [UInt32.toNat_ofNat_of_lt' generatedFits, UInt32.toNat_ofNat_of_lt' sourceFits]
  · intro reads
    rcases reads with ⟨entry, arrow⟩
    exact ⟨entry.1.toNat, entry.2.toNat, arrow, entry.1.toNat_lt_size, entry.2.toNat_lt_size⟩

instance : DecidablePred IsEntry := fun piece =>
  decidable_of_iff (( entry? piece).isSome = true) <| by
    rw [isEntry_iff_exists_read, Option.isSome_iff_exists]

end arrow

/-- A table has the pairs of the pieces that are entries, sorted by their places in the generated
file, those for one place in the order of the pieces. -/
def Collects (pieces : List (List Char)) (table : Table) : Prop :=
  ∃ listed, List.Forall₂ (fun piece entry => Arrow piece entry.1.toNat entry.2.toNat)
    (pieces.filter fun piece => IsEntry piece) listed ∧ StablySorts listed table

section pieces

variable {pieces : List (List Char)} {table : Table}

theorem forall₂_writesEntry_filter (pieces : List (List Char)) :
    List.Forall₂ WritesEntry (pieces.filter fun piece => IsEntry piece)
      (pieces.filterMap entry?) := by
  induction pieces with
  | nil => exact .nil
  | cons piece pieces induction =>
      cases read : entry? piece with
      | none =>
          have broken : ¬ IsEntry piece := by simp [isEntry_iff_exists_read, read]
          rwa [List.filter_cons_of_neg (by simpa using broken), List.filterMap_cons_none read]
      | some entry =>
          have reads : IsEntry piece := isEntry_iff_exists_read.mpr ⟨entry, read⟩
          rw [List.filter_cons_of_pos (by simpa using reads), List.filterMap_cons_some read]
          exact .cons (entry?_eq_some_iff.mp read) induction

theorem filterMap_filter_isEntry (pieces : List (List Char)) :
    (pieces.filter fun piece => IsEntry piece).filterMap entry? = pieces.filterMap entry? :=
  filterMap_entry? (forall₂_writesEntry_filter pieces)

theorem collects_iff_stablySorts :
    Collects pieces table ↔ StablySorts (pieces.filterMap entry?) table := by
  simp only [Collects, ← writesEntry_iff_arrow]
  constructor
  · intro collects
    rcases collects with ⟨listed, writes, sorts⟩
    rwa [← filterMap_filter_isEntry, filterMap_entry? writes]
  · intro sorts
    exact ⟨_, forall₂_writesEntry_filter pieces, sorts⟩

theorem count_sorted (table : Table) (entry : UInt32 × UInt32) :
    (sorted table).count entry = table.count entry :=
  (List.mergeSort_perm table _).count_eq entry

theorem count_filterMap_entry? (pieces : List (List Char)) (entry : UInt32 × UInt32) :
    (pieces.filterMap entry?).count entry =
      pieces.countP fun piece => Arrow piece entry.1.toNat entry.2.toNat := by
  rw [List.count_eq_countP, List.countP_filterMap]
  apply List.countP_congr
  intro piece _
  rw [decide_eq_true_eq, ← entry?_eq_some_iff_arrow]
  cases entry? piece <;> simp

end pieces

/-- Joined pieces are read as the table of the entries among them. Each entry occurs as often as
pieces write it, pieces that are no entries could as well be missing, and just the tables in
ascending order come back as they were written. -/
theorem ofText_intercalate_collects (pieces : List (List Char))
    (noBar : ∀ piece ∈ pieces, '|' ∉ piece) :
    (∀ table, ofText (['|'].intercalate pieces) = table ↔ Collects pieces table) ∧
      (∀ entry, (ofText (['|'].intercalate pieces)).count entry =
        pieces.countP fun piece => Arrow piece entry.1.toNat entry.2.toNat) ∧
      ofText (['|'].intercalate (pieces.filter fun piece => IsEntry piece)) =
        ofText (['|'].intercalate pieces) ∧
      ∀ table, ofText (text table) = table ↔
        table.Pairwise fun left right => left.1 ≤ right.1 := by
  have keptNoBar : ∀ piece ∈ pieces.filter fun piece => IsEntry piece, '|' ∉ piece :=
    fun piece member => noBar piece (List.mem_filter.mp member).1
  rw [ofText_intercalate noBar, ofText_intercalate keptNoBar, filterMap_filter_isEntry]
  refine ⟨fun table => ?_, fun entry => ?_, rfl, fun table => ?_⟩
  · rw [collects_iff_stablySorts, sorted_eq_iff_stablySorts]
  · rw [count_sorted, count_filterMap_entry?]
  · rw [ofText_text, sorted_eq_self_iff]

def mixedPieces : List (List Char) :=
  ["9-> +4".toList, "x->2".toList, "+007\t->2".toList, [], "7->1".toList, "1->2->3".toList,
    "4294967296->1".toList, "3->4294967295".toList]

/-- Broken, empty and overflowing pieces stand between the entries here, and a second arrow in one
of them. The entries for one place keep their order. -/
theorem ofText_mixedPieces :
    (∀ piece ∈ mixedPieces, '|' ∉ piece) ∧
      ofText (['|'].intercalate mixedPieces) = [(3, 4294967295), (7, 2), (7, 1), (9, 4)] := by
  have noBar : ∀ piece ∈ mixedPieces, '|' ∉ piece := by decide
  have kept : (mixedPieces.filter fun piece => IsEntry piece) =
      ["9-> +4".toList, "+007\t->2".toList, "7->1".toList, "3->4294967295".toList] := by decide
  have collects : Collects mixedPieces [(3, 4294967295), (7, 2), (7, 1), (9, 4)] := by
    refine ⟨[(9, 4), (7, 2), (7, 1), (3, 4294967295)], ?_, by decide, .of_mem (by simp)⟩
    rw [kept]
    exact .cons (by decide) (.cons (by decide) (.cons (by decide) (.cons (by decide) .nil)))
  exact ⟨noBar, ((ofText_intercalate_collects mixedPieces noBar).1 _).mpr collects⟩

end ReloadReport.Provenance.Table
