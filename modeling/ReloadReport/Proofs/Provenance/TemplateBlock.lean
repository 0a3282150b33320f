import ReloadReport.Proofs.Provenance.TableText
import ReloadReport.Proofs.Provenance.Written

/-!
# Template blocks

Blocks as the template compiler writes them: labelled lines for the author's file and for the two
tables, in any order, between any other lines and with either kind of line ends. Reading such a
block gives the file and the tables, sorted.
-/

namespace ReloadReport.Provenance

open Text

def Single (label : List Char) (Holds : List Char → Prop) (block : List (List Char)) : Prop :=
  ∃ front line back value, block = front ++ line :: back ∧ Labels label line value ∧
    Holds value ∧ ∀ other ∈ front ++ back, ∀ value, ¬ Labels label other value

def IsTable (table : Table) (value : List Char) : Prop :=
  ∃ gaps, value = gaps ++ table.text ∧ ∀ c ∈ gaps, isGap c

def IsName (name value : List Char) : Prop :=
  ∃ gaps back, value = gaps ++ name ++ back ∧ (∀ c ∈ gaps, isGap c) ∧ ∀ c ∈ back, isGap c

/-- One line of a block has the label and the table behind it. Where there is no table, no line has
the label. -/
def Lists (label : List Char) (table : Option Table) (block : List (List Char)) : Prop :=
  match table with
  | none => ∀ line ∈ block, ∀ value, ¬ Labels label line value
  | some table => Single label (IsTable table) block

structure PlainName (name : List Char) : Prop where
  nonempty : name ≠ []
  noReturn : '\r' ∉ name
  noLineEnd : '\n' ∉ name
  headSolid : ∀ c ∈ name.head?, isBlank c = false
  lastSolid : ∀ c ∈ name.getLast?, isBlank c = false

/-- The lines of a block that names a file and lists tables, all of them at most once. -/
structure BlockLines (source : List Char) (matrix lines : Option Table)
    (block : List (List Char)) : Prop where
  noLineEnd : ∀ line ∈ block, '\n' ∉ line
  plain : PlainName source
  named : Single "SOURCE:".toList (IsName source) block
  matrix : Lists "MATRIX:".toList matrix block
  lines : Lists "LINES:".toList lines block

/-- A line as the line feed behind it leaves it, which does not take a carriage return away. -/
def Ended (line piece : List Char) : Prop :=
  piece = line ∨ piece = line ++ ['\r']

section pieces

variable {ending : List Char} {block pieces : List (List Char)}

theorem exists_pieces (ends : ending = ['\n'] ∨ ending = ['\r', '\n'])
    (noLineEnd : ∀ line ∈ block, '\n' ∉ line) {line : List Char} (lineNoEnd : '\n' ∉ line) :
    ∃ piece pieces, (line ++ block.flatMap (ending ++ ·)).splitOn '\n' = piece :: pieces ∧
      Ended line piece ∧ List.Forall₂ Ended block pieces := by
  induction block generalizing line with
  | nil =>
      refine ⟨line, [], ?_, .inl rfl, .nil⟩
      simpa using List.splitOn_eq_singleton lineNoEnd
  | cons next block induction =>
      rcases List.forall_mem_cons.mp noLineEnd with ⟨nextNoEnd, blockNoEnd⟩
      rcases induction blockNoEnd nextNoEnd with ⟨piece, pieces, split, ended, allEnded⟩
      rw [List.flatMap_cons, List.append_assoc]
      rcases ends with rfl | rfl
      · refine ⟨line, piece :: pieces, ?_, .inl rfl, .cons ended allEnded⟩
        rw [List.singleton_append, List.splitOn_append_cons_self_of_not_mem lineNoEnd, split]
      · refine ⟨line ++ ['\r'], piece :: pieces, ?_, .inr rfl, .cons ended allEnded⟩
        have noEnd : '\n' ∉ line ++ ['\r'] := by simp [lineNoEnd]
        rw [← split, ← List.splitOn_append_cons_self_of_not_mem noEnd]
        simp

variable {read? : List Char → Option α}

theorem findSome?_eq_none_of_ended (ended : List.Forall₂ Ended block pieces)
    (skips : ∀ line ∈ block, ∀ piece, Ended line piece → read? piece = none) :
    pieces.findSome? read? = none := by
  induction ended with
  | nil => rfl
  | @cons line piece _ _ here _ induction =>
      rcases List.forall_mem_cons.mp skips with ⟨lineSkips, blockSkips⟩
      rw [List.findSome?_cons, lineSkips piece here]
      exact induction blockSkips

theorem findSome?_of_ended {front back : List (List Char)} {line : List Char}
    (ended : List.Forall₂ Ended (front ++ line :: back) pieces)
    (skips : ∀ other ∈ front, ∀ piece, Ended other piece → read? piece = none)
    (finds : ∀ piece, Ended line piece → (read? piece).isSome) :
    ∃ piece, Ended line piece ∧ pieces.findSome? read? = read? piece := by
  induction front generalizing pieces with
  | nil =>
      rcases List.forall₂_cons_left_iff.mp ended with ⟨piece, _, here, _, rfl⟩
      rcases Option.isSome_iff_exists.mp (finds piece here) with ⟨found, read⟩
      exact ⟨piece, here, by rw [List.findSome?_cons, read]⟩
  | cons other front induction =>
      rcases List.forall₂_cons_left_iff.mp ended with ⟨piece, _, here, later, rfl⟩
      rcases List.forall_mem_cons.mp skips with ⟨otherSkips, frontSkips⟩
      rw [List.findSome?_cons, otherSkips piece here]
      exact induction later frontSkips

end pieces

section values

variable {value other name : List Char} {table : Table}

theorem tableText?_of_ended (listed : IsTable table value) (ended : Ended value other) :
    ∃ text, tableText? other = some text ∧ Table.ofText text = Table.sorted table := by
  rcases listed with ⟨gaps, rfl, inside⟩
  have noReturn : '\r' ∉ gaps ++ table.text := by
    intro member
    rcases List.mem_append.mp member with gap | inTable
    · exact absurd (inside _ gap) (by decide)
    · rcases Table.mem_text inTable with digit | mark
      · exact absurd digit (by decide)
      · exact absurd mark (by decide)
  have writes := Table.writesTable_text inside table
  apply tableText?_of_holdsTable
  rcases ended with rfl | rfl
  · exact ⟨_, [], by simp, .inl rfl, noReturn, writes⟩
  · exact ⟨_, ['\r'], rfl, .inr rfl, noReturn, writes⟩

theorem sourceName?_of_ended (plain : PlainName name) (named : IsName name value)
    (ended : Ended value other) : sourceName? other = some name := by
  rcases named with ⟨gaps, back, rfl, gapsInside, backInside⟩
  have blank : ∀ c ∈ back, isBlank c := fun c member => isBlank_of_isGap (backInside c member)
  have headSolid : ∀ c ∈ name.head?, isGap c = false := by
    intro c head
    apply Bool.eq_false_iff.mpr
    intro gap
    cases (isBlank_of_isGap gap).symm.trans (plain.headSolid c head)
  have names : NamesFile (gaps ++ name ++ back) name :=
    ⟨⟨gaps, back, rfl, gapsInside, blank⟩, plain.nonempty, headSolid, plain.lastSolid⟩
  rcases ended with rfl | rfl
  · exact sourceName?_of_namesFile names
  · exact sourceName?_of_namesFile (names.append_blanks (List.forall_mem_singleton.mpr rfl))

end values

section labels

variable {label line piece value : List Char} {mark : Char}

theorem labelled?_of_ended (starts : label.head? = some mark) (solid : isGap mark = false)
    (labels : Labels label line value) (ended : Ended line piece) :
    ∃ other, Ended value other ∧ labelled? label piece = some other := by
  simp only [labelled?_eq_some_iff starts solid]
  rcases labels with ⟨gaps, rfl, inside⟩
  rcases ended with rfl | rfl
  · exact ⟨value, .inl rfl, gaps, rfl, inside⟩
  · exact ⟨value ++ ['\r'], .inr rfl, gaps, by simp, inside⟩

theorem labelled?_eq_none_of_ended (starts : label.head? = some mark) (solid : isGap mark = false)
    (closes : label.getLast? = some ':') (unlabelled : ∀ value, ¬ Labels label line value)
    (ended : Ended line piece) : labelled? label piece = none := by
  have unread : labelled? label line = none := Option.eq_none_iff_forall_not_mem.mpr
    fun value read => unlabelled value ((labelled?_eq_some_iff starts solid).mp read)
  rcases ended with rfl | rfl
  · exact unread
  · rw [labelled?_append_return closes, unread, Option.map_none]

theorem not_labels_of_unread (starts : label.head? = some mark) (solid : isGap mark = false)
    {block : List (List Char)} (unread : ∀ line ∈ block, labelled? label line = none) :
    ∀ line ∈ block, ∀ value, ¬ Labels label line value := by
  intro line member value labels
  have read := (labelled?_eq_some_iff starts solid).mpr labels
  rw [unread line member] at read
  cases read

variable {block pieces : List (List Char)}

theorem Single.exists_findSome? (starts : label.head? = some mark) (solid : isGap mark = false)
    (closes : label.getLast? = some ':') {Holds : List Char → Prop}
    (single : Single label Holds block) (ended : List.Forall₂ Ended block pieces)
    {accept : List Char → Option α}
    (accepts : ∀ value other, Holds value → Ended value other → (accept other).isSome) :
    ∃ value other, Holds value ∧ Ended value other ∧
      pieces.findSome? (fun line => (labelled? label line).bind accept) = accept other := by
  rcases single with ⟨front, line, back, value, rfl, labels, holds, unlabelled⟩
  have skips : ∀ other ∈ front, ∀ piece, Ended other piece →
      (labelled? label piece).bind accept = none := by
    intro other member piece otherEnded
    rw [labelled?_eq_none_of_ended starts solid closes
      (unlabelled other (List.mem_append_left back member)) otherEnded, Option.bind_none]
  have finds : ∀ piece, Ended line piece → ((labelled? label piece).bind accept).isSome := by
    intro piece lineEnded
    rcases labelled?_of_ended starts solid labels lineEnded with ⟨other, valueEnded, read⟩
    rw [read, Option.bind_some]
    exact accepts value other holds valueEnded
  rcases findSome?_of_ended ended skips finds with ⟨piece, lineEnded, found⟩
  rcases labelled?_of_ended starts solid labels lineEnded with ⟨other, valueEnded, read⟩
  refine ⟨value, other, holds, valueEnded, ?_⟩
  rw [found, read, Option.bind_some]

theorem tableOf_of_lists (starts : label.head? = some mark) (solid : isGap mark = false)
    (closes : label.getLast? = some ':') {table : Option Table} (lists : Lists label table block)
    (ended : List.Forall₂ Ended block pieces) :
    tableOf label pieces = Table.sorted (table.getD []) := by
  cases table with
  | none =>
      have unread :
          pieces.findSome? (fun line => (labelled? label line).bind tableText?) = none := by
        apply findSome?_eq_none_of_ended ended
        intro line member piece lineEnded
        rw [labelled?_eq_none_of_ended starts solid closes (lists line member) lineEnded,
          Option.bind_none]
      rw [tableOf, unread, Option.getD_none, Table.sorted, List.mergeSort_nil]
  | some table =>
      have accepts : ∀ value other, IsTable table value → Ended value other →
          (tableText? other).isSome := by
        intro value other listed valueEnded
        rcases tableText?_of_ended listed valueEnded with ⟨text, read, _⟩
        exact Option.isSome_of_eq_some read
      rcases Single.exists_findSome? starts solid closes lists ended accepts with
        ⟨value, other, listed, valueEnded, found⟩
      rcases tableText?_of_ended listed valueEnded with ⟨text, read, sorted⟩
      rw [tableOf, found, read]
      exact sorted

theorem findSome?_of_named {source : List Char} (plain : PlainName source)
    (named : Single "SOURCE:".toList (IsName source) block)
    (ended : List.Forall₂ Ended block pieces) :
    pieces.findSome? (fun line => (labelled? "SOURCE:".toList line).bind sourceName?) =
      some source := by
  rcases Single.exists_findSome? rfl rfl rfl named ended fun value other holds valueEnded =>
      Option.isSome_of_eq_some (sourceName?_of_ended plain holds valueEnded) with
    ⟨value, other, holds, valueEnded, found⟩
  rw [found, sourceName?_of_ended plain holds valueEnded]

end labels

variable {content : String} {before source ending : List Char} {matrix lines : Option Table}
  {block : List (List Char)}

/-- A block behind any text is read as the file that it names and the tables that it lists, sorted
by their places in the generated file. -/
theorem ofContent?_of_blockLines (written : BlockLines source matrix lines block)
    (ends : ending = ['\n'] ∨ ending = ['\r', '\n'])
    (opened : FirstAt blockMark content.toList before (block.flatMap (ending ++ ·))) :
    ∃ offsets places,
      ofContent? content = some (.template ⟨String.ofList source⟩ offsets places) ∧
      Table.StablySorts (matrix.getD []) offsets ∧ Table.StablySorts (lines.getD []) places := by
  have emptyNoEnd : '\n' ∉ ([] : List Char) := List.not_mem_nil
  rcases exists_pieces ends written.noLineEnd emptyNoEnd with ⟨first, pieces, split, _, ended⟩
  have named := findSome?_of_named written.plain written.named ended
  have offsets := tableOf_of_lists rfl rfl rfl written.matrix ended
  have places := tableOf_of_lists rfl rfl rfl written.lines ended
  refine ⟨_, _, ?_, Table.stablySorts_sorted (matrix.getD []),
    Table.stablySorts_sorted (lines.getD [])⟩
  rw [List.nil_append] at split
  rw [ofContent?, ofText?, cutAtFirst?_eq_some_iff.mpr opened]
  simp only [split, List.tail_cons, ofBlock?, named, Option.map_some, offsets, places]

def indexTemplate : String :=
  "@\r\n-- GENERATED --\r\nLINES: 8->3|7->2|7->1\r\nDATE:\r\n\tSOURCE: a.html \r\n" ++
    "MATRIX:9->4|3->1\r\n*/"

theorem blockLines_indexTemplate :
    BlockLines "a.html".toList (some [(9, 4), (3, 1)]) (some [(8, 3), (7, 2), (7, 1)])
      ["LINES: 8->3|7->2|7->1".toList, "DATE:".toList, "\tSOURCE: a.html ".toList,
        "MATRIX:9->4|3->1".toList, "*/".toList] where
  noLineEnd := by decide
  plain := ⟨by decide, by decide, by decide, by simp [isBlank], by simp [isBlank]⟩
  named := by
    refine ⟨["LINES: 8->3|7->2|7->1".toList, "DATE:".toList], "\tSOURCE: a.html ".toList,
      ["MATRIX:9->4|3->1".toList, "*/".toList], " a.html ".toList, rfl,
      (labelled?_eq_some_iff rfl rfl).mp (by decide),
      ⟨[' '], [' '], by decide, by simp [isGap], by simp [isGap]⟩, ?_⟩
    exact not_labels_of_unread rfl rfl (by decide)
  matrix := by
    refine ⟨["LINES: 8->3|7->2|7->1".toList, "DATE:".toList,
      "\tSOURCE: a.html ".toList], "MATRIX:9->4|3->1".toList, ["*/".toList],
      "9->4|3->1".toList, rfl, (labelled?_eq_some_iff rfl rfl).mp (by decide),
      ⟨[], by decide, by simp⟩, ?_⟩
    exact not_labels_of_unread rfl rfl (by decide)
  lines := by
    refine ⟨[], "LINES: 8->3|7->2|7->1".toList, ["DATE:".toList,
      "\tSOURCE: a.html ".toList, "MATRIX:9->4|3->1".toList, "*/".toList],
      " 8->3|7->2|7->1".toList, rfl, (labelled?_eq_some_iff rfl rfl).mp (by decide),
      ⟨[' '], by decide, by simp [isGap]⟩, ?_⟩
    exact not_labels_of_unread rfl rfl (by decide)

/-- The lines of the block stand in another order here, and so do the entries of the tables. -/
theorem ofContent?_indexTemplate :
    ofContent? indexTemplate = some (.template ⟨"a.html"⟩ [(3, 1), (9, 4)]
      [(7, 2), (7, 1), (8, 3)]) := by
  have opened : FirstAt blockMark indexTemplate.toList "@\r\n".toList
      (["LINES: 8->3|7->2|7->1".toList, "DATE:".toList, "\tSOURCE: a.html ".toList,
        "MATRIX:9->4|3->1".toList, "*/".toList].flatMap (['\r', '\n'] ++ ·)) :=
    cutAtFirst?_eq_some_iff.mp (by decide)
  rcases ofContent?_of_blockLines blockLines_indexTemplate (.inr rfl) opened with
    ⟨offsets, places, read, offsetsSorted, placesSorted⟩
  have sortedOffsets : Table.StablySorts [(9, 4), (3, 1)] [(3, 1), (9, 4)] :=
    ⟨by decide, .of_mem (by simp)⟩
  have sortedPlaces : Table.StablySorts [(8, 3), (7, 2), (7, 1)] [(7, 2), (7, 1), (8, 3)] :=
    ⟨by decide, .of_mem (by simp)⟩
  cases offsetsSorted.unique sortedOffsets
  cases placesSorted.unique sortedPlaces
  exact read

end ReloadReport.Provenance
