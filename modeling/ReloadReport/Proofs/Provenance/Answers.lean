import ReloadReport.Proofs.Provenance.LineMarks
import ReloadReport.Proofs.Provenance.Listing
import ReloadReport.Proofs.Text.Pieces

/-!
# Answers of units

What a unit answers for a place, in terms of its tables and of the text that lists them. The tables
ascend, so that the last entry up to a place can be found from the front, and the order of entries
for different places is not to be seen in any answer.
-/

namespace ReloadReport.Provenance

open Text

namespace Table

/-- The author's place of the last entry up to a place. No entry behind it comes up to the place. -/
inductive LastUpTo (table : Table) (place : UInt32) : Option UInt32 → Prop
  | entry {front back : Table} {generated source : UInt32}
      (parts : table = front ++ (generated, source) :: back) (reached : generated ≤ place)
      (beyond : ∀ entry ∈ back, place < entry.1) : LastUpTo table place (some source)
  | nothing (beyond : ∀ entry ∈ table, place < entry.1) : LastUpTo table place none

/-- A table has the listed entries in ascending order, and the answers are those of the last entry
up to each place, which is the latest one that was listed for the greatest such place. -/
structure Answers (listed table : Table) (answer? : UInt32 → Option UInt32) : Prop where
  sorts : StablySorts listed table
  last : ∀ place, LastUpTo table place (answer? place)
  nothing : ∀ place, answer? place = none ↔ ∀ entry ∈ table, place < entry.1
  latest : ∀ place, Leads listed place (answer? place)

section lookup

variable {table : Table} {place : UInt32} {found : Option UInt32}

theorem Leads.lastUpTo (leads : Leads table place found)
    (ordered : table.Pairwise fun left right => left.1 ≤ right.1) : LastUpTo table place found := by
  cases leads with
  | nothing beyond => exact .nothing beyond
  | @entry front generated source back parts reached earlier later =>
      refine .entry parts reached fun entry member => UInt32.not_le.mp fun within => ?_
      rw [parts] at ordered
      have ascends : generated ≤ entry.1 :=
        (List.pairwise_cons.mp (List.pairwise_append.mp ordered).2.1).1 entry member
      exact UInt32.not_lt.mpr ascends (later entry member within)

theorem LastUpTo.eq_none_iff (last : LastUpTo table place found) :
    found = none ↔ ∀ entry ∈ table, place < entry.1 := by
  cases last with
  | nothing beyond => exact iff_of_true rfl beyond
  | @entry front back generated source parts reached _ =>
      refine iff_of_false nofun fun beyond => ?_
      exact UInt32.not_lt.mpr reached (beyond (generated, source) (by simp [parts]))

theorem answers_sorted (listed : Table) :
    Answers listed (sorted listed) (sorted listed).at? := by
  have last : ∀ place, LastUpTo (sorted listed) place ((sorted listed).at? place) := fun place =>
    (leads_at?_of_pairwise (pairwise_sorted listed) place).lastUpTo (pairwise_sorted listed)
  exact {
    sorts := stablySorts_sorted listed
    last := last
    nothing := fun place => (last place).eq_none_iff
    latest := leads_at?_sorted listed }

theorem answers_of_pairwise (ordered : table.Pairwise fun left right => left.1 ≤ right.1) :
    Answers table table table.at? := by
  simpa only [sorted_eq_self_iff.mpr ordered] using answers_sorted table

end lookup

end Table

/-- What the answers of a unit are, by the content that it was read from. -/
inductive Explained (content : List Char) : Provenance → Prop
  | template {path : Path} {matrix lines : Table} (opened : FirstAt blockMark content before block)
      (listsOffsets : ListsBehind "MATRIX:".toList (block.splitOn '\n').tail listedOffsets)
      (listsLines : ListsBehind "LINES:".toList (block.splitOn '\n').tail listedLines)
      (offsets : Table.Answers listedOffsets matrix (template path matrix lines).sourceOffset?)
      (places : Table.Answers listedLines lines (template path matrix lines).sourceLine?) :
      Explained content (template path matrix lines)
  | routes {path : Path} {marks : Table} (noBlock : ¬ blockMark <:+: content)
      (ascending : marks.Pairwise fun left right => left.1 < right.1)
      (places : Table.Answers marks marks (routes path marks).sourceLine?)
      (nearest : ∀ place,
        NearestMark (content.splitOn '\n') place ((routes path marks).sourceLine? place)) :
      Explained content (routes path marks)

structure IsPiece (text : List Char) : Prop where
  noBar : '|' ∉ text
  noReturn : '\r' ∉ text
  noLineEnd : '\n' ∉ text

instance (text : List Char) : Decidable (IsPiece text) :=
  decidable_of_iff ('|' ∉ text ∧ '\r' ∉ text ∧ '\n' ∉ text)
    ⟨fun ⟨noBar, noReturn, noLineEnd⟩ => ⟨noBar, noReturn, noLineEnd⟩,
      fun piece => ⟨piece.noBar, piece.noReturn, piece.noLineEnd⟩⟩

/-- Two texts that differ in the order of the pieces of one table in the block, where entries for
one place keep their order. -/
inductive Rearranged : List Char → List Char → Prop
  | line {label head gaps ending rest : List Char} {pieces others : List (List Char)}
      (tabular : label = "MATRIX:".toList ∨ label = "LINES:".toList)
      (opened : blockMark <:+: head) (inside : ∀ c ∈ gaps, isGap c)
      (plain : ∀ piece ∈ pieces, IsPiece piece) (reordered : Table.Reordered pieces others)
      (ends : ending = [] ∨ ending = ['\r']) (below : rest = [] ∨ rest.head? = some '\n') :
      Rearranged (head ++ '\n' :: (gaps ++ label ++ ['|'].intercalate pieces ++ ending ++ rest))
        (head ++ '\n' :: (gaps ++ label ++ ['|'].intercalate others ++ ending ++ rest))

section rearranged

variable {label line other text otherText : List Char} {front back : List (List Char)}

theorem labelled?_eq_none_of_tabulates {otherLabel : List Char} {mark otherMark : Char}
    (tabulates : Tabulates label line text) (starts : label.head? = some mark)
    (solid : isGap mark = false) (otherStarts : otherLabel.head? = some otherMark)
    (different : otherMark ≠ mark) : labelled? otherLabel line = none := by
  rcases tabulates with ⟨value, _, ⟨gaps, rfl, inside⟩, _⟩
  rw [labelled?, List.append_assoc, dropWhile_run inside (stops_at_label starts solid)]
  rcases List.head?_eq_some_iff.mp starts with ⟨rest, rfl⟩
  rcases List.head?_eq_some_iff.mp otherStarts with ⟨otherRest, rfl⟩
  exact if_neg different

theorem tableOf_eq_getD (label : List Char) (block : List (List Char)) :
    tableOf label block = (block.findSome? fun line =>
      ((labelled? label line).bind tableText?).map Table.ofText).getD [] := by
  have mapped : (block.findSome? fun line => (labelled? label line).bind tableText?).map
      Table.ofText = block.findSome? fun line =>
        ((labelled? label line).bind tableText?).map Table.ofText := List.map_findSome?
  rw [tableOf, ← mapped]
  cases block.findSome? fun line => (labelled? label line).bind tableText? <;> rfl

/-- A line may stand for another one from which the same table is read. -/
theorem tableOf_append_cons
    (alike : ((labelled? label line).bind tableText?).map Table.ofText =
      ((labelled? label other).bind tableText?).map Table.ofText) :
    tableOf label (front ++ line :: back) = tableOf label (front ++ other :: back) := by
  simp only [tableOf_eq_getD, List.findSome?_append, List.findSome?_cons, alike]

theorem tableOf_of_tabulates {mark : Char} (starts : label.head? = some mark)
    (solid : isGap mark = false) (tabulates : Tabulates label line text)
    (otherTabulates : Tabulates label other otherText)
    (same : Table.ofText text = Table.ofText otherText) :
    tableOf label (front ++ line :: back) = tableOf label (front ++ other :: back) := by
  apply tableOf_append_cons
  rw [(tableBehind_eq_some_iff starts solid).mpr tabulates,
    (tableBehind_eq_some_iff starts solid).mpr otherTabulates, Option.map_some, Option.map_some,
    same]

theorem tableOf_of_unlabelled (unlabelled : labelled? label line = none)
    (otherUnlabelled : labelled? label other = none) :
    tableOf label (front ++ line :: back) = tableOf label (front ++ other :: back) :=
  tableOf_append_cons (by rw [unlabelled, otherUnlabelled])

theorem ofBlock?_append_cons (unnamed : labelled? "SOURCE:".toList line = none)
    (otherUnnamed : labelled? "SOURCE:".toList other = none)
    (offsets : tableOf "MATRIX:".toList (front ++ line :: back) =
      tableOf "MATRIX:".toList (front ++ other :: back))
    (places : tableOf "LINES:".toList (front ++ line :: back) =
      tableOf "LINES:".toList (front ++ other :: back)) :
    ofBlock? (front ++ line :: back) = ofBlock? (front ++ other :: back) := by
  simp only [ofBlock?, offsets, places, List.findSome?_append, List.findSome?_cons, unnamed,
    otherUnnamed, Option.bind_none]

theorem ofBlock?_of_tabulates (tabular : label = "MATRIX:".toList ∨ label = "LINES:".toList)
    (tabulates : Tabulates label line text) (otherTabulates : Tabulates label other otherText)
    (same : Table.ofText text = Table.ofText otherText) :
    ofBlock? (front ++ line :: back) = ofBlock? (front ++ other :: back) := by
  rcases tabular with rfl | rfl
  · apply ofBlock?_append_cons
    · exact labelled?_eq_none_of_tabulates tabulates rfl rfl rfl (by decide)
    · exact labelled?_eq_none_of_tabulates otherTabulates rfl rfl rfl (by decide)
    · exact tableOf_of_tabulates rfl rfl tabulates otherTabulates same
    · exact tableOf_of_unlabelled
        (labelled?_eq_none_of_tabulates tabulates rfl rfl rfl (by decide))
        (labelled?_eq_none_of_tabulates otherTabulates rfl rfl rfl (by decide))
  · apply ofBlock?_append_cons
    · exact labelled?_eq_none_of_tabulates tabulates rfl rfl rfl (by decide)
    · exact labelled?_eq_none_of_tabulates otherTabulates rfl rfl rfl (by decide)
    · exact tableOf_of_unlabelled
        (labelled?_eq_none_of_tabulates tabulates rfl rfl rfl (by decide))
        (labelled?_eq_none_of_tabulates otherTabulates rfl rfl rfl (by decide))
    · exact tableOf_of_tabulates rfl rfl tabulates otherTabulates same

section pieces

variable {gaps ending : List Char} {pieces : List (List Char)}

theorem tabulates_intercalate (inside : ∀ c ∈ gaps, isGap c)
    (plain : ∀ piece ∈ pieces, IsPiece piece) (ends : ending = [] ∨ ending = ['\r']) :
    Tabulates label (gaps ++ label ++ ['|'].intercalate pieces ++ ending)
      (['|'].intercalate pieces) :=
  ⟨['|'].intercalate pieces ++ ending, ending, ⟨gaps, by simp, inside⟩, rfl, ends,
    notMem_intercalate (by decide) fun piece member => (plain piece member).noReturn⟩

theorem noLineEnd_intercalate (tabular : label = "MATRIX:".toList ∨ label = "LINES:".toList)
    (inside : ∀ c ∈ gaps, isGap c) (plain : ∀ piece ∈ pieces, IsPiece piece)
    (ends : ending = [] ∨ ending = ['\r']) :
    '\n' ∉ gaps ++ label ++ ['|'].intercalate pieces ++ ending := by
  have inGaps : '\n' ∉ gaps := fun member => absurd (inside _ member) (by decide)
  have inLabel : '\n' ∉ label := by rcases tabular with rfl | rfl <;> decide
  have inPieces : '\n' ∉ ['|'].intercalate pieces :=
    notMem_intercalate (by decide) fun piece member => (plain piece member).noLineEnd
  have inEnding : '\n' ∉ ending := by rcases ends with rfl | rfl <;> decide
  simp only [List.mem_append, not_or]
  exact ⟨⟨⟨inGaps, inLabel⟩, inPieces⟩, inEnding⟩

end pieces

theorem ofText?_of_rearranged (rearranged : Rearranged text other) :
    ofText? other = ofText? text := by
  cases rearranged with
  | @line label _ gaps ending _ pieces others tabular opened inside plain reordered ends below =>
      rcases exists_firstAt_append opened with ⟨before, block, first⟩
      rcases exists_splitOn_append below with ⟨later, split⟩
      rcases List.exists_cons_of_ne_nil (List.splitOn_ne_nil '\n' block) with
        ⟨opening, lines, parts⟩
      have othersPlain : ∀ piece ∈ others, IsPiece piece := fun piece member =>
        plain piece (reordered.perm.mem_iff.mpr member)
      have same : Table.ofText (['|'].intercalate others) =
          Table.ofText (['|'].intercalate pieces) :=
        reordered.ofText_eq fun piece member => (plain piece member).noBar
      rw [ofText?, ofText?, cutAtFirst?_eq_some_iff.mpr (first _),
        cutAtFirst?_eq_some_iff.mpr (first _)]
      simp only [splitOn_append_cons, parts, List.cons_append, List.tail_cons,
        split _ (noLineEnd_intercalate tabular inside plain ends),
        split _ (noLineEnd_intercalate tabular inside othersPlain ends)]
      exact ofBlock?_of_tabulates tabular (tabulates_intercalate inside othersPlain ends)
        (tabulates_intercalate inside plain ends) same

end rearranged

theorem explained_of_ofText? {content : List Char} {unit : Provenance}
    (made : ofText? content = some unit) : Explained content unit := by
  cases unit with
  | template path matrix lines =>
      rcases eq_tableOf_of_template made with ⟨before, block, opened, rfl, rfl⟩
      rcases exists_listsBehind "MATRIX:".toList rfl rfl (block.splitOn '\n').tail with
        ⟨listedOffsets, listsOffsets, offsetsSorted⟩
      rcases exists_listsBehind "LINES:".toList rfl rfl (block.splitOn '\n').tail with
        ⟨listedLines, listsLines, linesSorted⟩
      refine .template opened listsOffsets listsLines ?_ ?_
      · rw [offsetsSorted]
        exact Table.answers_sorted listedOffsets
      · rw [linesSorted]
        exact Table.answers_sorted listedLines
  | routes path marks =>
      cases eq_lineMarkers_of_routes made
      exact .routes (noBlock_of_routes made) (pairwise_lt_lineMarkers (lines content))
        (Table.answers_of_pairwise (pairwise_lineMarkers (lines content)))
        (nearestMark_splitOn content)

/-- A unit that is read answers every place by the last entry up to it, as its content lists the
entries, and no answer depends on the order of entries for different places. -/
theorem ofContent?_explained (content : String) :
    (∀ unit, ofContent? content = some unit → Explained content.toList unit) ∧
      ∀ other : String, Rearranged content.toList other.toList →
        ofContent? other = ofContent? content :=
  ⟨fun _ made => explained_of_ofText? made, fun _ rearranged => ofText?_of_rearranged rearranged⟩

def listedTemplate : String :=
  "-- GENERATED --\nSOURCE: a.html\nLINES: 7->2|x|7->1|9->3\r\n"

def shuffledTemplate : String :=
  "-- GENERATED --\nSOURCE: a.html\nLINES:9->3| 7->2|7->1|x\r\n"

theorem rearranged_shuffledTemplate :
    Rearranged listedTemplate.toList shuffledTemplate.toList := by
  have listed : listedTemplate.toList = "-- GENERATED --\nSOURCE: a.html".toList ++ '\n' ::
      ([] ++ "LINES:".toList ++ ['|'].intercalate [" 7->2".toList, "x".toList, "7->1".toList,
        "9->3".toList] ++ ['\r'] ++ ['\n']) := by decide
  have shuffled : shuffledTemplate.toList = "-- GENERATED --\nSOURCE: a.html".toList ++ '\n' ::
      ([] ++ "LINES:".toList ++ ['|'].intercalate ["9->3".toList, " 7->2".toList, "7->1".toList,
        "x".toList] ++ ['\r'] ++ ['\n']) := by decide
  rw [listed, shuffled]
  refine .line (.inr rfl) (by decide) (by simp) (by decide) ?_ (.inr rfl) (.inr rfl)
  -- All but the first piece are apart, and that one is apart from the last.
  exact .trans (.cons _ (.of_perm (by decide) (by decide))) (.swap (by decide) _)

/-- The entries for line seven keep their order, so that the later one still holds. -/
theorem ofContent?_shuffledTemplate :
    ∃ unit, ofContent? listedTemplate = some unit ∧ Explained listedTemplate.toList unit ∧
      ofContent? shuffledTemplate = some unit ∧ unit.sourceLine? 8 = some 1 := by
  have made : ofContent? listedTemplate =
      some (.template ⟨"a.html"⟩ [] (Table.sorted [(7, 2), (7, 1), (9, 3)])) := by rfl
  have ascends : Table.sorted [(7, 2), (7, 1), (9, 3)] = [(7, 2), (7, 1), (9, 3)] :=
    (Table.stablySorts_sorted _).unique ⟨by decide, fun _ => rfl⟩
  rcases ofContent?_explained listedTemplate with ⟨explained, alike⟩
  refine ⟨_, made, explained _ made, ?_, ?_⟩
  · rw [alike shuffledTemplate rearranged_shuffledTemplate, made]
  · rw [sourceLine?, ascends]
    decide

end ReloadReport.Provenance
