import Mathlib.Data.List.Basic
import ReloadReport.Proofs.Provenance.Listing
import ReloadReport.Proofs.Provenance.SourceNames
import ReloadReport.Proofs.Text.Pieces

/-!
# Closing marks

The template compiler closes its block with the mark that opens it. The closing mark does not end
what is read: the author's file and each table are looked for behind it where the block does not
have them, so that what follows a block cannot be seen exactly where the block has all three.
-/

namespace ReloadReport.Provenance

open Text

/-- The mark of a block stands behind a text and again behind the block, and nowhere else up to
there. -/
def Delimits (before block : List Char) : Prop :=
  ∀ other rest, before ++ blockMark ++ block ++ blockMark = other ++ blockMark ++ rest →
    other = before ∨ other = before ++ blockMark ++ block

def delimited (before block after : List Char) : String :=
  String.ofList (before ++ blockMark ++ block ++ blockMark ++ after)

def StartsWithLineEnd (text : List Char) : Prop :=
  ∃ ending rest, (ending = [] ∨ ending = ['\r']) ∧ text = ending ++ '\n' :: rest

/-- The lines of a block below the one that opens it. The last one ends in the closing mark. -/
def innerLines (block : List Char) : List (List Char) :=
  ((block ++ blockMark).splitOn '\n').tail

/-- The block names the author's file and has both tables. -/
structure Complete (block : List Char) : Prop where
  named : ∃ line ∈ innerLines block, ∃ value, Labels "SOURCE:".toList line value ∧ value ≠ []
  offsets : ∃ line ∈ innerLines block, ∃ text, Tabulates "MATRIX:".toList line text
  places : ∃ line ∈ innerLines block, ∃ text, Tabulates "LINES:".toList line text

section delimits

variable {before block : List Char}

theorem Delimits.firstAt (delimits : Delimits before block) :
    FirstAt blockMark (before ++ blockMark ++ block ++ blockMark) before (block ++ blockMark) where
  parts := by simp
  least := by
    intro other rest parts
    rcases delimits other rest parts with rfl | rfl
    · exact Nat.le_refl _
    · simp

/-- A block is delimited where its mark is met first in front of it, and from the second character
of the mark on first behind it. -/
theorem delimits_of_firstAt
    (opens : FirstAt blockMark (before ++ blockMark ++ block ++ blockMark) before
      (block ++ blockMark))
    (closes : FirstAt blockMark (blockMark.tail ++ block ++ blockMark) (blockMark.tail ++ block)
      []) : Delimits before block := by
  intro other rest parts
  exact eq_or_eq_of_firstAt opens closes parts

end delimits

section closingLine

variable {label line value : List Char}

theorem sourceName?_append_return (solid : ∃ c ∈ value, isBlank c = false) :
    sourceName? (value ++ ['\r']) = sourceName? value := by
  rcases exists_namesFile solid with ⟨name, names⟩
  have longer := names.append_blanks (List.forall_mem_singleton.mpr (rfl : isBlank '\r' = true))
  rw [sourceName?_of_namesFile names, sourceName?_of_namesFile longer]

theorem tableText?_append_return (unended : value.getLast? ≠ some '\r') :
    tableText? (value ++ ['\r']) = tableText? value := by
  have kept : dropReturn value = value := if_neg unended
  rw [tableText?, tableText?, dropReturn_append_return, kept]

theorem getLast?_of_closing (closes : label.getLast? = some ':') (labels : Labels label line value)
    (closing : blockMark <:+ line) : value.getLast? = some '-' := by
  have dash : line.getLast? = some '-' := by
    rcases closing with ⟨front, rfl⟩
    rw [List.getLast?_append_of_ne_nil _ (by decide)]
    decide
  rcases labels with ⟨gaps, rfl, _⟩
  cases value with
  | nil => simp [closes] at dash
  | cons c value =>
      rwa [List.getLast?_append_of_ne_nil _ (List.cons_ne_nil c value)] at dash

theorem source_append_return (closing : blockMark <:+ line) :
    (labelled? "SOURCE:".toList (line ++ ['\r'])).bind sourceName? =
      (labelled? "SOURCE:".toList line).bind sourceName? := by
  rw [labelled?_append_return rfl]
  cases read : labelled? "SOURCE:".toList line with
  | none => rfl
  | some value =>
      have last := getLast?_of_closing rfl ((labels_source_iff line value).mp read) closing
      exact sourceName?_append_return ⟨'-', List.mem_of_getLast? last, rfl⟩

theorem table_append_return {mark : Char} (starts : label.head? = some mark)
    (solid : isGap mark = false) (closes : label.getLast? = some ':')
    (closing : blockMark <:+ line) : (labelled? label (line ++ ['\r'])).bind tableText? =
      (labelled? label line).bind tableText? := by
  rw [labelled?_append_return closes]
  cases read : labelled? label line with
  | none => rfl
  | some value =>
      have last := getLast?_of_closing closes ((labelled?_eq_some_iff starts solid).mp read) closing
      exact tableText?_append_return (by simp [last])

end closingLine

section findSome?

variable {before block ending rest : List Char}

theorem findSome?_behindBlock (read? : List Char → Option α)
    (ignores : ∀ line, blockMark <:+ line → read? (line ++ ['\r']) = read? line)
    (ends : ending = [] ∨ ending = ['\r']) :
    ((block ++ blockMark ++ (ending ++ '\n' :: rest)).splitOn '\n').tail.findSome? read? =
      (innerLines block ++ rest.splitOn '\n').findSome? read? := by
  rcases exists_splitOn '\n' block with ⟨pieces, last, split, _⟩
  have inner : (block ++ blockMark).splitOn '\n' = pieces ++ [last ++ blockMark] :=
    splitOn_append_of_notMem (by decide) split
  have closed : (block ++ (blockMark ++ ending)).splitOn '\n' =
      pieces ++ [last ++ (blockMark ++ ending)] := by
    refine splitOn_append_of_notMem ?_ split
    rcases ends with rfl | rfl <;> decide
  have whole : (block ++ blockMark ++ (ending ++ '\n' :: rest)).splitOn '\n' =
      pieces ++ [last ++ (blockMark ++ ending)] ++ rest.splitOn '\n' := by
    rw [← closed, ← splitOn_append_cons]
    simp
  have closing : read? (last ++ (blockMark ++ ending)) = read? (last ++ blockMark) := by
    rcases ends with rfl | rfl
    · rw [List.append_nil]
    · rw [← List.append_assoc]
      exact ignores _ (List.suffix_append last blockMark)
  rw [innerLines, whole, inner]
  cases pieces with
  | nil => rfl
  | cons opening pieces => simp [List.findSome?_append, List.findSome?_cons, closing]

theorem ofContent?_delimited (delimits : Delimits before block) (after : List Char) :
    ofContent? (delimited before block after) =
      ofBlock? ((block ++ blockMark ++ after).splitOn '\n').tail := by
  have opened := delimits.firstAt.append after
  rw [ofContent?, delimited, String.toList_ofList, ofText?, cutAtFirst?_eq_some_iff.mpr opened]

/-- The lines behind the closing mark are read as further lines of the block. -/
theorem ofContent?_delimited_eq (delimits : Delimits before block)
    (ends : ending = [] ∨ ending = ['\r']) :
    ofContent? (delimited before block (ending ++ '\n' :: rest)) =
      ofBlock? (innerLines block ++ rest.splitOn '\n') := by
  rw [ofContent?_delimited delimits]
  simp only [ofBlock?, tableOf,
    findSome?_behindBlock (fun line => (labelled? "SOURCE:".toList line).bind sourceName?)
      (fun _ => source_append_return) ends,
    findSome?_behindBlock (fun line => (labelled? "MATRIX:".toList line).bind tableText?)
      (fun _ => table_append_return rfl rfl rfl) ends,
    findSome?_behindBlock (fun line => (labelled? "LINES:".toList line).bind tableText?)
      (fun _ => table_append_return rfl rfl rfl) ends]

end findSome?

section complete

variable {block : List Char} {label : List Char} {mark : Char} {inner later : List (List Char)}

theorem findSome?_table_isSome_iff (starts : label.head? = some mark) (solid : isGap mark = false) :
    (inner.findSome? fun line => (labelled? label line).bind tableText?).isSome ↔
      ∃ line ∈ inner, ∃ text, Tabulates label line text := by
  have listed : ∀ line, ((labelled? label line).bind tableText?).isSome ↔
      ∃ text, Tabulates label line text := by
    intro line
    simp only [Option.isSome_iff_exists, tableBehind_eq_some_iff starts solid]
  simp only [List.findSome?_isSome_iff, listed]

theorem tableOf_append_of_isSome
    (listed : (inner.findSome? fun line => (labelled? label line).bind tableText?).isSome) :
    tableOf label (inner ++ later) = tableOf label inner := by
  rw [tableOf, tableOf, List.findSome?_append, Option.or_of_isSome listed]

theorem tableOf_append_of_isNone
    (unlisted : ¬ (inner.findSome? fun line => (labelled? label line).bind tableText?).isSome) :
    tableOf label (inner ++ later) = tableOf label later := by
  rw [tableOf, tableOf, List.findSome?_append, Option.not_isSome_iff_eq_none.mp unlisted,
    Option.none_or]

theorem Complete.ofBlock?_append (complete : Complete block) (later : List (List Char)) :
    ofBlock? (innerLines block ++ later) = ofBlock? (innerLines block) := by
  have named := (findSome?_sourceName?_isSome_iff labels_source_iff).mpr complete.named
  have offsets := (findSome?_table_isSome_iff rfl rfl).mpr complete.offsets
  have places := (findSome?_table_isSome_iff rfl rfl).mpr complete.places
  rw [ofBlock?, ofBlock?, tableOf_append_of_isSome offsets, tableOf_append_of_isSome places,
    List.findSome?_append, Option.or_of_isSome named]

theorem exists_tabulates {line text : List Char} (starts : label.head? = some mark)
    (solid : isGap mark = false) (tabulates : Tabulates label line text)
    (listed : Table.entries text ≠ [])
    (same : tableOf label (inner ++ [[]]) = tableOf label (inner ++ [line])) :
    ∃ line ∈ inner, ∃ text, Tabulates label line text := by
  rw [← findSome?_table_isSome_iff starts solid]
  apply Classical.byContradiction
  intro unlisted
  have blank : labelled? label [] = none := by
    rcases List.head?_eq_some_iff.mp starts with ⟨rest, rfl⟩
    rfl
  have nothing : tableOf label [[]] = [] := by
    rw [tableOf, List.findSome?_singleton, blank, Option.bind_none]
  have told : tableOf label [line] = Table.ofText text := by
    rw [tableOf, List.findSome?_singleton, (tableBehind_eq_some_iff starts solid).mpr tabulates]
  rw [tableOf_append_of_isNone unlisted, tableOf_append_of_isNone unlisted, nothing, told] at same
  exact listed (List.Perm.eq_nil (same ▸ (List.mergeSort_perm (Table.entries text) _).symm))

theorem ofBlock?_isSome_iff {lines : List (List Char)} :
    (ofBlock? lines).isSome ↔
      ∃ line ∈ lines, ∃ value, Labels "SOURCE:".toList line value ∧ value ≠ [] := by
  rw [ofBlock?, Option.isSome_map, findSome?_sourceName?_isSome_iff labels_source_iff]

theorem tables_of_ofBlock?_append {other : List (List Char)}
    (named : ∃ line ∈ inner, ∃ value, Labels "SOURCE:".toList line value ∧ value ≠ [])
    (same : ofBlock? (inner ++ later) = ofBlock? (inner ++ other)) :
    tableOf "MATRIX:".toList (inner ++ later) = tableOf "MATRIX:".toList (inner ++ other) ∧
      tableOf "LINES:".toList (inner ++ later) = tableOf "LINES:".toList (inner ++ other) := by
  have found := (findSome?_sourceName?_isSome_iff labels_source_iff).mpr named
  rcases Option.isSome_iff_exists.mp found with ⟨name, read⟩
  simpa only [ofBlock?, List.findSome?_append, read, Option.some_or, Option.map_some,
    Option.some.injEq, template.injEq, true_and] using same

theorem complete_of_ofBlock?_append
    (same : ∀ line, '\n' ∉ line →
      ofBlock? (innerLines block ++ [[]]) = ofBlock? (innerLines block ++ [line])) :
    Complete block := by
  have named : ∃ line ∈ innerLines block, ∃ value,
      Labels "SOURCE:".toList line value ∧ value ≠ [] := by
    have told : (ofBlock? (innerLines block ++ ["SOURCE:a".toList])).isSome :=
      ofBlock?_isSome_iff.mpr ⟨_, by simp, ['a'], ⟨[], rfl, by simp⟩, by decide⟩
    rw [← same _ (by decide), ofBlock?_isSome_iff] at told
    rcases told with ⟨line, member, value, labels, nonempty⟩
    rcases List.mem_append.mp member with inside | below
    · exact ⟨line, inside, value, labels, nonempty⟩
    · rcases labels with ⟨gaps, parts, _⟩
      simp [List.mem_singleton.mp below] at parts
  have offsets : Tabulates "MATRIX:".toList "MATRIX:1->1".toList "1->1".toList :=
    ⟨_, [], ⟨[], rfl, by simp⟩, rfl, .inl rfl, by decide⟩
  have places : Tabulates "LINES:".toList "LINES:1->1".toList "1->1".toList :=
    ⟨_, [], ⟨[], rfl, by simp⟩, rfl, .inl rfl, by decide⟩
  refine ⟨named, exists_tabulates rfl rfl offsets (by decide) ?_,
    exists_tabulates rfl rfl places (by decide) ?_⟩
  · exact (tables_of_ofBlock?_append named (same _ (by decide))).1
  · exact (tables_of_ofBlock?_append named (same _ (by decide))).2

end complete

section ofContent?

variable {before block : List Char}

/-- What stands in front of a delimited block does not count. What stands behind it counts unless
the block is complete. -/
theorem ofContent?_delimited_iff_complete (delimits : Delimits before block) :
    (∀ other after, Delimits other block →
        ofContent? (delimited other block after) = ofContent? (delimited before block after)) ∧
      ((∀ after later, StartsWithLineEnd after → StartsWithLineEnd later →
          ofContent? (delimited before block after) = ofContent? (delimited before block later)) ↔
        Complete block) := by
  refine ⟨fun other after otherDelimits => ?_, fun same => ?_, fun complete => ?_⟩
  · rw [ofContent?_delimited otherDelimits, ofContent?_delimited delimits]
  · apply complete_of_ofBlock?_append
    intro line oneLine
    have feed : StartsWithLineEnd ['\n'] := ⟨[], [], .inl rfl, rfl⟩
    have units := same ([] ++ ['\n']) ([] ++ '\n' :: line) feed ⟨[], line, .inl rfl, rfl⟩
    rw [ofContent?_delimited_eq delimits (.inl rfl), ofContent?_delimited_eq delimits (.inl rfl),
      List.splitOn_eq_singleton oneLine] at units
    exact units
  · rintro _ _ ⟨ending, rest, ends, rfl⟩ ⟨laterEnding, laterRest, laterEnds, rfl⟩
    rw [ofContent?_delimited_eq delimits ends, ofContent?_delimited_eq delimits laterEnds,
      complete.ofBlock?_append, complete.ofBlock?_append]

theorem ofContent?_delimited_completeBlock :
    Delimits [] "\nSOURCE: a\nMATRIX: 1->1\nLINES: 1->7\n".toList ∧
      ∀ after later, StartsWithLineEnd after → StartsWithLineEnd later →
        ofContent? (delimited [] "\nSOURCE: a\nMATRIX: 1->1\nLINES: 1->7\n".toList after) =
          ofContent? (delimited []
            "\nSOURCE: a\nMATRIX: 1->1\nLINES: 1->7\n".toList later) := by
  have delimits : Delimits [] "\nSOURCE: a\nMATRIX: 1->1\nLINES: 1->7\n".toList :=
    delimits_of_firstAt (cutAtFirst?_eq_some_iff.mp (by decide))
      (cutAtFirst?_eq_some_iff.mp (by decide))
  refine ⟨delimits, (ofContent?_delimited_iff_complete delimits).2.mpr ⟨?_, ?_, ?_⟩⟩
  · exact ⟨"SOURCE: a".toList, by decide, " a".toList, ⟨[], rfl, by simp⟩, by decide⟩
  · exact ⟨"MATRIX: 1->1".toList, by decide, " 1->1".toList, _, [], ⟨[], rfl, by simp⟩, rfl,
      .inl rfl, by decide⟩
  · exact ⟨"LINES: 1->7".toList, by decide, " 1->7".toList, _, [], ⟨[], rfl, by simp⟩, rfl,
      .inl rfl, by decide⟩

/-- A table of lines behind the closing mark counts where the block has none. -/
theorem ofContent?_delimited_linesBehind :
    Delimits [] "\nSOURCE: a.html\n".toList ∧ StartsWithLineEnd "\n".toList ∧
      StartsWithLineEnd "\nLINES: 1->7\n".toList ∧
      ofContent? (delimited [] "\nSOURCE: a.html\n".toList "\n".toList) ≠
        ofContent? (delimited [] "\nSOURCE: a.html\n".toList "\nLINES: 1->7\n".toList) := by
  have delimits : Delimits [] "\nSOURCE: a.html\n".toList :=
    delimits_of_firstAt (cutAtFirst?_eq_some_iff.mp (by decide))
      (cutAtFirst?_eq_some_iff.mp (by decide))
  refine ⟨delimits, ⟨[], [], .inl rfl, rfl⟩, ⟨[], "LINES: 1->7\n".toList, .inl rfl, rfl⟩, ?_⟩
  have unlisted : ofContent? (delimited [] "\nSOURCE: a.html\n".toList "\n".toList) =
      some (.template ⟨"a.html"⟩ [] []) := by
    decide
  have listed : ofContent? (delimited [] "\nSOURCE: a.html\n".toList "\nLINES: 1->7\n".toList) =
      some (.template ⟨"a.html"⟩ [] (Table.sorted [(1, 7)])) :=
    rfl
  rw [unlisted, listed, Table.sorted, List.mergeSort_singleton]
  decide

end ofContent?

end ReloadReport.Provenance
