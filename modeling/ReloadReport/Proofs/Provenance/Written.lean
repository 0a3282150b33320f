import ReloadReport.Proofs.Provenance.Marker
import ReloadReport.Provenance

/-!
# Written units

Files as the generators write them. Of several lines with one label the first counts, and reading
such a file gives the author's file and the table that were written into it.
-/

namespace ReloadReport.Provenance

open Text

/-- The first line that has a value at all has this one. -/
def FirstWith (Holds : List Char → List Char → Prop) (lines : List (List Char))
    (value : List Char) : Prop :=
  ∃ front line back, lines = front ++ line :: back ∧ Holds line value ∧
    ∀ other ∈ front, ∀ value, ¬ Holds other value

/-- A file of the template compiler: in the block, below the line that opens it, the first source
line names a file and the first table of lines has the pairs. -/
def WritesTemplate (content source : List Char) (pairs : Table) : Prop :=
  ∃ before block named table, FirstAt blockMark content before block ∧
    FirstWith (Labels "SOURCE:".toList) (block.splitOn '\n').tail named ∧ NamesFile named source ∧
    FirstWith (Labels "LINES:".toList) (block.splitOn '\n').tail table ∧ HoldsTable table pairs

/-- A file of the routes compiler: it has no such block, and its first source comment names a
file. -/
def WritesRoutes (content source : List Char) : Prop :=
  ∃ named, ¬ blockMark <:+: content ∧
    FirstWith (Comments isGap "@SOURCE:".toList) (content.splitOn '\n') named ∧
    NamesFile named source

theorem findSome?_of_firstWith {read? : List Char → Option (List Char)}
    {Holds : List Char → List Char → Prop}
    (reads : ∀ line value, read? line = some value ↔ Holds line value)
    {lines : List (List Char)} {value : List Char} (first : FirstWith Holds lines value)
    {accept : List Char → Option α} {found : α} (accepted : accept value = some found) :
    lines.findSome? (fun line => (read? line).bind accept) = some found := by
  rcases first with ⟨front, line, back, rfl, holds, noneBefore⟩
  refine List.findSome?_eq_some_iff.mpr ⟨front, line, back, rfl, ?_, fun other member => ?_⟩
  · rw [(reads line value).mpr holds, Option.bind_some, accepted]
  · have unread : read? other = none := Option.eq_none_iff_forall_not_mem.mpr fun value read =>
      noneBefore other member value ((reads other value).mp read)
    rw [unread, Option.bind_none]

variable {content source : List Char}

theorem ofText?_of_writesTemplate {pairs : Table} (writes : WritesTemplate content source pairs) :
    ∃ matrix, ofText? content =
      some (.template ⟨String.ofList source⟩ matrix (Table.sorted pairs)) := by
  rcases writes with ⟨before, block, named, table, opened, firstNamed, names, firstTable, holds⟩
  have sourceReads : ∀ line value, labelled? "SOURCE:".toList line = some value ↔
      Labels "SOURCE:".toList line value := fun _ _ => labelled?_eq_some_iff rfl rfl
  have linesRead : ∀ line value, labelled? "LINES:".toList line = some value ↔
      Labels "LINES:".toList line value := fun _ _ => labelled?_eq_some_iff rfl rfl
  rcases tableText?_of_holdsTable holds with ⟨text, tableRead, sorted⟩
  have sourceFound := findSome?_of_firstWith sourceReads firstNamed (sourceName?_of_namesFile names)
  have linesFound := findSome?_of_firstWith linesRead firstTable tableRead
  refine ⟨tableOf "MATRIX:".toList (block.splitOn '\n').tail, ?_⟩
  rw [ofText?, cutAtFirst?_eq_some_iff.mpr opened]
  simp only [ofBlock?, sourceFound, Option.map_some, tableOf, linesFound, sorted]

theorem ofText?_of_noBlock (noBlock : ¬ blockMark <:+: content) :
    ofText? content = ofComments? content := by
  rw [ofText?, cutAtFirst?_eq_none_iff.mpr noBlock]

theorem ofText?_of_writesRoutes (writes : WritesRoutes content source) :
    ofText? content = some (.routes ⟨String.ofList source⟩ (lineMarkers (lines content))) := by
  rcases writes with ⟨named, noBlock, firstNamed, names⟩
  have sourceReads : ∀ line value,
      (comment? isGap line).bind (after? "@SOURCE:".toList) = some value ↔
        Comments isGap "@SOURCE:".toList line value := fun _ _ =>
    comment?_label_eq_some_iff rfl rfl rfl
  have sourceFound := findSome?_of_firstWith sourceReads firstNamed (sourceName?_of_namesFile names)
  rw [ofText?_of_noBlock noBlock, ofComments?]
  exact congrArg (Option.map _) sourceFound

theorem eq_tableOf_of_template {path : Path} {matrix lines : Table}
    (made : ofText? content = some (.template path matrix lines)) :
    ∃ before block, FirstAt blockMark content before block ∧
      matrix = tableOf "MATRIX:".toList (block.splitOn '\n').tail ∧
      lines = tableOf "LINES:".toList (block.splitOn '\n').tail := by
  rw [ofText?] at made
  split at made
  next before block opened =>
    rw [ofBlock?, Option.map_eq_some_iff] at made
    rcases made with ⟨_, _, same⟩
    cases same
    exact ⟨before, block, cutAtFirst?_eq_some_iff.mp opened, rfl, rfl⟩
  next =>
    rw [ofComments?, Option.map_eq_some_iff] at made
    rcases made with ⟨_, _, same⟩
    cases same

theorem noBlock_of_routes {path : Path} {marks : Table}
    (made : ofText? content = some (.routes path marks)) : ¬ blockMark <:+: content := by
  rw [ofText?] at made
  split at made
  next =>
    rw [ofBlock?, Option.map_eq_some_iff] at made
    rcases made with ⟨_, _, same⟩
    cases same
  next missing => exact cutAtFirst?_eq_none_iff.mp missing

theorem eq_lineMarkers_of_routes {path : Path} {marks : Table}
    (made : ofText? content = some (.routes path marks)) : marks = lineMarkers (lines content) := by
  rw [ofText?_of_noBlock (noBlock_of_routes made), ofComments?, Option.map_eq_some_iff] at made
  rcases made with ⟨_, _, same⟩
  cases same
  rfl

end ReloadReport.Provenance
