import ReloadReport.Proofs.Provenance.LineMarks
import ReloadReport.Proofs.Provenance.SourceNames

/-!
# Files of the routes compiler

A content without a block of the template compiler is read by its comments. The table of such a
file has its marked lines and no others, so that unmarked lines that are put in move the marks
below them and nothing else.
-/

namespace ReloadReport.Provenance

open Text

/-- The lines of a content between its line feeds, each without one carriage return at its end. -/
def dividedLines (content : String) : List (List Char) :=
  (content.toList.splitOn '\n').map dropReturn

/-- A table has the numbers of the marked lines, which count from one, in ascending order. -/
structure ListsMarks (lines : List (List Char)) (marks : Table) : Prop where
  ascending : marks.Pairwise fun left right => left.1 < right.1
  sound : ∀ entry ∈ marks, ∃ index, entry.1.toNat = index + 1 ∧ MarkedAt lines index entry.2
  complete : ∀ index number, MarkedAt lines index number →
    ∃ entry ∈ marks, entry.1.toNat = index + 1 ∧ entry.2 = number

structure Unmarked (line : List Char) : Prop where
  oneLine : '\n' ∉ line
  noBlock : ¬ blockMark <:+: line
  noMark : ∀ number, ¬ MarksLine line number

/-- The place of a line, and a place from which the same marks are met when a number of unmarked
lines is put in below the upper ones. -/
inductive Keeps (upper added : Nat) : Nat → Nat → Prop
  | above (within : place ≤ upper) : Keeps upper added place place
  | between (beyond : upper ≤ later) (within : later ≤ upper + added) :
      Keeps upper added upper later
  | below (beyond : upper ≤ place) : Keeps upper added place (place + added)

section insertion

variable {upper added lower : List (List Char)}

def shifted (upper added index : Nat) : Nat :=
  if index < upper then index else index + added

theorem shifted_lt_shifted_iff {upper added first second : Nat} :
    shifted upper added first < shifted upper added second ↔ first < second := by
  unfold shifted
  split <;> split <;> omega

theorem Keeps.shifted_lt_iff {upper added place later : Nat} (keeps : Keeps upper added place later)
    (index : Nat) : shifted upper added index < later ↔ index < place := by
  unfold shifted
  cases keeps <;> split <;> omega

theorem getElem?_shifted (index : Nat) :
    (upper ++ (added ++ lower))[shifted upper.length added.length index]? =
      (upper ++ lower)[index]? := by
  rw [shifted]
  split
  next above => rw [List.getElem?_append_left above, List.getElem?_append_left above]
  next beyond =>
    have later : index + added.length - upper.length - added.length = index - upper.length := by
      omega
    rw [List.getElem?_append_right (by omega), List.getElem?_append_right (by omega),
      List.getElem?_append_right (by omega), later]

theorem exists_shifted {upper added index : Nat} (outside : index < upper ∨ upper + added ≤ index) :
    ∃ before, index = shifted upper added before := by
  rcases outside with above | below
  · exact ⟨index, (if_pos above).symm⟩
  · refine ⟨index - added, ?_⟩
    rw [shifted, if_neg (by omega)]
    omega

theorem markedAt_insert (noMark : ∀ line ∈ added, ∀ number, ¬ MarksLine line number) (index : Nat)
    (number : UInt32) :
    MarkedAt (upper ++ (added ++ lower)) index number ↔
      ∃ before, index = shifted upper.length added.length before ∧
        MarkedAt (upper ++ lower) before number := by
  constructor
  · rintro ⟨comment, stands, marks⟩
    by_cases outside : index < upper.length ∨ upper.length + added.length ≤ index
    · rcases exists_shifted outside with ⟨before, rfl⟩
      exact ⟨before, rfl, comment, by rwa [getElem?_shifted] at stands, marks⟩
    · rw [not_or, Nat.not_lt, Nat.not_le] at outside
      rw [List.getElem?_append_right outside.1, List.getElem?_append_left (by omega)] at stands
      exact absurd marks (noMark comment (List.mem_of_getElem? stands) number)
  · rintro ⟨before, rfl, comment, stands, marks⟩
    exact ⟨comment, by rwa [getElem?_shifted], marks⟩

theorem nearestMark_insert {place later : UInt32} {found : Option UInt32}
    (noMark : ∀ line ∈ added, ∀ number, ¬ MarksLine line number)
    (keeps : Keeps upper.length added.length place.toNat later.toNat)
    (nearest : NearestMark (upper ++ lower) place found) :
    NearestMark (upper ++ (added ++ lower)) later found :=
  nearest.moved (shifted upper.length added.length) (fun _ _ => shifted_lt_shifted_iff)
    (markedAt_insert noMark) keeps.shifted_lt_iff

end insertion

section comments

variable {label line value : List Char} {skip : Char → Bool}

theorem exists_dropReturn_append (line : List Char) :
    ∃ ending, dropReturn line ++ ending = line := by
  rw [dropReturn]
  split
  next => exact List.dropLast_prefix line
  next => exact ⟨[], line.append_nil⟩

theorem Comments.append (comments : Comments skip label line value) (ending : List Char) :
    Comments skip label (line ++ ending) (value ++ ending) := by
  rcases comments with ⟨front, gaps, rfl, frontSkipped, gapsSkipped⟩
  exact ⟨front, gaps, by simp, frontSkipped, gapsSkipped⟩

theorem Comments.dropReturn {mark : Char} (ends : label.getLast? = some mark) (solid : mark ≠ '\r')
    (comments : Comments skip label line value) :
    ∃ value, Comments skip label (dropReturn line) value := by
  by_cases returns : line.getLast? = some '\r'
  · rcases comments with ⟨front, gaps, rfl, frontSkipped, gapsSkipped⟩
    rcases List.eq_nil_or_concat value with rfl | ⟨inner, last, rfl⟩
    · rw [List.append_nil, List.getLast?_append, ends] at returns
      exact absurd (Option.some.inj returns) solid
    · rw [List.concat_eq_append, ← List.append_assoc, List.getLast?_concat] at returns
      rw [Option.some.inj returns, List.concat_eq_append, ← List.append_assoc,
        dropReturn_append_return]
      exact ⟨inner, front, gaps, rfl, frontSkipped, gapsSkipped⟩
  · rw [Text.dropReturn, if_neg returns]
    exact ⟨value, comments⟩

end comments

section noBlock

variable {content : String} {unit : Provenance}

theorem ofContent?_isSome_iff (noBlock : ¬ blockMark <:+: content.toList) :
    (ofContent? content).isSome ↔ ∃ line ∈ content.toList.splitOn '\n', ∃ value,
      Comments isGap "@SOURCE:".toList line value ∧ value ≠ [] := by
  have made : ofContent? content = ofComments? content.toList := ofText?_of_noBlock noBlock
  rw [made, ofComments?, Option.isSome_map, ← findSome?_sourceName?_isSome_iff comments_source_iff]
  rfl

theorem exists_eq_routes (noBlock : ¬ blockMark <:+: content.toList)
    (made : ofContent? content = some unit) :
    ∃ path, unit = .routes path (lineMarkers (lines content.toList)) := by
  have comments : ofComments? content.toList = some unit :=
    (ofText?_of_noBlock noBlock).symm.trans made
  rw [ofComments?, Option.map_eq_some_iff] at comments
  rcases comments with ⟨name, _, rfl⟩
  exact ⟨⟨String.ofList name⟩, rfl⟩

theorem markedAt_dividedLines {index : Nat} {number : UInt32} :
    MarkedAt (dividedLines content) index number ↔
      MarkedAt (content.toList.splitOn '\n') index number := by
  simp [MarkedAt, dividedLines, marksLine_dropReturn]

theorem listsMarks_lineMarkers (fewer : (dividedLines content).length < UInt32.size) :
    ListsMarks (dividedLines content) (lineMarkers (lines content.toList)) := by
  have markedIff : ∀ {index number}, MarkedAt (lines content.toList) index number ↔
      MarkedAt (dividedLines content) index number :=
    markedAt_linesOfPieces.trans markedAt_dividedLines.symm
  refine ⟨pairwise_lt_lineMarkers _, fun entry member => ?_, fun index number marked => ?_⟩
  · rcases mem_lineMarkers_iff.mp member with ⟨index, value, marked⟩
    exact ⟨index, value, markedIff.mp marked⟩
  · have inside : index < (dividedLines content).length := by
      rcases marked with ⟨comment, stands, _⟩
      exact (List.getElem?_eq_some_iff.mp stands).1
    rcases exists_mem_lineMarkers (Nat.lt_of_le_of_lt inside fewer) (markedIff.mpr marked) with
      ⟨generated, member, value⟩
    exact ⟨(generated, number), member, value, rfl⟩

theorem nearestMark_sourceLine? (noBlock : ¬ blockMark <:+: content.toList)
    (made : ofContent? content = some unit) (place : UInt32) :
    NearestMark (content.toList.splitOn '\n') place (unit.sourceLine? place) := by
  rcases exists_eq_routes noBlock made with ⟨path, rfl⟩
  exact nearestMark_splitOn content.toList place

def withLines (upper : List Char) (added : List (List Char)) (lower : List Char) : String :=
  String.ofList (upper ++ '\n' :: (added.flatMap (· ++ ['\n']) ++ lower))

variable {upper lower : List Char} {added : List (List Char)}

theorem splitOn_withLines (unmarked : ∀ line ∈ added, Unmarked line) :
    (withLines upper added lower).toList.splitOn '\n' =
      upper.splitOn '\n' ++ (added ++ lower.splitOn '\n') := by
  rw [withLines, String.toList_ofList, splitOn_append_cons,
    splitOn_flatMap_append fun line member => (unmarked line member).oneLine]

theorem noBlock_withLines (unmarked : ∀ line ∈ added, Unmarked line) :
    blockMark <:+: (withLines upper added lower).toList ↔
      blockMark <:+: (withLines upper [] lower).toList := by
  have oneLine : '\n' ∉ blockMark := by decide
  have unseen : ¬ ∃ line ∈ added, blockMark <:+: line := fun ⟨line, member, seen⟩ =>
    (unmarked line member).noBlock seen
  simp [withLines, infix_append_cons_iff oneLine, infix_flatMap_append_iff oneLine, unseen]

/-- Unmarked lines that are put in keep the author's lines of all others. -/
theorem exists_ofContent?_withLines (noBlock : ¬ blockMark <:+: (withLines upper [] lower).toList)
    (unmarked : ∀ line ∈ added, Unmarked line)
    (made : ofContent? (withLines upper [] lower) = some unit) :
    ∃ longer, ofContent? (withLines upper added lower) = some longer ∧ ∀ place later : UInt32,
      Keeps (upper.splitOn '\n').length added.length place.toNat later.toNat →
        longer.sourceLine? later = unit.sourceLine? place := by
  have longerNoBlock := mt (noBlock_withLines unmarked).mp noBlock
  have split : (withLines upper [] lower).toList.splitOn '\n' =
      upper.splitOn '\n' ++ lower.splitOn '\n' :=
    splitOn_withLines (by simp)
  have named := (ofContent?_isSome_iff noBlock).mp (Option.isSome_iff_exists.mpr ⟨unit, made⟩)
  -- One of the new lines may name another file, but the content names one in any case.
  have told : (ofContent? (withLines upper added lower)).isSome := by
    rw [ofContent?_isSome_iff longerNoBlock, splitOn_withLines unmarked]
    rw [split] at named
    rcases named with ⟨line, member, value, comments⟩
    refine ⟨line, ?_, value, comments⟩
    rw [List.mem_append] at member
    exact List.mem_append.mpr (member.imp_right (List.mem_append_right added))
  rcases Option.isSome_iff_exists.mp told with ⟨longer, longerMade⟩
  refine ⟨longer, longerMade, fun place later keeps => ?_⟩
  have nearest := nearestMark_sourceLine? noBlock made place
  have longerNearest := nearestMark_sourceLine? longerNoBlock longerMade later
  rw [split] at nearest
  rw [splitOn_withLines unmarked] at longerNearest
  have noMark : ∀ line ∈ added, ∀ number, ¬ MarksLine line number := fun line member =>
    (unmarked line member).noMark
  exact longerNearest.unique (nearestMark_insert noMark keeps nearest)

/-- A content without a block is read where a source comment has a value that is not blank, and is
not read where there is no such comment. The unit that is read has the marked lines for its table:
a line is led back by the nearest one at or above it, and an offset is never led back. Lines put in
between others keep the author's lines of all of them, as long as they are not marked themselves. -/
theorem ofContent?_of_noBlock (noBlock : ¬ blockMark <:+: content.toList) :
    ((∃ line ∈ dividedLines content, ∃ value, Comments isGap "@SOURCE:".toList line value ∧
        ∃ c ∈ value, isBlank c = false) →
      ∃ path marks, ofContent? content = some (.routes path marks)) ∧
    ((∀ line ∈ dividedLines content, ∀ value, ¬ Comments isGap "@SOURCE:".toList line value) →
      ofContent? content = none) ∧
    (∀ unit, ofContent? content = some unit → (∃ path marks, unit = .routes path marks ∧
        ((dividedLines content).length < UInt32.size → ListsMarks (dividedLines content) marks)) ∧
      (∀ place, NearestMark (dividedLines content) place (unit.sourceLine? place)) ∧
      ∀ offset, unit.sourceOffset? offset = none) ∧
    ∀ upper added lower unit, content = withLines upper [] lower →
      (∀ line ∈ added, Unmarked line) → ofContent? content = some unit →
      ∃ longer, ofContent? (withLines upper added lower) = some longer ∧ ∀ place later : UInt32,
        Keeps (upper.splitOn '\n').length added.length place.toNat later.toNat →
          longer.sourceLine? later = unit.sourceLine? place := by
  refine ⟨?_, ?_, fun unit made => ?_, ?_⟩
  · rintro ⟨_, inside, value, comments, c, member, _⟩
    rcases List.mem_map.mp inside with ⟨line, stands, rfl⟩
    rcases exists_dropReturn_append line with ⟨ending, whole⟩
    have told : (ofContent? content).isSome := by
      refine (ofContent?_isSome_iff noBlock).mpr ⟨line, stands, value ++ ending, ?_, ?_⟩
      · rw [← whole]
        exact comments.append ending
      · exact List.ne_nil_of_mem (List.mem_append_left ending member)
    rcases Option.isSome_iff_exists.mp told with ⟨unit, made⟩
    rcases exists_eq_routes noBlock made with ⟨path, rfl⟩
    exact ⟨path, _, made⟩
  · intro silent
    rw [← Option.not_isSome_iff_eq_none, ofContent?_isSome_iff noBlock]
    rintro ⟨line, inside, value, comments, _⟩
    rcases comments.dropReturn rfl (by decide) with ⟨shorter, divided⟩
    exact silent _ (List.mem_map_of_mem inside) shorter divided
  · have nearest : ∀ place, NearestMark (dividedLines content) place (unit.sourceLine? place) :=
      fun place =>
        (nearestMark_sourceLine? noBlock made place).congr fun _ _ => markedAt_dividedLines
    rcases exists_eq_routes noBlock made with ⟨path, rfl⟩
    exact ⟨⟨path, _, rfl, listsMarks_lineMarkers⟩, nearest, fun offset => rfl⟩
  · rintro upper added lower unit rfl unmarked made
    exact exists_ofContent?_withLines noBlock unmarked made

/-- A note below a line mark moves the line that has the mark. -/
theorem ofContent?_of_noBlock_note :
    (¬ blockMark <:+: "// @SOURCE:conf/routes\n// @LINE:6\r\na".toList) ∧
      ∃ longer, ofContent? "// @SOURCE:conf/routes\n// @LINE:6\r\n// note\r\na" = some longer ∧
        longer.sourceLine? 4 = some 6 := by
  have noBlock : ¬ blockMark <:+: "// @SOURCE:conf/routes\n// @LINE:6\r\na".toList :=
    cutAtFirst?_eq_none_iff.mp (by decide)
  have unmarked : ∀ line ∈ ["// note\r".toList], Unmarked line := by
    intro line member
    rw [List.mem_singleton.mp member]
    refine ⟨by decide, cutAtFirst?_eq_none_iff.mp (by decide), fun number marks => ?_⟩
    cases lineComment?_eq_some_iff.mpr marks
  have made : ofContent? "// @SOURCE:conf/routes\n// @LINE:6\r\na" =
      some (.routes ⟨"conf/routes"⟩ [(2, 6)]) := by
    decide
  rcases (ofContent?_of_noBlock noBlock).2.2.2 "// @SOURCE:conf/routes\n// @LINE:6\r".toList _
    "a".toList _ rfl unmarked made with ⟨longer, longerMade, kept⟩
  exact ⟨noBlock, longer, longerMade, kept 3 4 (.below (by decide))⟩

end noBlock

end ReloadReport.Provenance
