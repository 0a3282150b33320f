import ReloadReport.Proofs.Provenance.Lookup
import ReloadReport.Proofs.Provenance.Marker
import ReloadReport.Provenance

/-!
# Line marks

The comments of the routes compiler that number the author's lines. For a line of the generated
file the nearest one at or above it counts. A carriage return that line ends take away never
matters to a comment.
-/

namespace ReloadReport.Provenance

open Text

def MarkedAt (lines : List (List Char)) (index : Nat) (number : UInt32) : Prop :=
  ∃ comment, lines[index]? = some comment ∧ MarksLine comment number

/-- The number of the last marked line up to a place, which counts the lines from one. -/
inductive NearestMark (lines : List (List Char)) (place : UInt32) : Option UInt32 → Prop
  | mark {index : Nat} {number : UInt32} (marked : MarkedAt lines index number)
      (above : index < place.toNat)
      (nearest : ∀ other, index < other → other < place.toNat →
        ∀ number, ¬ MarkedAt lines other number) :
      NearestMark lines place (some number)
  | nothing (unmarked : ∀ index < place.toNat, ∀ number, ¬ MarkedAt lines index number) :
      NearestMark lines place none

section nearestMark

variable {lines other : List (List Char)} {place later : UInt32} {found : Option UInt32}

theorem MarkedAt.unique {index : Nat} {number otherNumber : UInt32}
    (marked : MarkedAt lines index number) (otherMarked : MarkedAt lines index otherNumber) :
    number = otherNumber := by
  rcases marked with ⟨comment, stands, marks⟩
  rcases otherMarked with ⟨otherComment, otherStands, otherMarks⟩
  cases stands.symm.trans otherStands
  have read := lineComment?_eq_some_iff.mpr marks
  exact Option.some.inj (read.symm.trans (lineComment?_eq_some_iff.mpr otherMarks))

theorem NearestMark.unique {otherFound : Option UInt32} (nearest : NearestMark lines place found)
    (otherNearest : NearestMark lines place otherFound) : found = otherFound := by
  cases nearest with
  | @mark index number marked above nothingBelow =>
      cases otherNearest with
      | @mark otherIndex otherNumber otherMarked otherAbove nothingBelowOther =>
          rcases Nat.lt_trichotomy index otherIndex with below | rfl | beyond
          · exact absurd otherMarked (nothingBelow otherIndex below otherAbove otherNumber)
          · rw [marked.unique otherMarked]
          · exact absurd marked (nothingBelowOther index beyond above number)
      | nothing unmarked => exact absurd marked (unmarked index above number)
  | nothing unmarked =>
      cases otherNearest with
      | mark marked above _ => exact absurd marked (unmarked _ above _)
      | nothing _ => rfl

/-- Marks that move apart are met from a place that moves with them. -/
theorem NearestMark.moved (shift : Nat → Nat)
    (ascends : ∀ first second, shift first < shift second ↔ first < second)
    (marked : ∀ index number, MarkedAt other index number ↔
      ∃ before, index = shift before ∧ MarkedAt lines before number)
    (reached : ∀ index, shift index < later.toNat ↔ index < place.toNat)
    (nearest : NearestMark lines place found) : NearestMark other later found := by
  cases nearest with
  | mark stands above nothingBelow =>
      refine .mark ((marked _ _).mpr ⟨_, rfl, stands⟩) ((reached _).mpr above) ?_
      intro index behind within number otherMarked
      rcases (marked index number).mp otherMarked with ⟨before, rfl, otherStands⟩
      exact nothingBelow before ((ascends _ _).mp behind) ((reached _).mp within) number otherStands
  | nothing unmarked =>
      refine .nothing fun index within number otherMarked => ?_
      rcases (marked index number).mp otherMarked with ⟨before, rfl, otherStands⟩
      exact unmarked before ((reached _).mp within) number otherStands

theorem NearestMark.congr (marked : ∀ index number,
    MarkedAt other index number ↔ MarkedAt lines index number)
    (nearest : NearestMark lines place found) : NearestMark other place found :=
  nearest.moved id (fun _ _ => Iff.rfl) (by simpa using marked) (fun _ => Iff.rfl)

end nearestMark

theorem not_marksLine_nil (number : UInt32) : ¬ MarksLine [] number := by
  intro marks
  rcases marks with ⟨value, _, _, _, ⟨front, gaps, parts, _⟩, _⟩
  simp at parts

theorem marksLine_append_return {line : List Char} {number : UInt32} :
    MarksLine (line ++ ['\r']) number ↔ MarksLine line number := by
  constructor
  · intro marks
    rcases marks with ⟨_, front, digits, back, ⟨before, gaps, parts, skipped⟩, rfl, frontBlank,
      backBlank, spells⟩
    rcases List.eq_nil_or_concat back with rfl | ⟨inner, last, rfl⟩
    · -- Without anything behind them the digits would end in a carriage return.
      rcases List.eq_nil_or_concat digits with rfl | ⟨_, last, rfl⟩
      · exact absurd rfl spells.nonempty
      · simp only [← List.append_assoc, List.append_nil, List.concat_eq_append] at parts
        have sameLast : '\r' = last := List.singleton_inj.mp (List.append_inj_right' parts rfl)
        have digit := spells.ascii last (by simp)
        exact absurd digit (sameLast ▸ by decide)
    · simp only [← List.append_assoc, List.concat_eq_append] at parts
      refine ⟨front ++ digits ++ inner, front, digits, inner, ⟨before, gaps, ?_, skipped⟩, rfl,
        frontBlank, fun c member => backBlank c (by simp [member]), spells⟩
      rw [List.append_inj_left' parts rfl]
      simp
  · intro marks
    rcases marks with ⟨_, front, digits, back, ⟨before, gaps, rfl, skipped⟩, rfl, frontBlank,
      backBlank, spells⟩
    refine ⟨front ++ digits ++ (back ++ ['\r']), front, digits, back ++ ['\r'],
      ⟨before, gaps, by simp, skipped⟩, rfl, frontBlank, fun c member => ?_, spells⟩
    rcases List.mem_append.mp member with inside | ending
    · exact backBlank c inside
    · rw [List.mem_singleton.mp ending]
      rfl

theorem marksLine_dropReturn {line : List Char} {number : UInt32} :
    MarksLine (dropReturn line) number ↔ MarksLine line number := by
  by_cases ends : line.getLast? = some '\r'
  · rcases List.getLast?_eq_some_iff.mp ends with ⟨front, rfl⟩
    rw [dropReturn_append_return, marksLine_append_return]
  · rw [dropReturn, if_neg ends]

theorem markedAt_linesOfPieces {pieces : List (List Char)} {index : Nat} {number : UInt32} :
    MarkedAt (linesOfPieces pieces) index number ↔ MarkedAt pieces index number := by
  induction pieces generalizing index with
  | nil => rfl
  | cons piece pieces induction =>
      cases pieces with
      | nil =>
          by_cases empty : piece = []
          · cases index <;> simp [MarkedAt, linesOfPieces, empty, not_marksLine_nil]
          · simp [MarkedAt, linesOfPieces, empty]
      | cons next pieces =>
          cases index with
          | zero => simp [MarkedAt, linesOfPieces, marksLine_dropReturn]
          | succ index => simpa [MarkedAt, linesOfPieces] using induction

section lineMarkers

variable {lines : List (List Char)}

theorem mem_lineMarkers_iff {generated source : UInt32} :
    (generated, source) ∈ lineMarkers lines ↔
      ∃ index, generated.toNat = index + 1 ∧ MarkedAt lines index source := by
  simp only [lineMarkers, List.mem_filterMap, Prod.exists, Option.bind_eq_bind,
    Option.bind_eq_some_iff, word32?_eq_some_iff, lineComment?_eq_some_iff,
    List.mk_mem_zipIdx_iff_le_and_getElem?_sub, Option.some.injEq, Prod.mk.injEq]
  constructor
  · intro entered
    rcases entered with ⟨comment, _, ⟨counted, stands⟩, _, rfl, _, marks, rfl, rfl⟩
    exact ⟨_, (Nat.sub_add_cancel counted).symm, comment, stands, marks⟩
  · intro marked
    rcases marked with ⟨index, value, comment, stands, marks⟩
    refine ⟨comment, index + 1, ⟨Nat.le_add_left 1 index, ?_⟩, generated, value, source, marks, rfl,
      rfl⟩
    rwa [Nat.add_sub_cancel]

theorem pairwise_lt_lineMarkers (lines : List (List Char)) :
    (lineMarkers lines).Pairwise fun left right => left.1 < right.1 := by
  have counted : (lines.zipIdx 1).Pairwise fun left right => left.2 < right.2 := by
    rw [← List.pairwise_map, List.zipIdx_map_snd]
    exact List.pairwise_lt_range'
  rw [lineMarkers, List.pairwise_filterMap]
  apply counted.imp
  intro left right below entry made other otherMade
  rcases entry with ⟨generated, source⟩
  rcases other with ⟨otherGenerated, otherSource⟩
  simp only [Option.bind_eq_bind, Option.bind_eq_some_iff, word32?_eq_some_iff, Option.some.injEq,
    Prod.mk.injEq] at made otherMade
  rcases made with ⟨_, value, _, _, rfl, rfl⟩
  rcases otherMade with ⟨_, otherValue, _, _, rfl, rfl⟩
  apply UInt32.lt_iff_toNat_lt.mpr
  rw [value, otherValue]
  exact below

theorem pairwise_lineMarkers (lines : List (List Char)) :
    (lineMarkers lines).Pairwise fun left right => left.1 ≤ right.1 :=
  (pairwise_lt_lineMarkers lines).imp UInt32.le_of_lt

theorem exists_mem_lineMarkers {number : UInt32} {index : Nat} (fits : index + 1 < UInt32.size)
    (marked : MarkedAt lines index number) :
    ∃ generated, (generated, number) ∈ lineMarkers lines ∧ generated.toNat = index + 1 := by
  have value : (UInt32.ofNat (index + 1)).toNat = index + 1 := UInt32.toNat_ofNat_of_lt' fits
  exact ⟨UInt32.ofNat (index + 1), mem_lineMarkers_iff.mpr ⟨index, value, marked⟩, value⟩

theorem nearestMark_at? (lines : List (List Char)) (place : UInt32) :
    NearestMark lines place ((lineMarkers lines).at? place) := by
  -- The table leaves out no line up to the place, since the place itself fits 32 bits.
  have fits : ∀ index < place.toNat, index + 1 < UInt32.size := fun _ above =>
    Nat.lt_of_le_of_lt above place.toNat_lt_size
  have leads := Table.leads_at?_of_pairwise (pairwise_lineMarkers lines) place
  generalize (lineMarkers lines).at? place = found at leads
  cases leads with
  | nothing beyond =>
      apply NearestMark.nothing
      intro index above number marked
      rcases exists_mem_lineMarkers (fits index above) marked with ⟨generated, member, value⟩
      have below : place.toNat < generated.toNat := beyond (generated, number) member
      omega
  | @entry front generated source back parts reached earlier later =>
      have member : (generated, source) ∈ lineMarkers lines := by simp [parts]
      rcases mem_lineMarkers_iff.mp member with ⟨index, value, marked⟩
      have within : generated.toNat ≤ place.toNat := reached
      apply NearestMark.mark marked (by omega)
      intro other behind above number otherMarked
      rcases exists_mem_lineMarkers (fits other above) otherMarked with
        ⟨otherGenerated, otherMember, otherValue⟩
      have otherWithin : otherGenerated.toNat ≤ place.toNat := by omega
      have bound : otherGenerated.toNat ≤ generated.toNat :=
        Table.le_of_parts parts earlier later _ otherMember otherWithin
      omega

end lineMarkers

/-- Every piece of a text between line feeds counts as a line for the marks. -/
theorem nearestMark_splitOn (content : List Char) (place : UInt32) :
    NearestMark (content.splitOn '\n') place ((lineMarkers (lines content)).at? place) :=
  (nearestMark_at? (lines content) place).congr fun _ _ => markedAt_linesOfPieces.symm

end ReloadReport.Provenance
