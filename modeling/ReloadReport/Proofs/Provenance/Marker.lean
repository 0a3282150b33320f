import ReloadReport.Proofs.Provenance.Entry
import ReloadReport.Provenance.Marker

/-!
# Written markers

How the lines of the generators are written: labels in front of values, names of files with gaps
around them, tables, and comments. Reading a line gives what was written.
-/

namespace ReloadReport.Provenance

open Text

def Labels (label line value : List Char) : Prop :=
  ∃ gaps, line = gaps ++ label ++ value ∧ ∀ c ∈ gaps, isGap c

/-- The value of a comment with a label, where only characters of a class stand around the
slashes. -/
def Comments (skip : Char → Bool) (label line value : List Char) : Prop :=
  ∃ front gaps, line = front ++ ['/', '/'] ++ gaps ++ label ++ value ∧ (∀ c ∈ front, skip c) ∧
    ∀ c ∈ gaps, skip c

/-- A value that names a file, which is not blank. -/
structure NamesFile (value name : List Char) : Prop where
  parts : ∃ gaps blanks, value = gaps ++ name ++ blanks ∧ (∀ c ∈ gaps, isGap c) ∧
    ∀ c ∈ blanks, isBlank c
  nonempty : name ≠ []
  headSolid : ∀ c ∈ name.head?, isGap c = false
  lastSolid : ∀ c ∈ name.getLast?, isBlank c = false

/-- A value that is a table, which one carriage return may end. -/
def HoldsTable (value : List Char) (table : Table) : Prop :=
  ∃ text ending, value = text ++ ending ∧ (ending = [] ∨ ending = ['\r']) ∧ '\r' ∉ text ∧
    Table.WritesTable text table

/-- A comment with the number of the author's line, in ASCII digits. -/
def MarksLine (line : List Char) (number : UInt32) : Prop :=
  ∃ value front digits back, Comments isBlank "@LINE:".toList line value ∧
    value = front ++ digits ++ back ∧ (∀ c ∈ front, isBlank c) ∧ (∀ c ∈ back, isBlank c) ∧
    Spells digits number.toNat

section read

variable {label line value name : List Char}

theorem stops_at_label {skip : Char → Bool} {mark : Char} (starts : label.head? = some mark)
    (solid : skip mark = false) : ∀ c ∈ (label ++ value).head?, skip c = false := by
  simpa [List.head?_append, starts] using solid

theorem labelled?_eq_some_iff {mark : Char} (starts : label.head? = some mark)
    (solid : isGap mark = false) :
    labelled? label line = some value ↔ Labels label line value := by
  rw [labelled?, after?_eq_some_iff]
  constructor
  · intro parts
    refine ⟨line.takeWhile isGap, ?_, fun c member => mem_of_mem_takeWhile member⟩
    rw [List.append_assoc, ← parts, List.takeWhile_append_dropWhile]
  · intro labelled
    rcases labelled with ⟨gaps, rfl, inside⟩
    rw [List.append_assoc, dropWhile_run inside (stops_at_label starts solid)]

theorem labelled?_append_return (closes : label.getLast? = some ':') (line : List Char) :
    labelled? label (line ++ ['\r']) = (labelled? label line).map (· ++ ['\r']) := by
  have other : label.getLast? ≠ some '\r' := by simp [closes]
  rw [labelled?, dropWhile_append_singleton rfl, after?_append_singleton other, labelled?]

theorem comment?_append_return {skip : Char → Bool} (solid : skip '\r' = false)
    (line : List Char) :
    comment? skip (line ++ ['\r']) = (comment? skip line).map (· ++ ['\r']) := by
  have noSlash : ['/', '/'].getLast? ≠ some '\r' := by decide
  rw [comment?, dropWhile_append_singleton solid, after?_append_singleton noSlash, comment?]
  cases after? ['/', '/'] (line.dropWhile skip) with
  | none => rfl
  | some text => exact congrArg some (dropWhile_append_singleton solid text)

theorem comment?_eq_some_iff {skip : Char → Bool} {rest : List Char} (slash : skip '/' = false) :
    comment? skip line = some rest ↔ ∃ front gaps, line = front ++ ['/', '/'] ++ gaps ++ rest ∧
      (∀ c ∈ front, skip c) ∧ (∀ c ∈ gaps, skip c) ∧ ∀ c ∈ rest.head?, skip c = false := by
  simp only [comment?, Option.map_eq_some_iff, after?_eq_some_iff]
  constructor
  · intro commented
    rcases commented with ⟨text, parts, rfl⟩
    refine ⟨line.takeWhile skip, text.takeWhile skip, ?_, fun c => mem_of_mem_takeWhile,
      fun c => mem_of_mem_takeWhile, head?_dropWhile_false⟩
    rw [List.append_assoc, List.append_assoc, List.takeWhile_append_dropWhile, ← parts,
      List.takeWhile_append_dropWhile]
  · intro commented
    rcases commented with ⟨front, gaps, rfl, frontInside, gapsInside, stops⟩
    refine ⟨gaps ++ rest, ?_, dropWhile_run gapsInside stops⟩
    rw [List.append_assoc, List.append_assoc, dropWhile_run frontInside]
    simpa using slash

theorem comment?_label_eq_some_iff {skip : Char → Bool} (slash : skip '/' = false) {mark : Char}
    (starts : label.head? = some mark) (solid : skip mark = false) :
    (comment? skip line).bind (after? label) = some value ↔ Comments skip label line value := by
  simp only [Option.bind_eq_some_iff, comment?_eq_some_iff slash, after?_eq_some_iff]
  constructor
  · intro commented
    rcases commented with ⟨_, ⟨front, gaps, rfl, frontInside, gapsInside, _⟩, rfl⟩
    exact ⟨front, gaps, by simp, frontInside, gapsInside⟩
  · intro commented
    rcases commented with ⟨front, gaps, rfl, frontInside, gapsInside⟩
    exact ⟨label ++ value, ⟨front, gaps, by simp, frontInside, gapsInside,
      stops_at_label starts solid⟩, rfl⟩

theorem sourceName?_of_namesFile (names : NamesFile value name) :
    sourceName? value = some name := by
  rcases names.parts with ⟨gaps, blanks, rfl, gapsInside, blanksInside⟩
  have stops : ∀ c ∈ (name ++ blanks).head?, isGap c = false := by
    rw [List.head?_append_of_ne_nil _ names.nonempty]
    exact names.headSolid
  have trimmed : trimEnd (name ++ blanks) = name := dropEndWhile_append blanksInside names.lastSolid
  rw [sourceName?, List.append_assoc, dropWhile_run gapsInside stops, trimmed]
  cases named : name with
  | nil => exact absurd named names.nonempty
  | cons c rest => rfl

theorem NamesFile.append_blanks (names : NamesFile value name) {ending : List Char}
    (endingBlank : ∀ c ∈ ending, isBlank c) : NamesFile (value ++ ending) name := by
  rcases names.parts with ⟨gaps, blanks, rfl, gapsInside, blanksInside⟩
  refine ⟨⟨gaps, blanks ++ ending, by simp, gapsInside, fun c member => ?_⟩, names.nonempty,
    names.headSolid, names.lastSolid⟩
  exact (List.mem_append.mp member).elim (blanksInside c) (endingBlank c)

theorem dropReturn_append_return (line : List Char) : dropReturn (line ++ ['\r']) = line := by
  simp [dropReturn]

theorem dropReturn_of_notMem (noReturn : '\r' ∉ line) : dropReturn line = line := by
  rw [dropReturn, if_neg]
  exact fun last => noReturn (List.mem_of_getLast? last)

theorem tableText?_eq_some_iff {text : List Char} :
    tableText? value = some text ↔
      ∃ ending, value = text ++ ending ∧ (ending = [] ∨ ending = ['\r']) ∧ '\r' ∉ text := by
  rw [tableText?]
  constructor
  · intro read
    rcases Option.ite_none_left_eq_some.mp read with ⟨noReturn, same⟩
    cases same
    by_cases ends : value.getLast? = some '\r'
    · rcases List.getLast?_eq_some_iff.mp ends with ⟨front, rfl⟩
      rw [dropReturn_append_return] at noReturn ⊢
      exact ⟨['\r'], rfl, .inr rfl, noReturn⟩
    · have kept : dropReturn value = value := if_neg ends
      rw [kept] at noReturn ⊢
      exact ⟨[], (List.append_nil value).symm, .inl rfl, noReturn⟩
  · rintro ⟨ending, rfl, ends, noReturn⟩
    have dropped : dropReturn (text ++ ending) = text := by
      rcases ends with rfl | rfl
      · rw [List.append_nil, dropReturn_of_notMem noReturn]
      · exact dropReturn_append_return text
    rw [dropped]
    exact if_neg noReturn

theorem tableText?_of_holdsTable {table : Table} (holds : HoldsTable value table) :
    ∃ text, tableText? value = some text ∧ Table.ofText text = Table.sorted table := by
  rcases holds with ⟨text, ending, parts, ends, noReturn, writes⟩
  exact ⟨text, tableText?_eq_some_iff.mpr ⟨ending, parts, ends, noReturn⟩,
    by rw [Table.ofText, Table.entries_of_writesTable writes]⟩

theorem lineComment?_eq_some_iff {number : UInt32} :
    lineComment? line = some number ↔ MarksLine line number := by
  have comments : ∀ value, (comment? isBlank line).bind (after? "@LINE:".toList) = some value ↔
      Comments isBlank "@LINE:".toList line value := fun _ =>
    comment?_label_eq_some_iff rfl rfl rfl
  rw [lineComment?, Option.bind_eq_bind, Option.bind_eq_some_iff]
  simp only [comments, Option.ite_none_right_eq_some]
  constructor
  · intro read
    rcases read with ⟨value, commented, backBlank, number⟩
    have decimal : ∀ c ∈ (value.dropWhile isBlank).takeWhile isDecimalDigit, isDecimalDigit c :=
      fun c member => mem_of_mem_takeWhile member
    refine ⟨value, value.takeWhile isBlank, (value.dropWhile isBlank).takeWhile isDecimalDigit,
      (value.dropWhile isBlank).dropWhile isDecimalDigit, commented, ?_,
      fun c member => mem_of_mem_takeWhile member, List.all_eq_true.mp backBlank,
      (numeral32?_of_decimalDigits decimal).mp number⟩
    rw [List.append_assoc, List.takeWhile_append_dropWhile, List.takeWhile_append_dropWhile]
  · intro marks
    rcases marks with ⟨value, front, digits, back, commented, rfl, frontBlank, backBlank, spells⟩
    have decimal : ∀ c ∈ digits, isDecimalDigit c := fun c member =>
      isDecimalDigit_of_isDigit (spells.ascii c member)
    have digitsStop : ∀ c ∈ back.head?, isDecimalDigit c = false := fun c head =>
      not_isDecimalDigit_of_isBlank (backBlank c (List.mem_of_mem_head? head))
    have blanksStop : ∀ c ∈ (digits ++ back).head?, isBlank c = false := by
      rw [List.head?_append_of_ne_nil _ spells.nonempty]
      exact fun c head => not_isBlank_of_isDigit (spells.ascii c (List.mem_of_mem_head? head))
    refine ⟨_, commented, ?_⟩
    rw [List.append_assoc, dropWhile_run frontBlank blanksStop, takeWhile_run decimal digitsStop,
      dropWhile_run decimal digitsStop]
    exact ⟨List.all_eq_true.mpr backBlank, (numeral32?_of_decimalDigits decimal).mpr spells⟩

end read

end ReloadReport.Provenance
