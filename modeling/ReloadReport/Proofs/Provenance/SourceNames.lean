import Mathlib.Data.List.Basic
import ReloadReport.Proofs.Provenance.Written
import ReloadReport.Proofs.Text.Pieces

/-!
# Names of author's files

The value that tells the author's file is the first one behind a source label that is not empty. A
value that is more than white space gives a name on one line that has no white space at its end. A
blank value is taken as well, and gives a name of one white space character.
-/

namespace ReloadReport.Provenance

open Text

/-- The first value of the source label that is not empty: in the block of the template compiler,
and in the comments where the content has no block. -/
inductive SourceValue (content : List Char) : List Char → Prop
  | template (opened : FirstAt blockMark content before block)
      (first : FirstWith (fun line value => Labels "SOURCE:".toList line value ∧ value ≠ [])
        (block.splitOn '\n').tail value) : SourceValue content value
  | routes (noBlock : ¬ blockMark <:+: content)
      (first : FirstWith (fun line value => Comments isGap "@SOURCE:".toList line value ∧
        value ≠ []) (content.splitOn '\n') value) : SourceValue content value

/-- A name that is not blank, without white space at its end. -/
structure SolidName (name : List Char) : Prop where
  solid : ∃ c ∈ name, isBlank c = false
  lastSolid : ∀ c ∈ name.getLast?, isBlank c = false

section sourceName?

variable {value name : List Char}

theorem NamesFile.solidName (names : NamesFile value name) : SolidName name where
  solid := by
    rcases List.eq_nil_or_concat name with rfl | ⟨front, last, rfl⟩
    · exact absurd rfl names.nonempty
    · exact ⟨last, by simp, names.lastSolid last (by simp)⟩
  lastSolid := names.lastSolid

theorem exists_namesFile (solid : ∃ c ∈ value, isBlank c = false) :
    ∃ name, NamesFile value name := by
  rcases solid with ⟨c, member, solid⟩
  have valueParts : value.takeWhile isGap ++ value.dropWhile isGap = value :=
    List.takeWhile_append_dropWhile
  rcases exists_dropEndWhile_append isBlank (value.dropWhile isGap) with ⟨back, parts, backBlank⟩
  -- The character is neither among the gaps in front nor in the white space at the end.
  have inText : c ∈ value.dropWhile isGap := by
    rw [← valueParts, List.mem_append] at member
    refine member.resolve_left fun inGaps => ?_
    cases solid.symm.trans (isBlank_of_isGap (mem_of_mem_takeWhile inGaps))
  have inName : c ∈ dropEndWhile isBlank (value.dropWhile isGap) := by
    rw [parts, List.mem_append] at inText
    refine inText.resolve_right fun inBack => ?_
    cases solid.symm.trans (backBlank c inBack)
  have nonempty := List.ne_nil_of_mem inName
  refine ⟨dropEndWhile isBlank (value.dropWhile isGap), ⟨value.takeWhile isGap, back, ?_,
    fun c member => mem_of_mem_takeWhile member, backBlank⟩, nonempty, ?_, ?_⟩
  · rw [List.append_assoc, ← parts, valueParts]
  · intro d head
    apply head?_dropWhile_false d
    rw [parts, List.head?_append_of_ne_nil _ nonempty]
    exact head
  · intro d last
    rw [dropEndWhile, List.getLast?_reverse] at last
    exact head?_dropWhile_false d last

theorem sourceName?_of_blank (blank : ∀ c ∈ value, isBlank c) :
    sourceName? value = ((value.dropWhile isGap).head?.or value.getLast?).map fun c => [c] := by
  have textBlank : ∀ c ∈ value.dropWhile isGap, isBlank c := fun c member =>
    blank c (List.dropWhile_subset isGap member)
  have nothing : ∀ c ∈ ([] : List Char).getLast?, isBlank c = false := by simp
  have trimmed : trimEnd (value.dropWhile isGap) = [] := dropEndWhile_append textBlank nothing
  rw [sourceName?, trimmed]

theorem exists_sourceName?_of_blank (nonempty : value ≠ []) (blank : ∀ c ∈ value, isBlank c) :
    ∃ c ∈ value, sourceName? value = some [c] := by
  have found : ∃ c ∈ value, (value.dropWhile isGap).head?.or value.getLast? = some c := by
    cases first : (value.dropWhile isGap).head? with
    | some c => exact ⟨c, List.dropWhile_subset isGap (List.mem_of_head? first), rfl⟩
    | none => exact ⟨value.getLast nonempty, List.getLast_mem nonempty,
        List.getLast?_eq_some_getLast nonempty⟩
  rcases found with ⟨c, member, taken⟩
  exact ⟨c, member, by rw [sourceName?_of_blank blank, taken, Option.map_some]⟩

theorem blank_or_solid (value : List Char) :
    (∀ c ∈ value, isBlank c) ∨ ∃ c ∈ value, isBlank c = false := by
  by_cases blank : ∀ c ∈ value, isBlank c
  · exact .inl blank
  · exact .inr (by simpa using blank)

/-- Only the empty value gives no name. -/
theorem sourceName?_eq_none_iff : sourceName? value = none ↔ value = [] := by
  constructor
  · intro unnamed
    apply Classical.byContradiction
    intro nonempty
    rcases blank_or_solid value with blank | solid
    · rcases exists_sourceName?_of_blank nonempty blank with ⟨c, _, named⟩
      cases unnamed.symm.trans named
    · rcases exists_namesFile solid with ⟨name, names⟩
      cases unnamed.symm.trans (sourceName?_of_namesFile names)
  · rintro rfl
    rfl

theorem namesFile_of_solid (named : sourceName? value = some name)
    (solid : ∃ c ∈ value, isBlank c = false) : NamesFile value name := by
  rcases exists_namesFile solid with ⟨other, names⟩
  cases named.symm.trans (sourceName?_of_namesFile names)
  exact names

/-- A name is that of a value which is not blank, or one character of a blank value. -/
theorem namesFile_or_blank (named : sourceName? value = some name) :
    NamesFile value name ∨ (∀ c ∈ value, isBlank c) ∧ ∃ c ∈ value, name = [c] := by
  have nonempty : value ≠ [] := by
    rintro rfl
    cases named
  rcases blank_or_solid value with blank | solid
  · rcases exists_sourceName?_of_blank nonempty blank with ⟨c, member, blankNamed⟩
    exact .inr ⟨blank, c, member, Option.some.inj (named.symm.trans blankNamed)⟩
  · exact .inl (namesFile_of_solid named solid)

theorem mem_of_mem_sourceName? {c : Char} (named : sourceName? value = some name)
    (member : c ∈ name) : c ∈ value := by
  rcases namesFile_or_blank named with names | ⟨_, d, inside, rfl⟩
  · rcases names.parts with ⟨gaps, blanks, rfl, _⟩
    simp [member]
  · rwa [List.mem_singleton.mp member]

theorem ne_nil_of_sourceName? (named : sourceName? value = some name) : name ≠ [] := by
  rcases namesFile_or_blank named with names | ⟨_, c, _, rfl⟩
  · exact names.nonempty
  · exact List.cons_ne_nil c []

theorem solidName_iff (named : sourceName? value = some name) :
    SolidName name ↔ ∃ c ∈ value, isBlank c = false := by
  constructor
  · intro solidName
    rcases solidName.solid with ⟨c, member, solid⟩
    exact ⟨c, mem_of_mem_sourceName? named member, solid⟩
  · intro solid
    exact (namesFile_of_solid named solid).solidName

end sourceName?

section findSome?

variable {read? : List Char → Option (List Char)} {Holds : List Char → List Char → Prop}
  {lines : List (List Char)}

theorem findSome?_sourceName?_eq_some_iff
    (reads : ∀ line value, read? line = some value ↔ Holds line value) {name : List Char} :
    lines.findSome? (fun line => (read? line).bind sourceName?) = some name ↔
      ∃ value, FirstWith (fun line value => Holds line value ∧ value ≠ []) lines value ∧
        sourceName? value = some name := by
  have unread : ∀ line, (read? line).bind sourceName? = none ↔
      ∀ value, ¬ (Holds line value ∧ value ≠ []) := by
    intro line
    rw [Option.bind_eq_none_iff]
    simp only [reads, sourceName?_eq_none_iff, not_and, not_not]
  simp only [List.findSome?_eq_some_iff, unread, Option.bind_eq_some_iff, reads]
  constructor
  · rintro ⟨front, line, back, parts, ⟨value, holds, named⟩, noneBefore⟩
    have nonempty : value ≠ [] := by
      rintro rfl
      cases named
    exact ⟨value, ⟨front, line, back, parts, ⟨holds, nonempty⟩, noneBefore⟩, named⟩
  · rintro ⟨value, ⟨front, line, back, parts, ⟨holds, _⟩, noneBefore⟩, named⟩
    exact ⟨front, line, back, parts, ⟨value, holds, named⟩, noneBefore⟩

theorem findSome?_sourceName?_isSome_iff
    (reads : ∀ line value, read? line = some value ↔ Holds line value) :
    (lines.findSome? fun line => (read? line).bind sourceName?).isSome ↔
      ∃ line ∈ lines, ∃ value, Holds line value ∧ value ≠ [] := by
  have named : ∀ line, ((read? line).bind sourceName?).isSome ↔
      ∃ value, Holds line value ∧ value ≠ [] := by
    intro line
    simp only [← reads, Option.isSome_iff_ne_none, ne_eq, Option.bind_eq_none_iff,
      sourceName?_eq_none_iff, not_forall, exists_prop]
  simp only [List.findSome?_isSome_iff, named]

end findSome?

section ofContent?

variable {content : String} {unit : Provenance} {value : List Char}

theorem labels_source_iff (line value : List Char) :
    labelled? "SOURCE:".toList line = some value ↔ Labels "SOURCE:".toList line value :=
  labelled?_eq_some_iff rfl rfl

theorem comments_source_iff (line value : List Char) :
    (comment? isGap line).bind (after? "@SOURCE:".toList) = some value ↔
      Comments isGap "@SOURCE:".toList line value :=
  comment?_label_eq_some_iff rfl rfl rfl

theorem exists_sourceValue (made : ofContent? content = some unit) :
    ∃ value, SourceValue content.toList value ∧
      sourceName? value = some unit.source.text.toList := by
  rw [ofContent?, ofText?] at made
  split at made
  next before block opened =>
    rw [ofBlock?, Option.map_eq_some_iff] at made
    rcases made with ⟨name, named, rfl⟩
    rcases (findSome?_sourceName?_eq_some_iff labels_source_iff).mp named with ⟨value, first, told⟩
    exact ⟨value, .template (cutAtFirst?_eq_some_iff.mp opened) first, by simpa [source] using told⟩
  next missing =>
    rw [ofComments?, Option.map_eq_some_iff] at made
    rcases made with ⟨name, named, rfl⟩
    rcases (findSome?_sourceName?_eq_some_iff comments_source_iff).mp named with
      ⟨value, first, told⟩
    exact ⟨value, .routes (cutAtFirst?_eq_none_iff.mp missing) first,
      by simpa [source] using told⟩

theorem FirstWith.exists_mem {Holds : List Char → List Char → Prop} {lines : List (List Char)}
    (first : FirstWith Holds lines value) : ∃ line ∈ lines, Holds line value := by
  rcases first with ⟨front, line, back, rfl, holds, _⟩
  exact ⟨line, by simp, holds⟩

namespace SourceValue

variable {content : List Char}

theorem nonempty (told : SourceValue content value) : value ≠ [] := by
  cases told with
  | template opened first =>
      rcases first.exists_mem with ⟨_, _, _, nonempty⟩
      exact nonempty
  | routes noBlock first =>
      rcases first.exists_mem with ⟨_, _, _, nonempty⟩
      exact nonempty

theorem oneLine (told : SourceValue content value) : '\n' ∉ value := by
  intro member
  cases told with
  | template opened first =>
      rcases first.exists_mem with ⟨line, inside, ⟨gaps, rfl, _⟩, _⟩
      exact (mem_of_mem_splitOn (List.mem_of_mem_tail inside) (by simp [member])).2 rfl
  | routes noBlock first =>
      rcases first.exists_mem with ⟨line, inside, ⟨front, gaps, rfl, _⟩, _⟩
      exact (mem_of_mem_splitOn inside (by simp [member])).2 rfl

end SourceValue

theorem exists_ofContent? (told : SourceValue content.toList value) :
    ∃ unit, ofContent? content = some unit ∧
      sourceName? value = some unit.source.text.toList := by
  rcases Option.ne_none_iff_exists'.mp (mt sourceName?_eq_none_iff.mp told.nonempty) with
    ⟨name, named⟩
  cases told with
  | @template before block _ opened first =>
      have found := (findSome?_sourceName?_eq_some_iff labels_source_iff).mpr ⟨_, first, named⟩
      have made : ofContent? content = (ofBlock? (block.splitOn '\n').tail) := by
        rw [ofContent?, ofText?, cutAtFirst?_eq_some_iff.mpr opened]
      rw [ofBlock?, found, Option.map_some] at made
      exact ⟨_, made, by simpa [source] using named⟩
  | routes noBlock first =>
      have found := (findSome?_sourceName?_eq_some_iff comments_source_iff).mpr ⟨_, first, named⟩
      have made : ofContent? content = ofComments? content.toList := ofText?_of_noBlock noBlock
      rw [ofComments?] at made
      exact ⟨_, made.trans (congrArg (Option.map _) found), by simpa [source] using named⟩

/-- A unit is read exactly where a source label has a value that is not empty. The first such value
names the author's file, on one line and with at least one character. A value that is not blank is
taken without the gaps in front and white space at the end, which is a solid name. A blank value
gives a single white space character. -/
theorem ofContent?_source_of_value (content : String) :
    (∀ unit, ofContent? content = some unit → ∃ value, SourceValue content.toList value) ∧
      ∀ value, SourceValue content.toList value → ∃ unit, ofContent? content = some unit ∧
        unit.source.text.toList ≠ [] ∧ '\n' ∉ unit.source.text.toList ∧
        (SolidName unit.source.text.toList ↔ ∃ c ∈ value, isBlank c = false) ∧
        ((∃ c ∈ value, isBlank c = false) → NamesFile value unit.source.text.toList) ∧
        ((∀ c ∈ value, isBlank c) → ∃ c ∈ value, unit.source.text.toList = [c]) := by
  refine ⟨fun unit made => ?_, fun value told => ?_⟩
  · rcases exists_sourceValue made with ⟨value, told, _⟩
    exact ⟨value, told⟩
  · rcases exists_ofContent? told with ⟨unit, made, named⟩
    refine ⟨unit, made, ne_nil_of_sourceName? named,
      fun member => told.oneLine (mem_of_mem_sourceName? named member), solidName_iff named,
      namesFile_of_solid named, fun blank => ?_⟩
    rcases exists_sourceName?_of_blank told.nonempty blank with ⟨c, member, blankNamed⟩
    exact ⟨c, member, Option.some.inj (named.symm.trans blankNamed)⟩

/-- An empty value in front of a carriage return is taken for the name of a file, in either kind of
generated file. -/
theorem ofContent?_source_returnOnly :
    (∃ unit, ofContent? "-- GENERATED --\r\nSOURCE:\r\n-- GENERATED --\r\n" = some unit ∧
        ¬ SolidName unit.source.text.toList) ∧
      ∃ unit, ofContent? "// @SOURCE:\r\n" = some unit ∧ ¬ SolidName unit.source.text.toList := by
  have blankName : ¬ SolidName "\r".toList := by
    intro solidName
    cases solidName.lastSolid '\r' rfl
  exact ⟨⟨.template ⟨"\r"⟩ [] [], by decide, blankName⟩, ⟨.routes ⟨"\r"⟩ [], by decide, blankName⟩⟩

end ofContent?

end ReloadReport.Provenance
