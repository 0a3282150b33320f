import Mathlib.Data.List.TakeWhile
import ReloadReport.Proofs.Provenance.ClosingMark
import ReloadReport.Proofs.Text.LineEnds

/-!
# Line ends of generated files

A generated file says the same with carriage returns in front of its line feeds, unless nothing but
gaps stands behind its first source label. The carriage return is then taken for the name of the
author's file.
-/

namespace ReloadReport.Provenance

open Text

/-- Behind the first source label on a line that a line feed ends there are only gaps. -/
inductive BlankSource (content : List Char) : Prop
  | template (opened : FirstAt blockMark content before block)
      (first : FirstWith (Labels "SOURCE:".toList) (block.splitOn '\n').tail.dropLast value)
      (blank : ∀ c ∈ value, isGap c) : BlankSource content
  | routes (noBlock : ¬ blockMark <:+: content)
      (first : FirstWith (Comments isGap "@SOURCE:".toList) (content.splitOn '\n').dropLast value)
      (blank : ∀ c ∈ value, isGap c) : BlankSource content

section lines

variable {read? : List Char → Option (List Char)} {Holds : List Char → List Char → Prop}
  {lines : List (List Char)} {value : List Char}

theorem findSome?_eq_some_iff_firstWith
    (reads : ∀ line value, read? line = some value ↔ Holds line value) :
    lines.findSome? read? = some value ↔ FirstWith Holds lines value := by
  simp only [FirstWith, List.findSome?_eq_some_iff, Option.eq_none_iff_forall_ne_some, ne_eq, reads]

theorem sourceName?_blank_return (blank : ∀ c ∈ value, isGap c) :
    sourceName? (value ++ ['\r']) = some ['\r'] := by
  have stops : ∀ c ∈ ['\r'].head?, isGap c = false := by simp [isGap]
  have text : (value ++ ['\r']).dropWhile isGap = ['\r'] := dropWhile_run blank stops
  rw [sourceName?, text]
  rfl

theorem sourceName?_append_return_of_solid (solid : ∃ c ∈ value, isGap c = false) :
    sourceName? (value ++ ['\r']) = sourceName? value := by
  rcases blank_or_solid value with blank | ink
  · -- The first character that is no gap is the name, whatever blanks follow it.
    have longer : ∀ c ∈ value ++ ['\r'], isBlank c := by
      simpa [or_imp, forall_and] using ⟨blank, rfl⟩
    have text : value.dropWhile isGap ≠ [] := by
      rcases solid with ⟨c, member, noGap⟩
      intro gone
      rw [List.dropWhile_eq_nil_iff] at gone
      cases noGap.symm.trans (gone c member)
    rw [sourceName?_of_blank blank, sourceName?_of_blank longer, dropWhile_append_singleton rfl,
      List.head?_append_of_ne_nil _ text, List.head?_eq_some_head text]
    rfl
  · exact sourceName?_append_return ink

/-- The first line with a value names a file where a carriage return is behind every value. -/
theorem findSome?_returned_of_read
    (behind : ∀ line, read? (line ++ ['\r']) = (read? line).map (· ++ ['\r']))
    (first : lines.dropLast.findSome? read? = some value) :
    (returned lines).findSome? (fun line => (read? line).bind sourceName?) =
      sourceName? (value ++ ['\r']) := by
  induction lines with
  | nil => cases first
  | cons line lines induction =>
      cases lines with
      | nil => cases first
      | cons next lines =>
          rw [List.dropLast_cons_cons, List.findSome?_cons] at first
          rw [returned, List.findSome?_cons, behind]
          cases here : read? line with
          | none =>
              rw [here] at first
              exact induction first
          | some found =>
              rw [here] at first
              cases first
              have named : sourceName? (value ++ ['\r']) ≠ none := by
                simp [sourceName?_eq_none_iff]
              rcases Option.ne_none_iff_exists'.mp named with ⟨name, named⟩
              simp [named]

theorem findSome?_returned_of_solid
    (behind : ∀ line, read? (line ++ ['\r']) = (read? line).map (· ++ ['\r']))
    (solid : ∀ value, lines.dropLast.findSome? read? = some value → ∃ c ∈ value, isGap c = false) :
    (returned lines).findSome? (fun line => (read? line).bind sourceName?) =
      lines.findSome? fun line => (read? line).bind sourceName? := by
  cases first : lines.dropLast.findSome? read? with
  | none =>
      apply findSome?_returned
      intro line member
      rw [behind, List.findSome?_eq_none_iff.mp first line member]
      rfl
  | some value =>
      have same := sourceName?_append_return_of_solid (solid value first)
      rw [findSome?_returned_of_read behind first, same]
      have named : sourceName? value ≠ none := by
        rw [← same]
        simp [sourceName?_eq_none_iff]
      rcases Option.ne_none_iff_exists'.mp named with ⟨name, named⟩
      rcases List.findSome?_eq_some_iff.mp first with ⟨front, line, back, parts, read, unread⟩
      rcases List.dropLast_prefix lines with ⟨last, whole⟩
      rw [named, eq_comm, List.findSome?_eq_some_iff]
      refine ⟨front, line, back ++ last, ?_, ?_, fun other member => ?_⟩
      · rw [← whole, parts, List.append_assoc, List.cons_append]
      · rw [read, Option.bind_some, named]
      · rw [unread other member, Option.bind_none]

end lines

section stages

variable {lines : List (List Char)} {content : List Char}

theorem sourceComment_append_return (line : List Char) :
    (comment? isGap (line ++ ['\r'])).bind (after? "@SOURCE:".toList) =
      ((comment? isGap line).bind (after? "@SOURCE:".toList)).map (· ++ ['\r']) := by
  rw [comment?_append_return rfl]
  cases comment? isGap line with
  | none => rfl
  | some text => exact after?_append_singleton (by decide) text

theorem tableOf_returned (label : List Char) (closes : label.getLast? = some ':')
    (noReturn : ∀ line ∈ lines, '\r' ∉ line) :
    tableOf label (returned lines) = tableOf label lines := by
  rw [tableOf, tableOf, findSome?_returned]
  intro line member
  rw [labelled?_append_return closes]
  cases read : labelled? label line with
  | none => rfl
  | some value =>
      apply tableText?_append_return
      intro last
      rw [labelled?, after?_eq_some_iff] at read
      have inLine : '\r' ∈ line.dropWhile isGap := by
        rw [read]
        exact List.mem_append_right label (List.mem_of_getLast? last)
      have inLines := (List.dropLast_sublist lines).subset member
      exact noReturn line inLines (List.dropWhile_subset isGap inLine)

theorem notMem_of_mem_block {before block line : List Char}
    (opened : FirstAt blockMark content before block) (noReturn : '\r' ∉ content)
    (member : line ∈ (block.splitOn '\n').tail) : '\r' ∉ line := by
  intro inLine
  have inBlock := (mem_of_mem_splitOn (List.mem_of_mem_tail member) inLine).1
  exact noReturn (opened.parts ▸ List.mem_append_right _ inBlock)

theorem cutAtFirst?_blockMark_withReturns (content : List Char) :
    cutAtFirst? blockMark (withReturns content) =
      (cutAtFirst? blockMark content).map (Prod.map withReturns withReturns) :=
  cutAtFirst?_withReturns (by decide) (by decide) (by decide) content

theorem ofText?_withReturns_of_block {before block : List Char}
    (opened : FirstAt blockMark content before block) :
    ofText? (withReturns content) = ofBlock? (returned (block.splitOn '\n').tail) := by
  rw [ofText?, cutAtFirst?_blockMark_withReturns, cutAtFirst?_eq_some_iff.mpr opened,
    ← returned_tail, ← splitOn_withReturns]
  rfl

theorem ofText?_withReturns_of_noBlock (noBlock : ¬ blockMark <:+: content)
    (noReturn : '\r' ∉ content) :
    ofText? (withReturns content) =
      ((returned (content.splitOn '\n')).findSome? sourceComment?).map fun name =>
        .routes ⟨String.ofList name⟩ (lineMarkers (Text.lines content)) := by
  rw [ofText?, cutAtFirst?_blockMark_withReturns, cutAtFirst?_eq_none_iff.mpr noBlock,
    Option.map_none, ofComments?, splitOn_withReturns, lines_withReturns noReturn]

end stages

section content

variable {content : List Char}

/-- A carriage return behind nothing but gaps is the name of the file. -/
theorem BlankSource.exists_return (blank : BlankSource content) (noReturn : '\r' ∉ content) :
    ∃ unit, ofText? (withReturns content) = some unit ∧ unit.source = ⟨"\r"⟩ := by
  cases blank with
  | template opened first gaps =>
      have read := (findSome?_eq_some_iff_firstWith labels_source_iff).mpr first
      have named := findSome?_returned_of_read (labelled?_append_return rfl) read
      rw [sourceName?_blank_return gaps] at named
      rw [ofText?_withReturns_of_block opened, ofBlock?, named]
      exact ⟨_, rfl, rfl⟩
  | routes noBlock first gaps =>
      have read := (findSome?_eq_some_iff_firstWith comments_source_iff).mpr first
      have named := findSome?_returned_of_read sourceComment_append_return read
      rw [sourceName?_blank_return gaps] at named
      rw [ofText?_withReturns_of_noBlock noBlock noReturn]
      exact ⟨_, congrArg (Option.map _) named, rfl⟩

theorem ofText?_withReturns_of_not_blankSource (noReturn : '\r' ∉ content)
    (told : ¬ BlankSource content) : ofText? (withReturns content) = ofText? content := by
  cases cut : cutAtFirst? blockMark content with
  | some parts =>
      rcases parts with ⟨before, block⟩
      have opened := cutAtFirst?_eq_some_iff.mp cut
      have inBlock : ∀ line ∈ (block.splitOn '\n').tail, '\r' ∉ line := fun line =>
        notMem_of_mem_block opened noReturn
      have solid : ∀ value, (block.splitOn '\n').tail.dropLast.findSome?
          (labelled? "SOURCE:".toList) = some value → ∃ c ∈ value, isGap c = false := by
        intro value read
        have first := (findSome?_eq_some_iff_firstWith labels_source_iff).mp read
        simpa using mt (BlankSource.template opened first) told
      have named := findSome?_returned_of_solid (labelled?_append_return rfl) solid
      rw [ofText?_withReturns_of_block opened, ofText?, cut]
      simp only [ofBlock?, named, tableOf_returned "MATRIX:".toList rfl inBlock,
        tableOf_returned "LINES:".toList rfl inBlock]
  | none =>
      have noBlock := cutAtFirst?_eq_none_iff.mp cut
      have solid : ∀ value, (content.splitOn '\n').dropLast.findSome?
          (fun line => (comment? isGap line).bind (after? "@SOURCE:".toList)) = some value →
          ∃ c ∈ value, isGap c = false := by
        intro value read
        have first := (findSome?_eq_some_iff_firstWith comments_source_iff).mp read
        simpa using mt (BlankSource.routes noBlock first) told
      have named := findSome?_returned_of_solid sourceComment_append_return solid
      rw [ofText?_withReturns_of_noBlock noBlock noReturn, ofText?_of_noBlock noBlock, ofComments?]
      exact congrArg (Option.map _) named

theorem SourceValue.subset (told : SourceValue content value) : value ⊆ content := by
  intro c member
  cases told with
  | template opened first =>
      rcases first.exists_mem with ⟨line, inside, ⟨gaps, rfl, _⟩, _⟩
      have inLine : c ∈ gaps ++ "SOURCE:".toList ++ value := List.mem_append_right _ member
      have inBlock := (mem_of_mem_splitOn (List.mem_of_mem_tail inside) inLine).1
      exact opened.parts ▸ List.mem_append_right _ inBlock
  | routes noBlock first =>
      rcases first.exists_mem with ⟨line, inside, ⟨front, gaps, rfl, _⟩, _⟩
      exact (mem_of_mem_splitOn inside (by simp [member])).1

/-- Carriage returns change what a text says exactly where its first source label is blank. -/
theorem ofText?_withReturns_eq_iff (noReturn : '\r' ∉ content) :
    ofText? (withReturns content) = ofText? content ↔ ¬ BlankSource content := by
  refine ⟨fun same blank => ?_, ofText?_withReturns_of_not_blankSource noReturn⟩
  rcases blank.exists_return noReturn with ⟨unit, made, named⟩
  have given : ofContent? (String.ofList content) = some unit := by
    rw [ofContent?, String.toList_ofList, ← same, made]
  rcases exists_sourceValue given with ⟨value, told, read⟩
  rw [String.toList_ofList] at told
  have inName : '\r' ∈ unit.source.text.toList := by
    rw [named]
    decide
  exact noReturn (told.subset (mem_of_mem_sourceName? read inName))

end content
end ReloadReport.Provenance
