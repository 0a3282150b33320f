import ReloadReport.Exchange.Provenance
import ReloadReport.Exchange.Report
import ReloadReport.Proofs.Json.ShapedTags

/-!
# Shapes of what is exchanged

Everything that the reload tools exchange has a shape, which lists the fields that are known, and
its reader keeps to that shape.
-/

namespace ReloadReport

open Json (Shape KeepsTo Scope listOf?)

variable {scope : Scope}

namespace Json

theorem text?_keepsTo : KeepsTo scope .whole text? :=
  .whole (fun _ => rfl) fun _ => rfl

theorem truth?_keepsTo : KeepsTo scope .whole truth? :=
  .whole (fun _ => rfl) fun _ => rfl

theorem word32?_keepsTo : KeepsTo scope .whole word32? :=
  .whole (fun _ => rfl) fun _ => rfl

theorem word64?_keepsTo : KeepsTo scope .whole word64? :=
  .whole (fun _ => rfl) fun _ => rfl

theorem texts_keepsTo : KeepsTo scope (.list .whole) (listOf? text?) :=
  .list text?_keepsTo

end Json

open Json

/-! ## Origins and analyses -/

theorem Path.keepsTo : KeepsTo scope .whole Path.ofJson? :=
  .whole (fun _ => rfl) fun _ => rfl

def Origin.shape : Shape :=
  .tagged "kind" [
    ("none", []),
    ("plain_file", [("path", .whole)]),
    ("virtual_file_relative", [("segments", .list .whole)]),
    ("virtual_file_absolute", [("id", .whole)])]

theorem Origin.keepsTo : KeepsTo .plain Origin.shape Origin.ofJson? := by
  refine .tagged ?_
  simp only [List.forall_mem_cons]
  refine ⟨?none, ?plainFile, ?relativeFile, ?absoluteFile, nofun⟩
  case none => exact .record rfl (by decide) (.pure _)
  case plainFile =>
    exact .record rfl (by decide) (.bind (.required rfl Path.keepsTo) fun path => .pure _)
  case relativeFile =>
    exact .record rfl (by decide) (.bind (.required rfl texts_keepsTo) fun segments => .pure _)
  case absoluteFile =>
    exact .record rfl (by decide) (.bind (.required rfl text?_keepsTo) fun id => .pure _)

def Descriptor.shape : Shape :=
  .record [("kind", .whole), ("path", .whole), ("names", .list .whole), ("id", .whole)]

theorem Descriptor.keepsTo : KeepsTo scope Descriptor.shape Descriptor.ofJson? := by
  refine .record rfl (by decide) ?_
  refine .bind (.required rfl text?_keepsTo) fun kind => ?_
  refine .bind (.optional rfl Path.keepsTo) fun path => ?_
  refine .bind (.optional rfl texts_keepsTo) fun names => ?_
  exact .bind (.optional rfl text?_keepsTo) fun id => .pure _

def Analysis.shape : Shape :=
  .record [("classes", .map (.list Descriptor.shape))]

theorem Analysis.keepsTo : KeepsTo scope Analysis.shape Analysis.ofJson? := by
  refine .record rfl (by decide) ?_
  exact .bind (.defaulted rfl _ (.map (.list Descriptor.keepsTo))) fun classes => .pure _

def SourceLink.shape : Shape :=
  .record [("resolved_path", .whole), ("original_source", .whole)]

theorem SourceLink.keepsTo : KeepsTo scope SourceLink.shape SourceLink.ofJson? := by
  refine .record rfl (by decide) ?_
  refine .bind (.required rfl Path.keepsTo) fun resolvedPath => ?_
  exact .bind (.optional rfl Path.keepsTo) fun authoredPath => .pure _

/-! ## Diagnostics -/

theorem Json.eq_of_changed_empty {inner : Scope} {other : Json}
    (changed : Changed inner .whole (.object []) other) : other = .object [] := by
  generalize same : Json.object [] = value at changed
  cases changed with
  | permuted perm =>
      cases same
      rw [List.nil_perm.mp perm]
  | inserted isRecord => exact isRecord.elim
  | member => simp at same
  | item => cases same

theorem Severity.member_of_ofJson? {members : List (String × Json)} {severity : Severity}
    (reads : Severity.ofJson? scope (.object members) = some severity) :
    ∃ word held, members = [(word, held)] ∧ (held = .null ∨ held = .object []) := by
  unfold Severity.ofJson? at reads
  split at reads
  next equal => cases equal
  next word equal =>
    cases equal
    exact ⟨word, .null, rfl, .inl rfl⟩
  next word equal =>
    cases equal
    exact ⟨word, .object [], rfl, .inr rfl⟩
  next => cases reads

theorem Severity.keepsTo : KeepsTo scope .whole (Severity.ofJson? scope) where
  changed {value other severity} changed reads := by
    cases changed with
    | permuted same =>
        rcases Severity.member_of_ofJson? reads with ⟨word, held, rfl, _⟩
        rwa [List.perm_singleton.mp same.symm]
    | inserted isRecord => exact isRecord.elim
    | @member _ _ front back name held replaced inside =>
        rcases Severity.member_of_ofJson? reads with ⟨word, empty, single, nothing⟩
        have here : (name, held) ∈ [(word, empty)] := by simp [← single]
        cases List.mem_singleton.mp here
        have same : replaced = held := by
          rcases nothing with rfl | rfl
          · cases inside
          · exact eq_of_changed_empty inside
        rwa [same]
    | item => cases scope <;> cases reads
  repeated repeats := absurd repeats not_repeats_whole

def Position.shape : Shape :=
  .record [("source_path", .whole), ("line", .whole), ("pointer_column", .whole)]

theorem Position.keepsTo : KeepsTo scope Position.shape Position.ofJson? := by
  refine .record rfl (by decide) ?_
  refine .bind (.optional rfl text?_keepsTo) fun sourcePath => ?_
  refine .bind (.optional rfl word32?_keepsTo) fun line => ?_
  exact .bind (.optional rfl word32?_keepsTo) fun pointerColumn => .pure _

def Diagnostic.shape : Shape :=
  .record [("message", .whole), ("severity", .whole), ("position", Position.shape)]

theorem Diagnostic.keepsTo : KeepsTo scope Diagnostic.shape (Diagnostic.ofJson? scope) := by
  refine .record rfl (by decide) ?_
  refine .bind (.required rfl text?_keepsTo) fun message => ?_
  refine .bind (.required rfl Severity.keepsTo) fun severity => ?_
  exact .bind (.defaulted rfl _ Position.keepsTo) fun position => .pure _

def Log.Draft.shape : Shape :=
  .record [("file", .whole), ("line", .whole), ("message", .whole), ("pointer", .whole)]

theorem Log.Draft.keepsTo : KeepsTo scope Log.Draft.shape Log.Draft.ofJson? := by
  refine .record rfl (by decide) ?_
  refine .bind (.required rfl text?_keepsTo) fun file => ?_
  refine .bind (.required rfl word32?_keepsTo) fun line => ?_
  refine .bind (.required rfl text?_keepsTo) fun message => ?_
  exact .bind (.optional rfl word64?_keepsTo) fun pointer => .pure _

/-! ## Provenances -/

def Provenance.Table.shape : Shape :=
  .list (.list .whole)

theorem Provenance.Table.naturals_of_entryOfJson? {items : List Json} {entry : UInt32 × UInt32}
    (reads : entryOfJson? (.array items) = some entry) :
    ∀ item ∈ items, ∃ number, item = .natural number := by
  have natural : ∀ {item : Json} {word}, item.word32? = some word →
      ∃ number, item = .natural number := by
    intro item word reads
    cases item with
    | natural number => exact ⟨number, rfl⟩
    | null | bool | real | string | array | object | illegible => cases reads
  unfold entryOfJson? at reads
  split at reads
  next generated source equal =>
    cases equal
    rcases Option.bind_eq_some_iff.mp reads with ⟨_, generatedReads, reads⟩
    rcases Option.bind_eq_some_iff.mp reads with ⟨_, sourceReads, _⟩
    simpa using ⟨natural generatedReads, natural sourceReads⟩
  next => cases reads

theorem Provenance.Table.entry_keepsTo : KeepsTo scope (.list .whole) Table.entryOfJson? where
  changed {value other entry} changed reads := by
    cases changed with
    | permuted | member => cases reads
    | inserted isRecord => exact isRecord.elim
    | @item _ _ front back held replaced inside =>
        rcases naturals_of_entryOfJson? reads held (by simp) with ⟨number, rfl⟩
        cases inside
  repeated repeats := by
    cases repeats with
    | here known => cases known
    | member => rfl
    | item inside => exact absurd inside not_repeats_whole

theorem Provenance.Table.keepsTo : KeepsTo scope Table.shape Table.ofJson? :=
  .list entry_keepsTo

def Provenance.shape : Shape :=
  .tagged "generator" [
    ("template", [("source", .whole), ("matrix", Table.shape), ("lines", Table.shape)]),
    ("routes", [("source", .whole), ("line_markers", Table.shape)])]

theorem Provenance.keepsTo : KeepsTo .plain Provenance.shape Provenance.ofJson? := by
  refine .tagged ?_
  simp only [List.forall_mem_cons]
  refine ⟨?template, ?routes, nofun⟩
  case template =>
    refine .record rfl (by decide) ?_
    refine .bind (.required rfl Path.keepsTo) fun source => ?_
    refine .bind (.required rfl Table.keepsTo) fun matrix => ?_
    exact .bind (.required rfl Table.keepsTo) fun lines => .pure _
  case routes =>
    refine .record rfl (by decide) ?_
    refine .bind (.required rfl Path.keepsTo) fun source => ?_
    exact .bind (.required rfl Table.keepsTo) fun lineMarkers => .pure _

/-! ## Failures and verdicts -/

def ApplicationError.fields : List (String × Shape) :=
  [("title", .whole), ("description", .whole)]

def ApplicationError.shape : Shape :=
  .record fields

theorem ApplicationError.keepsTo :
    KeepsTo scope ApplicationError.shape ApplicationError.ofJson? := by
  refine .record rfl (by decide) ?_
  refine .bind (.required rfl text?_keepsTo) fun title => ?_
  exact .bind (.required rfl text?_keepsTo) fun description => .pure _

/-- The fields of an application error stand beside the tag. -/
def Cause.shape : Shape :=
  .tagged "kind" [
    ("reload", ApplicationError.fields),
    ("compile_failed", [("message", .whole)]),
    ("exception", [("exception", .whole), ("message", .whole)])]

theorem Cause.keepsTo : KeepsTo scope Cause.shape (Cause.ofJson? scope) := by
  refine .tagged ?_
  simp only [List.forall_mem_cons]
  refine ⟨?reload, ?compileFailed, ?exception, nofun⟩
  case reload =>
    exact ApplicationError.keepsTo.andThen fun error => some (Cause.application error)
  case compileFailed =>
    refine .record rfl (by decide) ?_
    exact .bind (.optional rfl text?_keepsTo) fun message => .pure _
  case exception =>
    refine .record rfl (by decide) ?_
    refine .bind (.required rfl text?_keepsTo) fun name => ?_
    exact .bind (.optional rfl text?_keepsTo) fun message => .pure _

def ConsoleLog.shape : Shape :=
  .record [("task", .whole), ("lines", .list .whole)]

theorem ConsoleLog.keepsTo : KeepsTo scope ConsoleLog.shape ConsoleLog.ofJson? := by
  refine .record rfl (by decide) ?_
  refine .bind (.required rfl text?_keepsTo) fun task => ?_
  exact .bind (.defaulted rfl _ texts_keepsTo) fun lines => .pure _

def Failure.shape : Shape :=
  .record [
    ("cause", Cause.shape),
    ("problems", .list Diagnostic.shape),
    ("logs", .list ConsoleLog.shape)]

theorem Failure.keepsTo : KeepsTo .plain Failure.shape Failure.ofJson? := by
  refine .record rfl (by decide) ?_
  refine .bind (.optional rfl Cause.keepsTo) fun cause => ?_
  refine .bind (.optional rfl (.list Diagnostic.keepsTo)) fun problems => ?_
  exact .bind (.defaulted rfl _ (.list ConsoleLog.keepsTo)) fun logs => .pure _

def Verdict.shape : Shape :=
  .tagged "kind" [
    ("already_typed", [("cause", ApplicationError.shape)]),
    ("structured_compile_failure", [("diagnostics", .list Diagnostic.shape)]),
    ("unexpected_failure", [("message", .whole), ("cause", Cause.shape)])]

theorem Verdict.keepsTo : KeepsTo scope Verdict.shape (Verdict.ofJson? scope) := by
  refine .tagged ?_
  simp only [List.forall_mem_cons]
  refine ⟨?application, ?compileErrors, ?unexpected, nofun⟩
  case application =>
    refine .record rfl (by decide) ?_
    exact .bind (.required rfl ApplicationError.keepsTo) fun error => .pure _
  case compileErrors =>
    refine .record rfl (by decide) ?_
    exact .bind (.required rfl (.list Diagnostic.keepsTo)) fun diagnostics => .pure _
  case unexpected =>
    refine .record rfl (by decide) ?_
    refine .bind (.optional rfl text?_keepsTo) fun message => ?_
    exact .bind (.optional rfl Cause.keepsTo) fun cause => .pure _

/-! ## Settings and reports -/

def Settings.shape : Shape :=
  .record [("remap_generated", .whole), ("log_tail_lines", .whole)]

theorem Settings.keepsTo : KeepsTo scope Settings.shape Settings.ofJson? := by
  refine .record rfl (by decide) ?_
  refine .bind (.required rfl truth?_keepsTo) fun remapGenerated => ?_
  exact .bind (.optional rfl word64?_keepsTo) fun logTailLines => .pure _

def Report.shape : Shape :=
  .tagged "outcome" [
    ("success", [("sources", .map SourceLink.shape), ("classpath", .list .whole)]),
    ("failure", [("failure", Verdict.shape)])]

theorem Report.keepsTo : KeepsTo .plain Report.shape Report.ofJson? := by
  refine .tagged ?_
  simp only [List.forall_mem_cons]
  refine ⟨?success, ?failure, nofun⟩
  case success =>
    refine .record rfl (by decide) ?_
    refine .bind (.required rfl (.map SourceLink.keepsTo)) fun sources => ?_
    exact .bind (.required rfl (.list Path.keepsTo)) fun classpath => .pure _
  case failure =>
    refine .record rfl (by decide) ?_
    exact .bind (.required rfl Verdict.keepsTo) fun verdict => .pure _

end ReloadReport
