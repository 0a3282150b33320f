import ReloadReport.Exchange.Provenance
import ReloadReport.Exchange.Report
import ReloadReport.Proofs.Json.RecordReadBack

/-!
# Reading back what is exchanged

Everything that the reload tools exchange is read from either of its texts as it was written: each
record by its fields, each tagged one by its tag, and lists and maps by their elements.
-/

namespace ReloadReport

open Json

theorem Json.texts_readBack (texts : List String) :
    listOf? text? (ofList .string texts) = some texts :=
  listOf?_ofList text?_string texts

theorem Json.optionalText_readBack (text : Option String) :
    (ofOption .string text).optional? text? = some text :=
  optional?_ofOption text?_string (fun _ => nofun) text

theorem Json.optionalWord32_readBack (word : Option UInt32) :
    (ofOption ofWord32 word).optional? word32? = some word :=
  optional?_ofOption word32?_ofWord32 (fun _ => nofun) word

theorem Json.optionalWord64_readBack (word : Option UInt64) :
    (ofOption ofWord64 word).optional? word64? = some word :=
  optional?_ofOption word64?_ofWord64 (fun _ => nofun) word

/-! ## Origins and analyses -/

theorem Path.ofJson?_toJson (path : Path) : ofJson? path.toJson = some path := rfl

@[simp] theorem Path.sound (depth : Nat) (path : Path) : Sound depth path.toJson :=
  .string path.text

theorem Origin.sound (depth : Nat) (origin : Origin) : Sound (depth + 2) origin.toJson := by
  cases origin <;> simp [toJson]

theorem Origin.ofJson?_toJson (origin : Origin) : ofJson? origin.toJson = some origin := by
  have sound := origin.sound 0
  cases origin with
  | none =>
      rw [ofJson?, toJson, tagged?_withTag sound (by simp) (by simp)]
      rfl
  | plainFile path =>
      rw [ofJson?, toJson, tagged?_withTag sound (by simp) (by simp)]
      simp [Record.ofJson?_object, Record.required, Path.ofJson?_toJson]
  | relativeFile segments =>
      rw [ofJson?, toJson, tagged?_withTag sound (by simp) (by simp)]
      simp [Record.ofJson?_object, Record.required, texts_readBack]
  | absoluteFile id =>
      rw [ofJson?, toJson, tagged?_withTag sound (by simp) (by simp)]
      simp [Record.ofJson?_object, Record.required]

@[simp] theorem Descriptor.sound (depth : Nat) (stated : Descriptor) :
    Sound (depth + 2) stated.toJson := by
  rcases stated with ⟨kind, path, names, id⟩
  cases path <;> cases names <;> cases id <;> simp [toJson, memberIfSome]

theorem Descriptor.ofJson?_toJson (stated : Descriptor) : ofJson? stated.toJson = some stated := by
  have pathRead := optional?_write Path.ofJson?_toJson (fun _ => nofun)
  have namesRead := optional?_write texts_readBack (fun _ => nofun)
  have idRead := optional?_write text?_string (fun _ => nofun)
  rcases stated with ⟨kind, path, names, id⟩
  cases path <;> cases names <;> cases id <;>
    simp [ofJson?, toJson, Record.ofJson?_object, memberIfSome, Record.required, Record.optional,
      pathRead, namesRead, idRead]

theorem Analysis.sound (depth : Nat) (analysis : Analysis) :
    Sound (depth + 5) analysis.toJson := by
  simp [toJson]

theorem Analysis.ofJson?_toJson (analysis : Analysis) :
    ofJson? analysis.toJson = some analysis := by
  have classes := map?_ofMap (listOf?_ofList Descriptor.ofJson?_toJson) analysis.classes
  rw [ofJson?, toJson, Record.ofJson?_object (by simp) (by simp)]
  simp [Record.defaulted, classes]

@[simp] theorem SourceLink.sound (depth : Nat) (link : SourceLink) :
    Sound (depth + 1) link.toJson := by
  rcases link with ⟨resolvedPath, authoredPath⟩
  cases authoredPath <;> simp [toJson, memberIfSome]

theorem SourceLink.ofJson?_toJson (link : SourceLink) : ofJson? link.toJson = some link := by
  have pathRead := optional?_write Path.ofJson?_toJson (fun _ => nofun)
  rcases link with ⟨resolvedPath, authoredPath⟩
  cases authoredPath <;>
    simp [ofJson?, toJson, Record.ofJson?_object, memberIfSome, Record.required, Record.optional,
      Path.ofJson?_toJson, pathRead]

/-! ## Diagnostics -/

section diagnostics

variable {scope : Scope}

@[simp] theorem Severity.sound (depth : Nat) (severity : Severity) : Sound depth severity.toJson :=
  .string severity.word

theorem Severity.ofJson?_toJson (severity : Severity) :
    ofJson? scope severity.toJson = some severity := by
  cases severity <;> rfl

@[simp] theorem Position.sound (depth : Nat) (position : Position) :
    Sound (depth + 1) position.toJson := by
  simp [toJson]

theorem Position.ofJson?_toJson (position : Position) :
    ofJson? position.toJson = some position := by
  rw [ofJson?, toJson, Record.ofJson?_object (by simp) (by simp)]
  simp [Record.optional, optionalText_readBack, optionalWord32_readBack]

@[simp] theorem Diagnostic.sound (depth : Nat) (diagnostic : Diagnostic) :
    Sound (depth + 2) diagnostic.toJson := by
  simp [toJson]

theorem Diagnostic.ofJson?_toJson (diagnostic : Diagnostic) :
    ofJson? scope diagnostic.toJson = some diagnostic := by
  rw [ofJson?, toJson, Record.ofJson?_object (by simp) (by simp)]
  simp [Record.required, Record.defaulted, Severity.ofJson?_toJson, Position.ofJson?_toJson]

namespace Log.Draft

variable (file message : String) (line : UInt32) (pointer : Option UInt64)

theorem ofOption_natural :
    ofOption .natural (pointer.map UInt64.toNat) = ofOption ofWord64 pointer := by
  cases pointer <;> rfl

theorem sound (depth : Nat) :
    Sound (depth + 1) (toJson ⟨file, line, message, pointer.map UInt64.toNat⟩) := by
  simp [toJson, ofOption_natural]

theorem ofJson?_toJson : ofJson? (toJson ⟨file, line, message, pointer.map UInt64.toNat⟩) =
    some ⟨file, line, message, pointer.map UInt64.toNat⟩ := by
  rw [ofJson?, toJson, ofOption_natural, Record.ofJson?_object (by simp) (by simp)]
  simp [Record.required, Record.optional, optionalWord64_readBack]

end Log.Draft

end diagnostics

/-! ## Provenances -/

section provenances

open Provenance (Table)

@[simp] theorem Provenance.Table.sound (depth : Nat) (table : Table) :
    Sound (depth + 2) (Table.toJson table) := by
  apply Sound.ofList
  intro entry
  simp [entryToJson]

theorem Provenance.Table.ofJson?_toJson (table : Table) : ofJson? (toJson table) = some table := by
  apply listOf?_ofList
  intro entry
  simp [entryToJson, entryOfJson?]

theorem Provenance.sound (depth : Nat) (provenance : Provenance) :
    Sound (depth + 3) provenance.toJson := by
  cases provenance <;> simp [toJson]

theorem Provenance.ofJson?_toJson (provenance : Provenance) :
    ofJson? provenance.toJson = some provenance := by
  have sound := provenance.sound 0
  cases provenance with
  | template source matrix lines =>
      rw [ofJson?, toJson, tagged?_withTag sound (by simp) (by simp)]
      simp [Record.ofJson?_object, Record.required, Path.ofJson?_toJson, Table.ofJson?_toJson]
  | routes source lineMarkers =>
      rw [ofJson?, toJson, tagged?_withTag sound (by simp) (by simp)]
      simp [Record.ofJson?_object, Record.required, Path.ofJson?_toJson, Table.ofJson?_toJson]

end provenances

/-! ## Failures and verdicts -/

section failures

variable {scope : Scope}

@[simp] theorem ApplicationError.sound (depth : Nat) (error : ApplicationError) :
    Sound (depth + 1) error.toJson := by
  simp [toJson, members]

theorem ApplicationError.ofJson?_toJson (error : ApplicationError) :
    ofJson? error.toJson = some error := by
  rw [ofJson?, toJson, members, Record.ofJson?_object (by simp) (by simp)]
  simp [Record.required]

@[simp] theorem Cause.sound (depth : Nat) (cause : Cause) : Sound (depth + 1) cause.toJson := by
  cases cause <;> simp [toJson, ApplicationError.members]

/-- An application error stands beside its tag and is read from the members without it. -/
theorem Cause.ofJson?_toJson (cause : Cause) : ofJson? scope cause.toJson = some cause := by
  have sound := cause.sound 0
  cases cause with
  | application error =>
      have untagged : "kind" ∉ error.members.map Prod.fst := by simp [ApplicationError.members]
      have read := error.ofJson?_toJson
      rw [ApplicationError.toJson] at read
      rw [ofJson?, toJson, tagged?_withTag sound (by simp) untagged]
      simp [read]
  | compileFailed message =>
      rw [ofJson?, toJson, tagged?_withTag sound (by simp) (by simp)]
      simp [Record.ofJson?_object, Record.optional, optionalText_readBack]
  | exception name message =>
      rw [ofJson?, toJson, tagged?_withTag sound (by simp) (by simp)]
      simp [Record.ofJson?_object, Record.required, Record.optional, optionalText_readBack]

theorem Cause.toJson_ne_null (cause : Cause) : cause.toJson ≠ .null := by
  cases cause <;> exact nofun

@[simp] theorem ConsoleLog.sound (depth : Nat) (log : ConsoleLog) :
    Sound (depth + 2) log.toJson := by
  simp [toJson]

theorem ConsoleLog.ofJson?_toJson (log : ConsoleLog) : ofJson? log.toJson = some log := by
  rw [ofJson?, toJson, Record.ofJson?_object (by simp) (by simp)]
  simp [Record.required, Record.defaulted, texts_readBack]

theorem Failure.sound (depth : Nat) (failure : Failure) : Sound (depth + 4) failure.toJson := by
  simp [toJson]

theorem Failure.ofJson?_toJson (failure : Failure) : ofJson? failure.toJson = some failure := by
  have cause := optional?_ofOption (@Cause.ofJson?_toJson .plain) Cause.toJson_ne_null
    failure.cause
  have problems := optional?_ofOption (listOf?_ofList (@Diagnostic.ofJson?_toJson .plain))
    (fun _ => nofun) failure.problems
  have logs := listOf?_ofList ConsoleLog.ofJson?_toJson failure.logs
  rw [ofJson?, toJson, Record.ofJson?_object (by simp) (by simp)]
  simp [Record.optional, Record.defaulted, cause, problems, logs]

@[simp] theorem Verdict.sound (depth : Nat) (verdict : Verdict) :
    Sound (depth + 4) verdict.toJson := by
  cases verdict <;> simp [toJson]

theorem Verdict.ofJson?_toJson (verdict : Verdict) :
    ofJson? scope verdict.toJson = some verdict := by
  have sound := verdict.sound 0
  cases verdict with
  | application error =>
      rw [ofJson?, toJson, tagged?_withTag sound (by simp [label]) (by simp)]
      simp [label, Record.ofJson?_object, Record.required, ApplicationError.ofJson?_toJson]
  | compileErrors diagnostics =>
      have read := listOf?_ofList (@Diagnostic.ofJson?_toJson .tagged) diagnostics
      rw [ofJson?, toJson, tagged?_withTag sound (by simp [label]) (by simp)]
      simp [label, Record.ofJson?_object, Record.required, read]
  | unexpected message cause =>
      have read := optional?_ofOption (@Cause.ofJson?_toJson .tagged) Cause.toJson_ne_null cause
      rw [ofJson?, toJson, tagged?_withTag sound (by simp [label]) (by simp)]
      simp [label, Record.ofJson?_object, Record.optional, optionalText_readBack, read]

end failures

/-! ## Settings and reports -/

theorem Settings.sound (depth : Nat) (settings : Settings) :
    Sound (depth + 1) settings.toJson := by
  simp [toJson]

theorem Settings.ofJson?_toJson (settings : Settings) :
    ofJson? settings.toJson = some settings := by
  rw [ofJson?, toJson, Record.ofJson?_object (by simp) (by simp)]
  simp [Record.required, Record.optional, optionalWord64_readBack]

theorem Report.sound (depth : Nat) (report : Report) : Sound (depth + 5) report.toJson := by
  cases report <;> simp [toJson]

theorem Report.ofJson?_toJson (report : Report) : ofJson? report.toJson = some report := by
  have sound := report.sound 0
  cases report with
  | success sources classpath =>
      have sourcesRead := map?_ofMap SourceLink.ofJson?_toJson sources
      have classpathRead := listOf?_ofList Path.ofJson?_toJson classpath
      rw [ofJson?, toJson, tagged?_withTag sound (by simp) (by simp)]
      simp [Record.ofJson?_object, Record.required, sourcesRead, classpathRead]
  | failure verdict =>
      rw [ofJson?, toJson, tagged?_withTag sound (by simp) (by simp)]
      simp [Record.ofJson?_object, Record.required, Verdict.ofJson?_toJson]

/-- Whatever the tools write is read back, from either text. The pointer of a draft fits 64 bits. -/
theorem exchanged_readsBack :
    (∀ origin, ReadsBack Origin.toJson Origin.ofJson? origin) ∧
    (∀ stated, ReadsBack Descriptor.toJson Descriptor.ofJson? stated) ∧
    (∀ analysis, ReadsBack Analysis.toJson Analysis.ofJson? analysis) ∧
    (∀ link, ReadsBack SourceLink.toJson SourceLink.ofJson? link) ∧
    (∀ provenance, ReadsBack Provenance.toJson Provenance.ofJson? provenance) ∧
    (∀ severity, ReadsBack Severity.toJson (Severity.ofJson? .plain) severity) ∧
    (∀ position, ReadsBack Position.toJson Position.ofJson? position) ∧
    (∀ diagnostic, ReadsBack Diagnostic.toJson (Diagnostic.ofJson? .plain) diagnostic) ∧
    (∀ (file message : String) (line : UInt32) (pointer : Option UInt64),
      ReadsBack Log.Draft.toJson Log.Draft.ofJson?
        ⟨file, line, message, pointer.map UInt64.toNat⟩) ∧
    (∀ error, ReadsBack ApplicationError.toJson ApplicationError.ofJson? error) ∧
    (∀ cause, ReadsBack Cause.toJson (Cause.ofJson? .plain) cause) ∧
    (∀ log, ReadsBack ConsoleLog.toJson ConsoleLog.ofJson? log) ∧
    (∀ failure, ReadsBack Failure.toJson Failure.ofJson? failure) ∧
    (∀ verdict, ReadsBack Verdict.toJson (Verdict.ofJson? .plain) verdict) ∧
    (∀ settings, ReadsBack Settings.toJson Settings.ofJson? settings) ∧
    ∀ report, ReadsBack Report.toJson Report.ofJson? report := by
  refine ⟨fun origin => ?_, fun stated => ?_, fun analysis => ?_, fun link => ?_,
    fun provenance => ?_, fun severity => ?_, fun position => ?_, fun diagnostic => ?_,
    fun file message line pointer => ?_, fun error => ?_, fun cause => ?_, fun log => ?_,
    fun failure => ?_, fun verdict => ?_, fun settings => ?_, fun report => ?_⟩
  · exact readsBack_of_sound (origin.sound 0) (by decide) origin.ofJson?_toJson
  · exact readsBack_of_sound (stated.sound 0) (by decide) stated.ofJson?_toJson
  · exact readsBack_of_sound (analysis.sound 0) (by decide) analysis.ofJson?_toJson
  · exact readsBack_of_sound (link.sound 0) (by decide) link.ofJson?_toJson
  · exact readsBack_of_sound (provenance.sound 0) (by decide) provenance.ofJson?_toJson
  · exact readsBack_of_sound (severity.sound 0) (by decide) severity.ofJson?_toJson
  · exact readsBack_of_sound (position.sound 0) (by decide) position.ofJson?_toJson
  · exact readsBack_of_sound (diagnostic.sound 0) (by decide) diagnostic.ofJson?_toJson
  · exact readsBack_of_sound (Log.Draft.sound file message line pointer 0) (by decide)
      (Log.Draft.ofJson?_toJson file message line pointer)
  · exact readsBack_of_sound (error.sound 0) (by decide) error.ofJson?_toJson
  · exact readsBack_of_sound (cause.sound 0) (by decide) cause.ofJson?_toJson
  · exact readsBack_of_sound (log.sound 0) (by decide) log.ofJson?_toJson
  · exact readsBack_of_sound (failure.sound 0) (by decide) failure.ofJson?_toJson
  · exact readsBack_of_sound (verdict.sound 0) (by decide) verdict.ofJson?_toJson
  · exact readsBack_of_sound (settings.sound 0) (by decide) settings.ofJson?_toJson
  · exact readsBack_of_sound (report.sound 0) (by decide) report.ofJson?_toJson

end ReloadReport
