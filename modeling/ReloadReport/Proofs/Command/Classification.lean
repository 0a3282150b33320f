import ReloadReport.Proofs.AskedFiles
import ReloadReport.Proofs.Command.Directory
import ReloadReport.Proofs.Command.Requests
import ReloadReport.Proofs.Exchange.ReadBack
import ReloadReport.Proofs.Provenance.LineEnds

/-!
# Classifying a failure together with logs

What the command prints for a failure to which text files are added as further logs. The logs count
only where the failure does not explain itself, and carriage returns before line feeds do not count
in them. A log that is also the file in which the error is may have a blank source label, in which
they do count.
-/

namespace ReloadReport

def ConsoleLog.ofFile (file : Path × String) : ConsoleLog where
  task := file.1.text
  lines := (Text.lines file.2.toList).map String.ofList

def Failure.withFiles (failure : Failure) (files : List (Path × String)) : Failure :=
  { failure with logs := failure.logs ++ files.map ConsoleLog.ofFile }

def Report.Unexpected (report : Report) : Prop :=
  ∃ message cause, report = .failure (.unexpected message cause)

def Diagnostic.reported (config : Settings) (read : Path → Option String)
    (diagnostic : Diagnostic) : Diagnostic :=
  if config.remapGenerated then diagnostic.remapped read else diagnostic

/-- The failure says all there is to report: its report is not unexpected, its cause is an
exception, or the compiler made a list of problems. -/
def Failure.SelfContained (config : Settings) (read : Path → Option String)
    (failure : Failure) : Prop :=
  ¬ (Report.ofFailure config read failure).Unexpected ∨
    (∃ name message, failure.cause = some (.exception name message)) ∨ failure.problems.isSome

namespace Failure

variable {config : Settings} {limit : Option UInt64} {read : Path → Option String}
  {failure : Failure} {files : List (Path × String)} {diagnostic : Diagnostic}

section reports

theorem ofFailure_congr {other : Failure}
    (same : other.verdict config.logTailLines = failure.verdict config.logTailLines) :
    Report.ofFailure config read other = Report.ofFailure config read failure := by
  simp only [Report.ofFailure, same]

theorem ofFailure_of_found (compiles : failure.Compiles) (unlisted : failure.problems = none)
    (found : failure.recovered? config.logTailLines = some diagnostic) :
    Report.ofFailure config read failure =
      .failure (.compileErrors [diagnostic.reported config read]) := by
  rw [Report.ofFailure, verdict_of_recovered compiles unlisted found]
  cases remaps : config.remapGenerated <;> simp [Diagnostic.reported, Verdict.remapped, remaps]

theorem ofFailure_of_unexpected {message : Option String} {cause : Option Cause}
    (told : failure.verdict config.logTailLines = .unexpected message cause) :
    Report.ofFailure config read failure = .failure (.unexpected message cause) := by
  simp [Report.ofFailure, told, Verdict.remapped]

theorem compiles_of_not_selfContained (lacking : ¬ failure.SelfContained config read) :
    failure.Compiles ∧ failure.problems = none ∧
      failure.recovered? config.logTailLines = none := by
  rcases not_or.mp lacking with ⟨unexpected, rest⟩
  rcases not_or.mp rest with ⟨noException, noList⟩
  rcases not_not.mp unexpected with ⟨message, cause, told⟩
  have unlisted : failure.problems = none := by simpa using noList
  rcases failure.cause_cases with ⟨error, application⟩ | ⟨name, text, exception⟩ | compiles
  · simp [Report.ofFailure, verdict_of_application application, Verdict.remapped] at told
  · exact absurd ⟨name, text, exception⟩ noException
  · refine ⟨compiles, unlisted, ?_⟩
    cases found : failure.recovered? config.logTailLines with
    | none => rfl
    | some diagnostic => cases (ofFailure_of_found compiles unlisted found).symm.trans told

end reports

section withFiles

theorem Compiles.withFiles (compiles : failure.Compiles) : (failure.withFiles files).Compiles :=
  compiles

theorem recovered?_withFiles (limit : Option UInt64) (failure : Failure)
    (files : List (Path × String)) :
    (failure.withFiles files).recovered? limit = (failure.recovered? limit).or
      (files.findSome? fun file => Log.recover? limit (ConsoleLog.ofFile file).lines) := by
  simp [recovered?, withFiles, List.findSome?_append, List.findSome?_map, Function.comp_def]

theorem verdict_withFiles_of_listed (listed : failure.problems.isSome) :
    (failure.withFiles files).verdict limit = failure.verdict limit := by
  have noList : failure.problems ≠ none := Option.isSome_iff_ne_none.mp listed
  exact verdict_congr rfl fun _ =>
    ⟨rfl, fun unlisted => absurd unlisted noList, fun unlisted => absurd unlisted noList⟩

theorem verdict_withFiles_of_explained
    (explained : ∀ message cause, failure.verdict limit ≠ .unexpected message cause) :
    (failure.withFiles files).verdict limit = failure.verdict limit := by
  have explains := failure.explains_verdict limit
  generalize told : failure.verdict limit = verdict at explains explained
  cases explains with
  | application cause => exact verdict_of_application cause
  | problem _ listed => exact told ▸ verdict_withFiles_of_listed (Option.isSome_of_eq_some listed)
  | log compiles unlisted logs silent tells =>
      have found : failure.recovered? limit = some _ :=
        List.findSome?_eq_some_iff.mpr ⟨_, _, _, logs, tells, silent⟩
      have alike := recovered?_withFiles limit failure files
      rw [found, Option.some_or] at alike
      exact verdict_of_recovered compiles.withFiles unlisted alike
  | exception | harmless | silent | unknown => exact absurd rfl (explained _ _)

theorem verdict_withFiles_of_selfContained (selfContained : failure.SelfContained config read) :
    (failure.withFiles files).verdict config.logTailLines =
      failure.verdict config.logTailLines := by
  rcases selfContained with explained | ⟨name, message, cause⟩ | listed
  · refine verdict_withFiles_of_explained fun message cause told => explained ?_
    exact ⟨message, cause, ofFailure_of_unexpected told⟩
  · have stillCause : (failure.withFiles files).cause = some (.exception name message) := cause
    rw [verdict_of_exception cause, verdict_of_exception stillCause, cause, stillCause]
  · exact verdict_withFiles_of_listed listed

variable (lacking : ¬ failure.SelfContained config read)

include lacking

theorem ofFailure_withFiles_of_told {front back : List (Path × String)} {file : Path × String}
    (given : files = front ++ file :: back)
    (silent : ∀ other ∈ front,
      Log.recover? config.logTailLines (ConsoleLog.ofFile other).lines = none)
    (told : Log.recover? config.logTailLines (ConsoleLog.ofFile file).lines = some diagnostic) :
    Report.ofFailure config read (failure.withFiles files) =
      .failure (.compileErrors [diagnostic.reported config read]) := by
  rcases compiles_of_not_selfContained lacking with ⟨compiles, unlisted, silence⟩
  refine ofFailure_of_found compiles.withFiles unlisted ?_
  rw [recovered?_withFiles, silence, Option.none_or]
  exact List.findSome?_eq_some_iff.mpr ⟨front, file, back, given, told, silent⟩

theorem ofFailure_withFiles_of_silent (given : files ≠ [])
    (silent : ∀ file ∈ files,
      Log.recover? config.logTailLines (ConsoleLog.ofFile file).lines = none) :
    Report.ofFailure config read (failure.withFiles files) =
      .failure (.unexpected (some noProblem) failure.cause) := by
  rcases compiles_of_not_selfContained lacking with ⟨compiles, unlisted, silence⟩
  have missing : (failure.withFiles files).recovered? config.logTailLines = none := by
    rw [recovered?_withFiles, silence, Option.none_or]
    exact List.findSome?_eq_none_iff.mpr silent
  have known :
      ¬ ((failure.withFiles files).cause = none ∧ (failure.withFiles files).logs = []) := by
    simp [withFiles, given]
  refine ofFailure_of_unexpected ?_
  rw [verdict_of_silent compiles.withFiles unlisted missing, unexplained_of_known known]
  rfl

end withFiles
end Failure

namespace Command

/-- The failure that a file spells, or an empty one where no file is named. -/
inductive Gives (read : Reader) : Option Path → Failure → Prop
  | nothing : Gives read none {}
  | spelled {path : Path} {text : String} {failure : Failure} (held : read path = .ok text)
      (spells : (Json.parse? text).bind Failure.ofJson? = some failure) :
      Gives read (some path) failure

/-- A file that the classification needs cannot be read, or should spell a failure and does not. -/
inductive Unusable (read : Reader) : Option Path → List Path → Prop
  | failure {path : Path} {error : ReadError} (unread : read path = .error error) :
      Unusable read (some path) logs
  | spelling {path : Path} {text : String} (held : read path = .ok text)
      (unspelled : (Json.parse? text).bind Failure.ofJson? = none) :
      Unusable read (some path) logs
  | log {path : Path} {error : ReadError} (named : path ∈ logs)
      (unread : read path = .error error) : Unusable read failureFile logs

/-- The other reader reads the same at a path, or the text that is there, which has no carriage
return, with one in front of every line feed. -/
inductive Returned (read other : Reader) (path : Path) : Prop
  | same (same : other path = read path) : Returned read other path
  | rewritten {text : String} (held : read path = .ok text) (noReturn : '\r' ∉ text.toList)
      (returned : other path = .ok (Text.returnedText text)) : Returned read other path

def printed (report : Report) : Answer where
  code := 0
  output := report.toJson.pretty ++ "\n"

theorem printed_injective {report other : Report} (same : printed report = printed other) :
    report = other := by
  have texts : report.toJson.pretty = other.toJson.pretty := by
    simpa [printed] using same
  have reads := (Json.readsBack_of_sound (report.sound 0) (by decide) report.ofJson?_toJson).2
  have otherReads := (Json.readsBack_of_sound (other.sound 0) (by decide) other.ofJson?_toJson).2
  rw [texts, otherReads] at reads
  exact (Option.some.inj reads).symm

section reading

variable {read other : Reader} {failureFile : Option Path} {logs : List Path} {failure : Failure}

theorem mapM_readLog {files : List (Path × String)}
    (held : ∀ file ∈ files, read file.1 = .ok file.2) :
    (files.map Prod.fst).mapM (readLog read) = .ok (files.map ConsoleLog.ofFile) := by
  induction files with
  | nil => rfl
  | cons file files induction =>
      rcases List.forall_mem_cons.mp held with ⟨here, later⟩
      have log : readLog read file.1 = .ok (ConsoleLog.ofFile file) := by
        rw [readLog, here]
        rfl
      rw [List.map_cons, List.mapM_cons, log, induction later]
      rfl

theorem mapM_readLog_error {path : Path} {error : ReadError} (named : path ∈ logs)
    (unread : read path = .error error) :
    ∃ problem, logs.mapM (readLog read) = .error problem := by
  induction logs with
  | nil => cases named
  | cons log logs induction =>
      rw [List.mapM_cons]
      cases here : readLog read log with
      | error problem => exact ⟨problem, rfl⟩
      | ok first =>
          rcases List.mem_cons.mp named with rfl | later
          · rw [readLog, unread] at here
            cases here
          · rcases induction later with ⟨problem, later⟩
            exact ⟨problem, by rw [later]; rfl⟩

theorem readFailure_of_gives (gives : Gives read failureFile failure)
    {files : List (Path × String)} (held : ∀ file ∈ files, read file.1 = .ok file.2) :
    readFailure read failureFile (files.map Prod.fst) = .ok (failure.withFiles files) := by
  have logs := mapM_readLog held
  cases gives with
  | nothing =>
      rw [readFailure, logs]
      rfl
  | spelled present spells =>
      simp only [readFailure, readJson, present, spells, logs]
      rfl

theorem readFailure_of_unusable (unusable : Unusable read failureFile logs) :
    ∃ problem, readFailure read failureFile logs = .error problem := by
  cases unusable with
  | failure unread =>
      simp only [readFailure, readJson, unread]
      exact ⟨_, rfl⟩
  | spelling held unspelled =>
      simp only [readFailure, readJson, held, unspelled]
      exact ⟨_, rfl⟩
  | log named unread =>
      rcases mapM_readLog_error named unread with ⟨problem, failed⟩
      cases failureFile with
      | none =>
          rw [readFailure, failed]
          exact ⟨problem, rfl⟩
      | some path =>
          simp only [readFailure, failed]
          cases readJson read Failure.ofJson? path with
          | error first => exact ⟨first, rfl⟩
          | ok failure => exact ⟨problem, rfl⟩

theorem Returned.readLog_eq {path : Path} (returned : Returned read other path) :
    readLog other path = readLog read path := by
  cases returned with
  | same same => simp only [readLog, same]
  | rewritten held noReturn returned =>
      simp only [readLog, held, returned, Text.toList_returnedText, Text.lines_withReturns noReturn]

theorem Returned.readFailure_eq {path : Path} (returned : Returned read other path) :
    readJson other Failure.ofJson? path = readJson read Failure.ofJson? path := by
  cases returned with
  | same same => simp only [readJson, same]
  | rewritten held noReturn returned =>
      simp only [readJson, held, returned, Json.parse?_returnedText]

theorem mapM_readLog_returned (returned : ∀ path ∈ logs, Returned read other path) :
    logs.mapM (readLog other) = logs.mapM (readLog read) := by
  induction logs with
  | nil => rfl
  | cons log logs induction =>
      rcases List.forall_mem_cons.mp returned with ⟨here, later⟩
      rw [List.mapM_cons, List.mapM_cons, here.readLog_eq, induction later]

theorem readFailure_returned
    (returned : ∀ path ∈ failureFile.toList ++ logs, Returned read other path) :
    readFailure other failureFile logs = readFailure read failureFile logs := by
  have sameLogs := mapM_readLog_returned fun path named =>
    returned path (List.mem_append_right failureFile.toList named)
  cases failureFile with
  | none => simp only [readFailure, sameLogs]
  | some path =>
      have spelling := (returned path List.mem_cons_self).readFailure_eq
      simp only [readFailure, sameLogs, spelling]

theorem Returned.ofFile?_eq {path : Path} (returned : Returned read other path)
    (told : ∀ text, read path = .ok text → Provenance.BlankSource text.toList →
      other path = read path) :
    Provenance.ofFile? other.texts path = Provenance.ofFile? read.texts path := by
  by_cases same : other path = read path
  · simp only [Provenance.ofFile?, Reader.texts, same]
  · cases returned with
    | same kept => exact absurd kept same
    | @rewritten text held noReturn returned =>
        have inked : ¬ Provenance.BlankSource text.toList := fun blank => same (told _ held blank)
        have alike := (Provenance.ofText?_withReturns_eq_iff noReturn).mpr inked
        simpa [Provenance.ofFile?, Provenance.ofContent?, Reader.texts, held, returned,
          Except.toOption] using alike

end reading

section running

variable {environment : Environment} {arguments : List String} {config : Settings}
  {failureFile : Option Path} {logs : List Path} {read : Reader}

theorem run_eq_of_classifies (asked : Classifies environment arguments config failureFile logs) :
    run read environment arguments =
      .ofReport (report read config (.classify failureFile logs)) := by
  rcases asked with ⟨overrides, request, rfl⟩
  rw [run, request]

theorem run_of_classifies (asked : Classifies environment arguments config failureFile logs) :
    run read environment arguments = .ofReport ((readFailure read failureFile logs).map
      (Report.ofFailure config read.texts)) := by
  rw [run_eq_of_classifies asked]
  cases given : readFailure read failureFile logs <;>
    · simp only [report, given]
      rfl

theorem run_of_readFailure (asked : Classifies environment arguments config failureFile logs)
    {failure : Failure} (given : readFailure read failureFile logs = .ok failure) :
    run read environment arguments = printed (.ofFailure config read.texts failure) := by
  rw [run_of_classifies asked, given]
  rfl

variable {other : Reader}

theorem run_returned (asked : Classifies environment arguments config failureFile logs)
    (inputs : ∀ path ∈ failureFile.toList ++ logs, Returned read other path)
    (told : ∀ failure, readFailure read failureFile logs = .ok failure →
      ∀ path, Compile.Asks config (.failed failure) path →
        Provenance.ofFile? other.texts path = Provenance.ofFile? read.texts path) :
    run other environment arguments = run read environment arguments := by
  rw [run_of_classifies asked, run_of_classifies asked, readFailure_returned inputs]
  cases given : readFailure read failureFile logs with
  | error problem => rfl
  | ok failure =>
      have same := Compile.ofFailure_eq_of_asked (told failure given)
      simp only [Except.map, same]

theorem exists_return_of_blankSource {failure : Failure} {path : Path} {text : String}
    (asks : Compile.Asks config (.failed failure) path) (noReturn : '\r' ∉ text.toList)
    (returned : other path = .ok (Text.returnedText text))
    (blank : Provenance.BlankSource text.toList) :
    ∃ diagnostic, diagnostic.position.sourcePath = some "\r" ∧
      Report.ofFailure config other.texts failure = .failure (.compileErrors [diagnostic]) := by
  rcases blank.exists_return noReturn with ⟨unit, made, source⟩
  cases asks with
  | @error _ diagnostic _ remaps told named =>
      have generated : Provenance.ofFile? other.texts path = some unit := by
        simpa [Provenance.ofFile?, Provenance.ofContent?, Reader.texts, returned,
          Except.toOption] using made
      refine ⟨diagnostic.remapped other.texts, ?_, by
        simp [Report.ofFailure, told, remaps, Verdict.remapped]⟩
      rw [Diagnostic.remapped, named, Option.bind_some, generated]
      exact congrArg (fun path => some path.text) source

/-- In a directory, the line ends of a file do not count unless its source label is blank. -/
theorem run_put_withReturns (asked : Classifies environment arguments config failureFile logs)
    {directory : Directory} {file : Path} {text : String}
    (held : directory.files.lookup file.names = some text.toUTF8) (noReturn : '\r' ∉ text.toList)
    (inked : ¬ Provenance.BlankSource text.toList) :
    run (directory.put file (Text.returnedText text).toUTF8).read environment arguments =
      run directory.read environment arguments := by
  have returned (path : Path) : Returned directory.read
      (directory.put file (Text.returnedText text).toUTF8).read path := by
    rcases Directory.read_put held path with same | ⟨before, after⟩
    · exact .same same
    · exact .rewritten before noReturn after
  refine run_returned asked (fun path _ => returned path) fun _ _ path _ => ?_
  refine (returned path).ofFile?_eq fun found holds blank => ?_
  rcases Directory.read_put held path with same | ⟨before, _⟩
  · exact same
  · cases holds.symm.trans before
    exact absurd blank inked

/-- The command reports on the failure with a log for each file. Where the failure says all there is
to report, the files do not count. Otherwise the first file that tells an error explains it, and
files that tell none leave only the message that there is no problem. Carriage returns in front of
line feeds do not count in the logs, unless the report asks for one of them as a source, and its
source label is blank. Files that cannot be used end the command without any output. -/
theorem run_classification (config : Settings) (failureFile : Option Path) (logs : List Path) :
    ((∀ path ∈ failureFile.toList ++ logs, path.text ≠ "") →
      ∃ environment arguments, Classifies environment arguments config failureFile logs) ∧
    ∀ (environment : Environment) (arguments : List String),
      Classifies environment arguments config failureFile logs →
      (∀ read : Reader, Unusable read failureFile logs →
        (run read environment arguments).code ≠ 0 ∧
          (run read environment arguments).output = "") ∧
      (∀ (read : Reader) (failure : Failure) (files : List (Path × String)),
        Gives read failureFile failure → files.map Prod.fst = logs →
        (∀ file ∈ files, read file.1 = .ok file.2) →
        run read environment arguments =
          printed (.ofFailure config read.texts (failure.withFiles files)) ∧
        (failure.SelfContained config read.texts →
          run read environment arguments = printed (.ofFailure config read.texts failure)) ∧
        (¬ failure.SelfContained config read.texts →
          (∀ front file back diagnostic, files = front ++ file :: back →
            (∀ silent ∈ front,
              Log.recover? config.logTailLines (ConsoleLog.ofFile silent).lines = none) →
            Log.recover? config.logTailLines (ConsoleLog.ofFile file).lines = some diagnostic →
            run read environment arguments =
              printed (.failure (.compileErrors [diagnostic.reported config read.texts]))) ∧
          (files ≠ [] → (∀ silent ∈ files,
              Log.recover? config.logTailLines (ConsoleLog.ofFile silent).lines = none) →
            run read environment arguments = printed (.failure (.unexpected
              (some "The compilation failed without reporting any problem!") failure.cause)))) ∧
        ∀ other : Reader, (∀ path ∈ failureFile.toList ++ logs, Returned read other path) →
          ((∀ path, Compile.Asks config (.failed (failure.withFiles files)) path →
              Returned read other path ∧ ∀ text, read path = .ok text →
                Provenance.BlankSource text.toList → other path = read path) →
            run other environment arguments = run read environment arguments) ∧
          ∀ (path : Path) (text : String),
            Compile.Asks config (.failed (failure.withFiles files)) path → '\r' ∉ text.toList →
            other path = .ok (Text.returnedText text) → Provenance.BlankSource text.toList →
            ∃ diagnostic, diagnostic.position.sourcePath = some "\r" ∧
              run other environment arguments =
                printed (.failure (.compileErrors [diagnostic]))) ∧
      ∀ (directory : Directory) (file : Path) (text : String),
        directory.files.lookup file.names = some text.toUTF8 → '\r' ∉ text.toList →
        ¬ Provenance.BlankSource text.toList →
        run (directory.put file (Text.returnedText text).toUTF8).read environment arguments =
          run directory.read environment arguments := by
  refine ⟨fun named => exists_classifies config named, ?_⟩
  intro environment arguments asked
  refine ⟨fun read unusable => ?_, ?_, fun directory file text held noReturn told =>
    run_put_withReturns asked held noReturn told⟩
  · rcases readFailure_of_unusable unusable with ⟨problem, failed⟩
    rw [run_of_classifies asked, failed]
    have failure : (1 : UInt32) ≠ 0 := by decide
    exact ⟨failure, rfl⟩
  · intro read failure files gives named held
    subst named
    have given := readFailure_of_gives gives held
    have answer := run_of_readFailure asked given
    refine ⟨answer, fun selfTold => ?_, fun lacking => ⟨?_, fun some silent => ?_⟩,
      fun other inputs => ⟨fun kept => ?_, fun path text asks noReturn returned blank => ?_⟩⟩
    · have same : (failure.withFiles files).verdict config.logTailLines =
          failure.verdict config.logTailLines :=
        Failure.verdict_withFiles_of_selfContained selfTold
      rw [answer, Failure.ofFailure_congr same]
    · intro front file back diagnostic parts silent told
      rw [answer, Failure.ofFailure_withFiles_of_told lacking parts silent told]
    · rw [answer, Failure.ofFailure_withFiles_of_silent lacking some silent]
      rfl
    · refine run_returned asked inputs fun found readFound path asks => ?_
      cases given.symm.trans readFound
      rcases kept path asks with ⟨returned, told⟩
      exact returned.ofFile?_eq told
    · rcases exists_return_of_blankSource asks noReturn returned blank with
        ⟨diagnostic, source, told⟩
      have read := (readFailure_returned inputs).trans given
      exact ⟨diagnostic, source, by rw [run_of_readFailure asked read, told]⟩

def routesLog : String :=
  "[error] routes.scala:4: not found: Home\n[error] val x = Home\n[error]         ^\n"

def routesFile : String :=
  "// @SOURCE:conf/routes\n\n// @LINE:7\nval x = Home\n"

/-- The log explains a failure of which nothing else is known, with either line ends. -/
theorem run_rewritten_routesLog :
    let log : Path := ⟨"build.log"⟩
    let directory : Directory :=
      ⟨[(log.names, routesLog.toUTF8), (["routes.scala".toList], routesFile.toUTF8)]⟩
    let arguments := ["classify", "--log", "build.log"]
    let told : Answer := printed (.failure (.compileErrors
      [⟨"not found: Home", .error, ⟨some "conf/routes", some 7, none⟩⟩]))
    Classifies (fun _ => none) arguments {} none [log] ∧
      directory.files.lookup log.names = some routesLog.toUTF8 ∧ '\r' ∉ routesLog.toList ∧
      ¬ Provenance.BlankSource routesLog.toList ∧
      ¬ Failure.SelfContained {} (Reader.texts directory.read) {} ∧
      run directory.read (fun _ => none) arguments = told ∧
      run (directory.put log (Text.returnedText routesLog).toUTF8).read (fun _ => none) arguments =
        told := by
  intro log directory arguments told
  have asked : Classifies (fun _ => none) arguments {} none [log] := ⟨{}, by decide, by decide⟩
  have held : directory.files.lookup log.names = some routesLog.toUTF8 := List.lookup_cons_self
  have noReturn : '\r' ∉ routesLog.toList := by decide
  have inked : ¬ Provenance.BlankSource routesLog.toList :=
    (Provenance.ofText?_withReturns_eq_iff noReturn).mp (by decide +kernel)
  have lacking : ¬ Failure.SelfContained {} (Reader.texts directory.read) {} := by
    have unexpected : (Report.ofFailure {} (Reader.texts directory.read) {}).Unexpected :=
      ⟨_, _, rfl⟩
    simp [Failure.SelfContained, unexpected]
  have recovered : Log.recover? none (ConsoleLog.ofFile (log, routesLog)).lines =
      some ⟨"not found: Home", .error, ⟨some "routes.scala", some 4, some 8⟩⟩ := by
    decide +kernel
  have moved : Diagnostic.reported {} (Reader.texts directory.read)
      ⟨"not found: Home", .error, ⟨some "routes.scala", some 4, some 8⟩⟩ =
        ⟨"not found: Home", .error, ⟨some "conf/routes", some 7, none⟩⟩ := by
    decide +kernel
  rcases (run_classification {} none [log]).2 _ arguments asked with ⟨_, answers, rewritten⟩
  have read : ∀ file ∈ [(log, routesLog)], directory.read file.1 = .ok file.2 :=
    List.forall_mem_singleton.mpr (by decide +kernel)
  rcases answers directory.read {} [(log, routesLog)] .nothing rfl read with ⟨_, _, others, _⟩
  have first := (others lacking).1 [] (log, routesLog) [] _ rfl (by simp) recovered
  rw [moved] at first
  exact ⟨asked, held, noReturn, inked, lacking, first,
    (rewritten directory log routesLog held noReturn inked).trans first⟩

/-- The log of a task that tells an error in a file with the name of the log, and claims itself to
be generated from a file without a name. -/
def selfNaming : String :=
  "[error] a.java:1: x\n[error] ^\n-- GENERATED --\nSOURCE:\n"

theorem run_of_log {log : Path} {text : String} {diagnostic : Diagnostic}
    (asked : Classifies environment arguments config none [log]) (held : read log = .ok text)
    (told : Log.recover? config.logTailLines (ConsoleLog.ofFile (log, text)).lines =
      some diagnostic) :
    run read environment arguments =
      printed (.failure (.compileErrors [diagnostic.reported config read.texts])) := by
  have heldAll : ∀ file ∈ [(log, text)], read file.1 = .ok file.2 := by simpa using held
  have given := readFailure_of_gives (.nothing : Gives read none {}) heldAll
  have found : (Failure.withFiles {} [(log, text)]).recovered? config.logTailLines =
      some diagnostic := by
    rw [Failure.recovered?_withFiles, List.findSome?_singleton, told]
    rfl
  rw [run_of_readFailure asked given, Failure.ofFailure_of_found (.inl rfl) rfl found]

/-- With carriage returns the log tells the same error, but the file is a generated one. -/
theorem run_rewritten_selfNaming :
    let log : Path := ⟨"a.java"⟩
    let directory : Directory := ⟨[(log.names, selfNaming.toUTF8)]⟩
    let other := directory.put log (Text.returnedText selfNaming).toUTF8
    let arguments := ["classify", "--log", "a.java"]
    Classifies (fun _ => none) arguments {} none [log] ∧ '\r' ∉ selfNaming.toList ∧
      directory.read log = .ok selfNaming ∧ other.read log = .ok (Text.returnedText selfNaming) ∧
      run other.read (fun _ => none) arguments ≠ run directory.read (fun _ => none) arguments := by
  intro log directory other arguments
  have asked : Classifies (fun _ => none) arguments {} none [log] := ⟨{}, by decide, by decide⟩
  have held : directory.read log = .ok selfNaming := by decide +kernel
  have otherHeld : other.read log = .ok (Text.returnedText selfNaming) := by decide +kernel
  refine ⟨asked, by decide, held, otherHeld, fun same => ?_⟩
  have told : Log.recover? none (ConsoleLog.ofFile (log, selfNaming)).lines =
      some ⟨"x", .error, ⟨some "a.java", some 1, some 0⟩⟩ := by
    decide +kernel
  have otherTold : Log.recover? none (ConsoleLog.ofFile (log, Text.returnedText selfNaming)).lines =
      some ⟨"x", .error, ⟨some "a.java", some 1, some 0⟩⟩ := by
    decide +kernel
  have moved : Diagnostic.reported {} (Reader.texts other.read)
      ⟨"x", .error, ⟨some "a.java", some 1, some 0⟩⟩ = ⟨"x", .error, ⟨some "\r", none, none⟩⟩ := by
    decide +kernel
  have kept : Diagnostic.reported {} (Reader.texts directory.read)
      ⟨"x", .error, ⟨some "a.java", some 1, some 0⟩⟩ =
        ⟨"x", .error, ⟨some "a.java", some 1, some 0⟩⟩ := by
    decide +kernel
  rw [run_of_log asked otherHeld otherTold, run_of_log asked held told, moved, kept] at same
  exact absurd (printed_injective same) (by decide)

end running
end Command
end ReloadReport
