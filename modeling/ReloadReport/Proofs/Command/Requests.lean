import ReloadReport.Command.Run
import ReloadReport.Proofs.Text.Numeral
import ReloadReport.Proofs.Text.Search
import ReloadReport.Proofs.Text.Span

/-!
# Requests for a classification

Every failure file and every list of logs can be asked for under all settings, which arguments and
the environment make together.
-/

namespace ReloadReport.Command

/-- The arguments and the environment ask to classify a failure with further logs, under some
settings. -/
def Classifies (environment : Environment) (arguments : List String) (config : Settings)
    (failureFile : Option Path) (logs : List Path) : Prop :=
  ∃ overrides, request? arguments = some (.report overrides (.classify failureFile logs)) ∧
    settings environment overrides = config

def pathOption (name : String) (path : Path) : String :=
  name ++ "=" ++ path.text

def classifyOptions (failureFile : Option Path) (logs : List Path) : List (String × Path) :=
  failureFile.toList.map ("--failure", ·) ++ logs.map ("--log", ·)

def classifyArguments (failureFile : Option Path) (logs : List Path) : List String :=
  "classify" :: (classifyOptions failureFile logs).map fun option => pathOption option.1 option.2

def environmentOf (config : Settings) : Environment := fun name =>
  if name = "RELOAD_REMAP_GENERATED" then if config.remapGenerated then none else some "0"
  else if name = "RELOAD_LOG_TAIL_LINES" then
    config.logTailLines.map fun count => String.ofList (Nat.toDigits 10 count.toNat)
  else none

section options

theorem joined?_pathOption {name : String} (noEquals : '=' ∉ name.toList) (path : Path) :
    joined? (pathOption name path) = some (name, path.text) := by
  have first := Text.FirstAt.of_notMem noEquals [] path.text.toList
  rw [joined?, pathOption, Option.map_eq_some_iff]
  exact ⟨_, Text.cutAtFirst?_eq_some_iff.mpr (by simpa using first), by simp⟩

theorem options?_pathOptions {options : List (String × Path)}
    (noEquals : ∀ option ∈ options, '=' ∉ option.1.toList) :
    options? (options.map fun option => pathOption option.1 option.2) =
      some (options.map fun option => (option.1, option.2.text)) := by
  induction options with
  | nil => rfl
  | cons option options induction =>
      rcases List.forall_mem_cons.mp noEquals with ⟨here, later⟩
      have joined := joined?_pathOption here option.2
      cases options with
      | nil =>
          have notEnd : pathOption option.1 option.2 ≠ "--" := by
            intro same
            have noOption : joined? "--" = none := by decide
            rw [same, noOption] at joined
            cases joined
          simp [options?, notEnd, joined]
      | cons next options =>
          have following := induction later
          rw [List.map_cons] at following
          rw [List.map_cons, List.map_cons, options?, joined]
          simp only [following]
          rfl

theorem valuesOf_classifyOptions (failureFile : Option Path) (logs : List Path) :
    let options := (classifyOptions failureFile logs).map fun option => (option.1, option.2.text)
    valuesOf "--failure" options = failureFile.toList ∧ valuesOf "--log" options = logs := by
  simp [valuesOf, classifyOptions, List.filterMap_map, Function.comp_def]

theorem request?_classifyArguments {failureFile : Option Path} {logs : List Path}
    (named : ∀ path ∈ failureFile.toList ++ logs, path.text ≠ "") :
    request? (classifyArguments failureFile logs) =
      some (.report {} (.classify failureFile logs)) := by
  have names : ∀ option ∈ classifyOptions failureFile logs,
      (option.1 = "--failure" ∨ option.1 = "--log") ∧ option.2.text ≠ "" := by
    intro option member
    rcases List.mem_append.mp member with inFailure | inLogs
    · rcases List.mem_map.mp inFailure with ⟨path, inside, rfl⟩
      exact ⟨.inl rfl, named path (List.mem_append_left logs inside)⟩
    · rcases List.mem_map.mp inLogs with ⟨path, inside, rfl⟩
      exact ⟨.inr rfl, named path (List.mem_append_right _ inside)⟩
  have noEquals : ∀ option ∈ classifyOptions failureFile logs, '=' ∉ option.1.toList := by
    intro option member
    rcases (names option member).1 with name | name
    · simp [name]
    · simp [name]
  have read := options?_pathOptions noEquals
  have paths : pathOptions? ["--failure", "--log"]
      ((classifyOptions failureFile logs).map fun option => pathOption option.1 option.2) =
        some ((classifyOptions failureFile logs).map fun option => (option.1, option.2.text)) := by
    rw [pathOptions?, read, Option.bind_some, if_pos]
    rw [List.all_map, List.all_eq_true]
    intro option member
    simpa using names option member
  have task : task? "classify"
      ((classifyOptions failureFile logs).map fun option => pathOption option.1 option.2) =
        some (.classify failureFile logs) := by
    have values := valuesOf_classifyOptions failureFile logs
    have word : "classify" ≠ "source-map" := by decide
    rw [task?, if_neg word, if_pos rfl, paths]
    cases failureFile <;> simp [values.1, values.2]
  have noVersion : asksVersion "classify" = false := by decide
  have noOption : joined? "classify" = none := by decide
  rw [request?, classifyArguments]
  cases arguments : (classifyOptions failureFile logs).map
      (fun option => pathOption option.1 option.2) with
  | nil =>
      rw [arguments] at task
      simp [requestAfter?, noVersion, task]
  | cons next rest =>
      rw [arguments] at task
      simp [requestAfter?, noVersion, noOption, task]

end options

section environments

theorem numeral64?_trim_toDigits (count : UInt64) :
    Text.numeral64? (Text.trim (Nat.toDigits 10 count.toNat)) = some count := by
  have spells := Text.spells_toDigits count.toNat
  have solid : ∀ c ∈ Nat.toDigits 10 count.toNat, Text.isBlank c = false := fun c member =>
    Text.not_isBlank_of_isDigit (spells.ascii c member)
  have whole : Text.trim (Nat.toDigits 10 count.toNat) = Nat.toDigits 10 count.toNat := by
    have noBlanks : ∀ c ∈ ([] : List Char), Text.isBlank c := by simp
    have trimmed := Text.trim_surrounded noBlanks noBlanks
      (fun c head => solid c (List.mem_of_mem_head? head))
      (fun c last => solid c (List.mem_of_mem_getLast? last))
    simpa using trimmed
  have read : Text.numeral? (Nat.toDigits 10 count.toNat) = some count.toNat :=
    Text.numeral?_eq_some_iff.mpr ⟨_, .inl rfl, spells⟩
  rw [whole, Text.numeral64?, read]
  exact Text.word64?_toNat count

theorem environmentOf_remap (config : Settings) :
    environmentOf config "RELOAD_REMAP_GENERATED" =
      if config.remapGenerated then none else some "0" :=
  if_pos rfl

theorem environmentOf_tail (config : Settings) :
    environmentOf config "RELOAD_LOG_TAIL_LINES" =
      config.logTailLines.map fun count => String.ofList (Nat.toDigits 10 count.toNat) := by
  have different : "RELOAD_LOG_TAIL_LINES" ≠ "RELOAD_REMAP_GENERATED" := by decide
  rw [environmentOf, if_neg different, if_pos rfl]

theorem settings_environmentOf (config : Settings) :
    settings (environmentOf config) {} = config := by
  have off : Settings.isOn "0" = false := by decide
  rw [settings, environmentOf_remap, environmentOf_tail]
  rcases config with ⟨remap, tail⟩
  cases remap <;> cases tail <;>
    simp [Settings.ofEnvironment, off, numeral64?_trim_toDigits]

theorem exists_classifies (config : Settings) {failureFile : Option Path} {logs : List Path}
    (named : ∀ path ∈ failureFile.toList ++ logs, path.text ≠ "") :
    ∃ environment arguments, Classifies environment arguments config failureFile logs :=
  ⟨environmentOf config, classifyArguments failureFile logs, {}, request?_classifyArguments named,
    settings_environmentOf config⟩

end environments
end ReloadReport.Command
