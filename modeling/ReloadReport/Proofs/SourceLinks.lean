import ReloadReport.Analysis
import ReloadReport.Proofs.ByName
import ReloadReport.Proofs.Origin.Resolution
import ReloadReport.Proofs.Text.ByteOrder

/-!
# Links of an analysis

Which units of an analysis are linked, where their links lead, and which error is told where an
origin cannot be resolved. Of the calls that add units the last one for a name counts, and of its
origins the first.
-/

namespace ReloadReport

namespace Analysis

open Text (utf8)

def ofClasses (classes : List (String × List Descriptor)) : Analysis :=
  classes.foldl (fun analysis (name, origins) => analysis.withClass name origins) {}

/-- The first origin that is stated for a unit when it is added for the last time. -/
def FirstStated (classes : List (String × List Descriptor)) (name : String)
    (stated : Descriptor) : Prop :=
  ∃ others, ByName.LastGiven classes name (stated :: others)

def Spoils (classes : List (String × List Descriptor)) (name : String)
    (problem : OriginError) : Prop :=
  ∃ stated, FirstStated classes name stated ∧ stated.Fails problem

/-- The link of a unit leads to the path of its first origin, and to the author's file where the
file at that path was generated. -/
def Links (read : Path → Option String) (classes : List (String × List Descriptor))
    (name : String) (link : SourceLink) : Prop :=
  ∃ stated, FirstStated classes name stated ∧ stated.Leads (some link.resolvedPath) ∧
    link.authoredPath = (Provenance.ofFile? read link.resolvedPath).map Provenance.source

/-- Every origin that comes first for a unit comes first for it elsewhere, up to values that it
does not need. -/
def Restated (classes others : List (String × List Descriptor)) : Prop :=
  ∀ name stated, FirstStated classes name stated →
    ∃ other, FirstStated others name other ∧ stated.Alike other

variable {read : Path → Option String} {classes others : List (String × List Descriptor)}
  {name : String} {problem : OriginError} {sources : SourceMap} {link : SourceLink}

section units

theorem classes_ofClasses (classes : List (String × List Descriptor)) :
    (ofClasses classes).classes = ByName.ofList classes := by
  have step : ∀ analysis : Analysis,
      (classes.foldl (fun analysis (name, origins) => analysis.withClass name origins)
        analysis).classes =
      classes.foldl (fun values (name, origins) => values.insert name origins)
        analysis.classes := by
    induction classes with
    | nil => exact fun analysis => rfl
    | cons head rest induction => exact fun analysis => induction (analysis.withClass head.1 head.2)
  exact step {}

theorem ofClasses_entries (analysis : Analysis) :
    ofClasses analysis.classes.entries = analysis := by
  have same := (classes_ofClasses analysis.classes.entries).trans
    (ByName.ofList_entries analysis.classes)
  rcases analysis with ⟨classes⟩
  exact congrArg Analysis.mk same

theorem find?_classes_ofClasses {origins : List Descriptor} :
    (ofClasses classes).classes.find? name = some origins ↔
      ByName.LastGiven classes name origins := by
  rw [classes_ofClasses, ByName.find?_ofList_eq_some_iff]

end units

section origins

theorem ofOrigins_eq_error_iff {origins : List Descriptor} :
    SourceLink.ofOrigins read origins = .error problem ↔
      ∃ stated rest, origins = stated :: rest ∧ stated.Fails problem := by
  cases origins with
  | nil => simp [SourceLink.ofOrigins]
  | cons stated rest =>
      have fails : SourceLink.ofOrigins read (stated :: rest) = .error problem ↔
          stated.path? = .error problem := by
        cases resolved : stated.path? <;> simp [SourceLink.ofOrigins, resolved, Except.map]
      rw [fails, Descriptor.path?_eq_error_iff]
      simp

theorem ofOrigins_eq_ok_some_iff {origins : List Descriptor} :
    SourceLink.ofOrigins read origins = .ok (some link) ↔
      ∃ stated rest, origins = stated :: rest ∧ stated.Leads (some link.resolvedPath) ∧
        link.authoredPath =
          (Provenance.ofFile? read link.resolvedPath).map Provenance.source := by
  cases origins with
  | nil => simp [SourceLink.ofOrigins]
  | cons stated rest =>
      have leads : SourceLink.ofOrigins read (stated :: rest) = .ok (some link) ↔
          ∃ path, stated.path? = .ok (some path) ∧ SourceLink.ofPath read path = link := by
        cases resolved : stated.path? <;>
          simp [SourceLink.ofOrigins, resolved, Except.map, Option.map_eq_some_iff]
      rw [leads]
      constructor
      · intro linked
        rcases linked with ⟨path, resolved, rfl⟩
        exact ⟨stated, rest, rfl, Descriptor.path?_eq_ok_iff.mp resolved, rfl⟩
      · intro linked
        rcases linked with ⟨_, _, same, leads, authored⟩
        cases same
        refine ⟨link.resolvedPath, Descriptor.path?_eq_ok_iff.mpr leads, ?_⟩
        rw [SourceLink.ofPath, ← authored]

end origins

section sourceMap

theorem exists_ofOrigins_error_iff (read : Path → Option String) :
    (∃ origins, (ofClasses classes).classes.find? name = some origins ∧
      SourceLink.ofOrigins read origins = .error problem) ↔ Spoils classes name problem := by
  simp only [find?_classes_ofClasses, ofOrigins_eq_error_iff]
  constructor
  · intro spoils
    rcases spoils with ⟨_, given, stated, rest, rfl, fails⟩
    exact ⟨stated, ⟨rest, given⟩, fails⟩
  · intro spoils
    rcases spoils with ⟨stated, ⟨rest, given⟩, fails⟩
    exact ⟨_, given, stated, rest, rfl, fails⟩

theorem exists_ofOrigins_ok_iff :
    (∃ origins, (ofClasses classes).classes.find? name = some origins ∧
      SourceLink.ofOrigins read origins = .ok (some link)) ↔ Links read classes name link := by
  simp only [find?_classes_ofClasses, ofOrigins_eq_ok_some_iff]
  constructor
  · intro linked
    rcases linked with ⟨_, given, stated, rest, rfl, leads, authored⟩
    exact ⟨stated, ⟨rest, given⟩, leads, authored⟩
  · intro linked
    rcases linked with ⟨stated, ⟨rest, given⟩, leads, authored⟩
    exact ⟨_, given, stated, rest, rfl, leads, authored⟩

theorem sourceMap_eq_error_iff :
    (ofClasses classes).sourceMap read = .error problem ↔
      ∃ name, Spoils classes name problem ∧
        ∀ other otherProblem, Spoils classes other otherProblem → utf8 name ≤ utf8 other := by
  rw [sourceMap, ByName.traverse_eq_error_iff]
  simp only [← exists_ofOrigins_error_iff read, Text.utf8_le_iff]
  constructor
  · intro failed
    rcases failed with ⟨name, origins, given, fails, smallest⟩
    refine ⟨name, ⟨origins, given, fails⟩, fun other otherProblem spoils => ?_⟩
    rcases spoils with ⟨held, otherGiven, otherFails⟩
    exact smallest other held otherProblem otherGiven otherFails
  · intro failed
    rcases failed with ⟨name, ⟨origins, given, fails⟩, smallest⟩
    exact ⟨name, origins, given, fails, fun other held otherProblem otherGiven otherFails =>
      smallest other otherProblem ⟨held, otherGiven, otherFails⟩⟩

theorem not_spoils_of_sourceMap_ok (done : (ofClasses classes).sourceMap read = .ok sources) :
    ¬ Spoils classes name problem := by
  rw [← exists_ofOrigins_error_iff read]
  intro spoils
  rcases spoils with ⟨origins, given, fails⟩
  rcases ByName.exists_ok_of_traverse_ok done given with ⟨found, passed⟩
  cases passed.symm.trans fails

theorem find?_of_sourceMap_ok (done : (ofClasses classes).sourceMap read = .ok sources) :
    sources.find? name = some link ↔ Links read classes name link := by
  rw [ByName.find?_of_traverse_ok done, exists_ofOrigins_ok_iff]

theorem isSome_find?_of_sourceMap_ok (done : (ofClasses classes).sourceMap read = .ok sources) :
    (sources.find? name).isSome ↔ ∃ stated, FirstStated classes name stated ∧
      stated.kind ≠ "none" := by
  simp only [Option.isSome_iff_exists, find?_of_sourceMap_ok done]
  constructor
  · intro linked
    rcases linked with ⟨link, stated, first, leads, _⟩
    exact ⟨stated, first, fun kind => nomatch leads.kind_eq_none_iff.mp kind⟩
  · intro stated
    rcases stated with ⟨stated, first, known⟩
    rcases stated.leads_or_fails with ⟨path, leads⟩ | ⟨problem, fails⟩
    · cases path with
      | none => exact absurd (leads.kind_eq_none_iff.mpr rfl) known
      | some path => exact ⟨SourceLink.ofPath read path, stated, first, leads, rfl⟩
    · exact absurd ⟨stated, first, fails⟩ (not_spoils_of_sourceMap_ok done)

theorem exists_sourceMap_error_iff :
    (∃ problem, (ofClasses classes).sourceMap read = .error problem) ↔
      ∃ name problem, Spoils classes name problem := by
  constructor
  · intro failed
    rcases failed with ⟨problem, failed⟩
    rcases sourceMap_eq_error_iff.mp failed with ⟨name, spoils, _⟩
    exact ⟨name, problem, spoils⟩
  · intro spoils
    rcases spoils with ⟨name, problem, spoils⟩
    cases done : (ofClasses classes).sourceMap read with
    | error problem => exact ⟨problem, rfl⟩
    | ok sources => exact absurd spoils (not_spoils_of_sourceMap_ok done)

end sourceMap

section added

theorem sourceMap_withClass_congr (analysis : Analysis) (name : String)
    {origins respelled : List Descriptor}
    (same : SourceLink.ofOrigins read origins = SourceLink.ofOrigins read respelled) :
    (analysis.withClass name origins).sourceMap read =
      (analysis.withClass name respelled).sourceMap read :=
  ByName.traverse_insert_congr analysis.classes name same

theorem find?_sourceMap_withClass {analysis : Analysis} {origins : List Descriptor}
    (leads : SourceLink.ofOrigins read origins = .ok (some link))
    (done : (analysis.withClass name origins).sourceMap read = .ok sources) :
    sources.find? name = some link := by
  have held : (analysis.withClass name origins).classes.find? name = some origins := by
    rw [withClass, ByName.find?_insert, if_pos rfl]
  exact (ByName.find?_of_traverse_ok done).mpr ⟨origins, held, leads⟩

end added

section restated

theorem Restated.spoils (restated : Restated classes others)
    (spoils : Spoils classes name problem) : Spoils others name problem := by
  rcases spoils with ⟨stated, first, fails⟩
  rcases restated name stated first with ⟨other, otherFirst, alike⟩
  exact ⟨other, otherFirst, alike.fails fails⟩

theorem Restated.links (restated : Restated classes others) (links : Links read classes name link) :
    Links read others name link := by
  rcases links with ⟨stated, first, leads, authored⟩
  rcases restated name stated first with ⟨other, otherFirst, alike⟩
  exact ⟨other, otherFirst, alike.leads leads, authored⟩

theorem sourceMap_congr (restated : Restated classes others) (back : Restated others classes) :
    (ofClasses others).sourceMap read = (ofClasses classes).sourceMap read := by
  apply ByName.traverse_congr
  · intro name problem
    rw [exists_ofOrigins_error_iff, exists_ofOrigins_error_iff]
    exact ⟨back.spoils, restated.spoils⟩
  · intro name link
    rw [exists_ofOrigins_ok_iff, exists_ofOrigins_ok_iff]
    exact ⟨back.links, restated.links⟩

end restated

/-- The links of an analysis fail where the first origin of some unit does, with the problem of the
unit whose name has the smallest bytes. Otherwise the linked units are those whose first origin
leads to a path. However the analysis came about, only the first origins count, as they were stated
last, and of them only the values that they need. -/
theorem sourceMap_eq_error_or_links (read : Path → Option String) (analysis : Analysis) :
    (∃ classes, ofClasses classes = analysis) ∧
      ∀ classes, ofClasses classes = analysis →
        ((∃ problem, analysis.sourceMap read = .error problem) ↔
            ∃ name problem, Spoils classes name problem) ∧
          (∀ problem, analysis.sourceMap read = .error problem ↔
            ∃ name, Spoils classes name problem ∧
              ∀ other otherProblem, Spoils classes other otherProblem → utf8 name ≤ utf8 other) ∧
          (∀ sources, analysis.sourceMap read = .ok sources →
            (∀ name, (sources.find? name).isSome ↔
              ∃ stated, FirstStated classes name stated ∧ stated.kind ≠ "none") ∧
            ∀ name link, sources.find? name = some link ↔ Links read classes name link) ∧
          ∀ others, Restated classes others → Restated others classes →
            (ofClasses others).sourceMap read = analysis.sourceMap read := by
  refine ⟨⟨_, ofClasses_entries analysis⟩, ?_⟩
  rintro classes rfl
  exact ⟨exists_sourceMap_error_iff, fun _ => sourceMap_eq_error_iff,
    fun _ done =>
      ⟨fun _ => isSome_find?_of_sourceMap_ok done, fun _ _ => find?_of_sourceMap_ok done⟩,
    fun _ => sourceMap_congr⟩

end Analysis
end ReloadReport
