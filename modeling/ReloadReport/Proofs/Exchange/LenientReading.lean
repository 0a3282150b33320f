import Mathlib.Logic.Relation
import ReloadReport.Proofs.Exchange.ReadBack
import ReloadReport.Proofs.Exchange.Shapes
import ReloadReport.Proofs.Json.MapEntries
import ReloadReport.Proofs.Json.Spacing

/-!
# Lenient reading

What does not matter in the texts that are exchanged: white space, the order of members, and members
that no record knows. Members that a record knows may not be repeated, and of the entries of a map
with the same name the last one counts.
-/

namespace ReloadReport

open Json (Changed Repeats KeepsTo Shape parse?)

/-- Texts are read by their shape. White space between tokens does not matter. Nothing that was read
is lost by any number of changes that the shape allows, and nothing is read where a known member is
repeated. -/
structure Lenient (shape : Shape) (read : Json → Option α) : Prop where
  spaced : ∀ {text spaced : String}, Json.Token.Spaced text.toList spaced.toList →
    (parse? spaced).bind read = (parse? text).bind read
  changed : ∀ {text other : String} {value changed : Json} {result : α},
    parse? text = some value → parse? other = some changed →
    Relation.ReflTransGen (Changed .plain shape) value changed →
    (parse? text).bind read = some result → (parse? other).bind read = some result
  repeated : ∀ {text : String} {value : Json}, parse? text = some value →
    Repeats .plain shape value → (parse? text).bind read = none

theorem Json.KeepsTo.lenient {shape : Shape} {read : Json → Option α}
    (keeps : KeepsTo .plain shape read) : Lenient shape read where
  spaced isSpaced := by rw [parse?_spaced isSpaced]
  changed {text other value changed result} parsed otherParsed changes reads := by
    rw [parsed, Option.bind_some] at reads
    rw [otherParsed, Option.bind_some]
    clear otherParsed
    -- By induction on the changes: each value on the way is read as the first one.
    induction changes with
    | refl => exact reads
    | tail _ change induction => exact keeps.changed change induction
  repeated parsed repeats := by
    rw [parsed, Option.bind_some, keeps.repeated repeats]

section maps

open Json

variable {value other entry : Json} {front back : List (String × Json)} {key : String}

theorem Analysis.ofJson?_insertClass {analysis : Analysis} {stated : List Descriptor}
    (replaced : Replaced "classes" 0 (.object (front ++ back))
      (.object (front ++ (key, entry) :: back)) value other)
    (reads : Analysis.ofJson? value = some analysis)
    (entryReads : listOf? Descriptor.ofJson? entry = some stated) :
    ∃ result, Analysis.ofJson? other = some result ∧ ∀ name, result.classes.find? name =
      if name = key ∧ key ∉ back.map Prod.fst then some stated else analysis.classes.find? name := by
  rcases Option.bind_eq_some_iff.mp reads with ⟨record, given, reads⟩
  rcases Option.bind_eq_some_iff.mp reads with ⟨classes, classesRead, reads⟩
  cases reads
  have place : [("classes", Shape.map (.list Descriptor.shape))][0]? = some ("classes", _) := rfl
  rcases Record.ofJson?_replaced place rfl (by decide) replaced given with
    ⟨first, last, fresh, rfl, otherGiven⟩
  rw [Record.defaulted, Record.find?_append_cons fresh] at classesRead
  rcases map?_insert classesRead entryReads with ⟨others, othersRead, found⟩
  refine ⟨{ classes := others }, ?_, found⟩
  rw [Analysis.ofJson?, otherGiven]
  simp [Record.defaulted, Record.find?_append_cons fresh, othersRead]

theorem Report.ofJson?_eq_success_iff {sources : SourceMap} {classpath : List Path} :
    Report.ofJson? value = some (.success sources classpath) ↔ ∃ rest record,
      tagged? "outcome" ["success", "failure"] .plain value = some ("success", rest) ∧
      Record.ofJson? [⟨"sources", false⟩, ⟨"classpath", false⟩] rest = some record ∧
      record.required "sources" (map? SourceLink.ofJson?) = some sources ∧
      record.required "classpath" (listOf? Path.ofJson?) = some classpath := by
  constructor
  · intro reads
    rcases Option.bind_eq_some_iff.mp reads with ⟨⟨kind, rest⟩, found, reads⟩
    dsimp only at reads
    split at reads
    next isSuccess =>
      subst isSuccess
      rcases Option.bind_eq_some_iff.mp reads with ⟨record, given, reads⟩
      rcases Option.bind_eq_some_iff.mp reads with ⟨_, sourcesRead, reads⟩
      rcases Option.bind_eq_some_iff.mp reads with ⟨_, classpathRead, reads⟩
      cases reads
      exact ⟨rest, record, found, given, sourcesRead, classpathRead⟩
    next =>
      split at reads
      next =>
        rcases Option.bind_eq_some_iff.mp reads with ⟨_, _, reads⟩
        rcases Option.bind_eq_some_iff.mp reads with ⟨_, _, reads⟩
        cases reads
      next => cases reads
  · rintro ⟨rest, record, found, given, sourcesRead, classpathRead⟩
    simp [Report.ofJson?, found, given, sourcesRead, classpathRead]

theorem Report.ofJson?_insertSource {sources : SourceMap} {classpath : List Path}
    {link : SourceLink}
    (replaced : Replaced "sources" 1 (.object (front ++ back))
      (.object (front ++ (key, entry) :: back)) value other)
    (reads : Report.ofJson? value = some (.success sources classpath))
    (legible : entry.isLegible) (entryReads : SourceLink.ofJson? entry = some link) :
    ∃ others, Report.ofJson? other = some (.success others classpath) ∧
      ∀ name, others.find? name =
        if name = key ∧ key ∉ back.map Prod.fst then some link else sources.find? name := by
  rcases Report.ofJson?_eq_success_iff.mp reads with
    ⟨rest, record, found, recordGiven, sourcesRead, classpathRead⟩
  rcases tagged?_eq_some_iff.mp found with ⟨valueLegible, given, split, named⟩
  rcases splitTag?_replaced (by decide) replaced split with ⟨otherRest, otherSplit, restReplaced⟩
  have otherLegible : other.isLegible := by
    refine replaced.isLegible valueLegible fun mapLegible => ?_
    rw [isLegible_object, List.forall_mem_append] at mapLegible ⊢
    exact ⟨mapLegible.1, List.forall_mem_cons.mpr ⟨legible, mapLegible.2⟩⟩
  have otherFound := tagged?_eq_some_iff.mpr ⟨otherLegible, given, otherSplit, named⟩
  have place : [("sources", Shape.map SourceLink.shape), ("classpath", Shape.list .whole)][0]? =
      some ("sources", _) := rfl
  rcases Record.ofJson?_replaced place rfl (by decide) restReplaced recordGiven with
    ⟨first, last, fresh, rfl, otherGiven⟩
  have notSources : "classpath" ≠ "sources" := by decide
  rw [Record.required, Record.find?_append_cons fresh, Option.bind_some] at sourcesRead
  rw [Record.required, Record.find?_append_cons_of_ne notSources] at classpathRead
  rcases map?_insert sourcesRead entryReads with ⟨others, othersRead, lookedUp⟩
  refine ⟨others, Report.ofJson?_eq_success_iff.mpr
    ⟨otherRest, _, otherFound, otherGiven, ?_, ?_⟩, lookedUp⟩
  · rw [Record.required, Record.find?_append_cons fresh, Option.bind_some, othersRead]
  · rw [Record.required, Record.find?_append_cons_of_ne notSources, classpathRead]

end maps

/-- Everything that is exchanged is read leniently. What a tagged record passes over has to be
legible, as a value is whose strings spell texts, whose numbers are integers of 64 bits and whose
arrays and objects do not stand too deep. In the two maps, one more entry leads its name to its
value, unless a later entry has the name. -/
theorem exchanged_lenient :
    Lenient Origin.shape Origin.ofJson? ∧
    Lenient Descriptor.shape Descriptor.ofJson? ∧
    Lenient Analysis.shape Analysis.ofJson? ∧
    Lenient SourceLink.shape SourceLink.ofJson? ∧
    Lenient Provenance.shape Provenance.ofJson? ∧
    Lenient .whole (Severity.ofJson? .plain) ∧
    Lenient Position.shape Position.ofJson? ∧
    Lenient Diagnostic.shape (Diagnostic.ofJson? .plain) ∧
    Lenient Log.Draft.shape Log.Draft.ofJson? ∧
    Lenient ApplicationError.shape ApplicationError.ofJson? ∧
    Lenient Cause.shape (Cause.ofJson? .plain) ∧
    Lenient ConsoleLog.shape ConsoleLog.ofJson? ∧
    Lenient Failure.shape Failure.ofJson? ∧
    Lenient Verdict.shape (Verdict.ofJson? .plain) ∧
    Lenient Settings.shape Settings.ofJson? ∧
    Lenient Report.shape Report.ofJson? ∧
    (∀ (depth : Nat) (value : Json), Json.Sound depth value →
      (Json.limited depth value).isLegible) ∧
    (∀ (text other : String) (value changed entry : Json) (front back : List (String × Json))
      (key : String) (analysis : Analysis) (stated : List Descriptor),
      parse? text = some value → parse? other = some changed →
      Json.Replaced "classes" 0 (.object (front ++ back))
        (.object (front ++ (key, entry) :: back)) value changed →
      (parse? text).bind Analysis.ofJson? = some analysis →
      Json.listOf? Descriptor.ofJson? entry = some stated →
      ∃ result, (parse? other).bind Analysis.ofJson? = some result ∧
        ∀ name, result.classes.find? name =
          if name = key ∧ key ∉ back.map Prod.fst then some stated
          else analysis.classes.find? name) ∧
    ∀ (text other : String) (value changed entry : Json) (front back : List (String × Json))
      (key : String) (sources : SourceMap) (classpath : List Path) (link : SourceLink),
      parse? text = some value → parse? other = some changed →
      Json.Replaced "sources" 1 (.object (front ++ back))
        (.object (front ++ (key, entry) :: back)) value changed →
      (parse? text).bind Report.ofJson? = some (.success sources classpath) →
      entry.isLegible → SourceLink.ofJson? entry = some link →
      ∃ others, (parse? other).bind Report.ofJson? = some (.success others classpath) ∧
        ∀ name, others.find? name =
          if name = key ∧ key ∉ back.map Prod.fst then some link else sources.find? name := by
  refine ⟨Origin.keepsTo.lenient, Descriptor.keepsTo.lenient, Analysis.keepsTo.lenient,
    SourceLink.keepsTo.lenient, Provenance.keepsTo.lenient, Severity.keepsTo.lenient,
    Position.keepsTo.lenient, Diagnostic.keepsTo.lenient, Log.Draft.keepsTo.lenient,
    ApplicationError.keepsTo.lenient, Cause.keepsTo.lenient, ConsoleLog.keepsTo.lenient,
    Failure.keepsTo.lenient, Verdict.keepsTo.lenient, Settings.keepsTo.lenient,
    Report.keepsTo.lenient, fun depth value sound => ?_, ?_, ?_⟩
  · rw [sound.limited_eq]
    exact sound.isLegible
  · intro text other value changed entry front back key analysis stated parsed otherParsed replaced
      reads entryReads
    rw [parsed] at reads
    rw [otherParsed]
    exact Analysis.ofJson?_insertClass replaced reads entryReads
  · intro text other value changed entry front back key sources classpath link parsed otherParsed
      replaced reads legible entryReads
    rw [parsed] at reads
    rw [otherParsed]
    exact Report.ofJson?_insertSource replaced reads legible entryReads

/-- The tag comes last, between spaces, and a member before it is passed over. -/
example : (parse? "\x7b \"z\" : [ ],\"id\":\"a\" , \"kind\": \"virtual_file_absolute\" \x7d").bind
    Origin.ofJson? = some (.absoluteFile "a") := by
  decide +kernel

def Json.nestedArrays : Nat → Json
  | 0 => .array []
  | depth + 1 => .array [nestedArrays depth]

section nested

open Json

theorem Json.wellSpelled_nestedArrays (depth : Nat) : WellSpelled (nestedArrays depth) := by
  induction depth with
  | zero => trivial
  | succ depth induction => exact ⟨induction, trivial⟩

theorem Json.not_isLegible_nestedArrays (depth : Nat) :
    isLegible (limited depth (nestedArrays depth)) = false := by
  induction depth with
  | zero => simp [nestedArrays, limited, isLegible]
  | succ depth induction =>
      simp [nestedArrays, limited, limitedItems, isLegible, areLegible, induction]

/-- An unknown member of a tagged record is not passed over where it has too many arrays in each
other, or half of a surrogate pair. A name with half of one is not passed over in any record. -/
theorem Origin.ofJson?_unknownIllegible :
    let origin := Json.object [("kind", .string "none")]
    let extended := Json.object [("kind", .string "none"), ("z", nestedArrays 126)]
    ofText? extended.compact.toList = some extended ∧
      (parse? origin.compact).bind Origin.ofJson? = some .none ∧
      (parse? extended.compact).bind Origin.ofJson? = Option.none ∧
      (parse? "\x7b\"kind\":\"none\",\"z\":\"\\ud800\"\x7d").bind Origin.ofJson? = Option.none ∧
      (parse? "\x7b\"line\":7\x7d").bind Position.ofJson? = some { line := some 7 } ∧
      (parse? "\x7b\"line\":7,\"\\ud800\":0\x7d").bind Position.ofJson? = Option.none := by
  intro origin extended
  have wellSpelled : WellSpelled extended := ⟨trivial, wellSpelled_nestedArrays 126, trivial⟩
  have spelled : ofText? extended.compact.toList = some extended := by
    rw [Json.compact, String.toList_ofList, ofText?_write Option.none wellSpelled]
  refine ⟨spelled, (readsBack_of_sound (Origin.none.sound 0) (by decide)
    Origin.none.ofJson?_toJson).1, ?_, by decide +kernel, by decide +kernel, by decide +kernel⟩
  have illegible : (limited maxDepth extended).isLegible = false := by
    simp [extended, maxDepth, limited, limitedMembers, limitedMember, isLegible, membersLegible,
      memberLegible, not_isLegible_nestedArrays]
  simp [parse?, spelled, Origin.ofJson?, tagged?, illegible]

end nested

end ReloadReport
