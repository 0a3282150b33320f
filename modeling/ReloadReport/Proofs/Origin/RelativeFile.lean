import ReloadReport.Proofs.Origin.Resolution
import ReloadReport.Proofs.Text.Pieces

/-!
# Relative files

Where the segments behind a base marker lead. A segment with a slash in front leads from the root,
and the segments before it are lost. From the last such segment on every name of every segment is
kept, so the path stays relative and whole where there is none.
-/

namespace ReloadReport
namespace Path

/-- The index of the segment from which a path leads: of the last one that leads from the root, or
of the first one where none does. -/
inductive LeadsFrom (segments : List String) : Nat → Prop where
  | root {segment : String} {index : Nat} (listed : segments[index]? = some segment)
      (rooted : (Path.mk segment).isAbsolute)
      (last : ∀ later ∈ segments.drop (index + 1), (Path.mk later).isAbsolute = false) :
      LeadsFrom segments index
  | here (unrooted : ∀ segment ∈ segments, (Path.mk segment).isAbsolute = false) :
      LeadsFrom segments 0

theorem exists_leadsFrom (segments : List String) : ∃ index, LeadsFrom segments index := by
  induction segments with
  | nil => exact ⟨0, .here (by simp)⟩
  | cons segment segments induction =>
      rcases induction with ⟨index, leads⟩
      cases leads with
      | root listed rooted last => exact ⟨index + 1, .root listed rooted last⟩
      | here unrooted =>
          cases start : (Path.mk segment).isAbsolute with
          | true => exact ⟨0, .root rfl start unrooted⟩
          | false => exact ⟨0, .here (List.forall_mem_cons.mpr ⟨start, unrooted⟩)⟩

variable {path front : Path} {segment : String} {segments : List String} {index : Nat}

/-! ## One segment -/

theorem pieces_of_parts (back : Path)
    (parts : path.text.toList = front.text.toList ++ '/' :: back.text.toList) :
    path.pieces = front.pieces ++ back.pieces := by
  rw [pieces, parts, Text.splitOn_append_cons, ← pieces, ← pieces]

theorem names_of_parts (back : Path)
    (parts : path.text.toList = front.text.toList ++ '/' :: back.text.toList) :
    path.names = front.names ++ back.names := by
  rw [names, pieces_of_parts back parts, List.filter_append, ← names, ← names]

theorem push_of_rooted (path : Path) (rooted : (Path.mk segment).isAbsolute) :
    path.push segment = ⟨segment⟩ := by
  rw [push, if_pos (of_decide_eq_true rooted)]

/-- One slash stands between a path and a segment behind it, which may be the one that the path has
at its end. -/
theorem push_of_relative (path : Path) (relative : (Path.mk segment).isAbsolute = false) :
    path = ⟨""⟩ ∧ path.push segment = ⟨segment⟩ ∨
      path ≠ ⟨""⟩ ∧ ∃ front : Path, (path = front ∨ path.text.toList = front.text.toList ++ ['/']) ∧
        (path.push segment).text.toList = front.text.toList ++ '/' :: segment.toList := by
  rcases path with ⟨text⟩
  rw [push, if_neg (of_decide_eq_false relative)]
  rcases List.eq_nil_or_concat text.toList with empty | ⟨front, last, parts⟩
  · have none : text = "" := String.toList_eq_nil_iff.mp empty
    subst none
    exact .inl ⟨rfl, by simp⟩
  · have some : Path.mk text ≠ ⟨""⟩ := by
      intro same
      cases same
      simp at parts
    refine .inr ⟨some, ?_⟩
    by_cases slash : last = '/'
    · refine ⟨⟨String.ofList front⟩, .inr (by simp [parts, slash]), ?_⟩
      simp [parts, slash]
    · refine ⟨⟨text⟩, .inl rfl, ?_⟩
      simp [parts, slash]

theorem isAbsolute_of_starts {longer : Path} (some : path ≠ ⟨""⟩)
    (starts : path.text.toList <+: longer.text.toList) : longer.isAbsolute = path.isAbsolute := by
  rcases starts with ⟨rest, same⟩
  rw [isAbsolute, isAbsolute, ← same, List.head?_append]
  cases head : path.text.toList.head? with
  | some c => rfl
  | none =>
      have empty : path.text = "" := String.toList_eq_nil_iff.mp (List.head?_eq_none_iff.mp head)
      exact absurd (congrArg Path.mk empty) some

theorem names_push (path : Path) (relative : (Path.mk segment).isAbsolute = false) :
    (path.push segment).names = path.names ++ (Path.mk segment).names := by
  rcases path.push_of_relative relative with ⟨rfl, pushed⟩ | ⟨_, front, ending, parts⟩
  · rw [pushed]
    rfl
  · have kept : path.names = front.names := by
      rcases ending with rfl | ending
      · rfl
      · have nameless : (Path.mk "").names = [] := rfl
        rw [names_of_parts ⟨""⟩ ending, nameless, List.append_nil]
    rw [names_of_parts ⟨segment⟩ parts, kept]

theorem isAbsolute_push (path : Path) (segment : String) :
    (path.push segment).isAbsolute ↔ path.isAbsolute ∨ (Path.mk segment).isAbsolute := by
  cases rooted : (Path.mk segment).isAbsolute with
  | true => simp [path.push_of_rooted rooted, rooted]
  | false =>
      rcases path.push_of_relative rooted with ⟨rfl, pushed⟩ | ⟨some, front, ending, parts⟩
      · rw [pushed, rooted]
        decide
      · have starts : path.text.toList <+: (path.push segment).text.toList := by
          rcases ending with rfl | ending
          · simp [parts]
          · simp [parts, ending]
        simp [isAbsolute_of_starts some starts]

/-! ## All segments -/

theorem names_foldl_push (relative : ∀ segment ∈ segments, (Path.mk segment).isAbsolute = false)
    (path : Path) : (segments.foldl push path).names =
      path.names ++ segments.flatMap fun segment => (Path.mk segment).names := by
  induction segments generalizing path with
  | nil => simp
  | cons segment segments induction =>
      rcases List.forall_mem_cons.mp relative with ⟨here, later⟩
      rw [List.foldl_cons, induction later, names_push path here, List.flatMap_cons,
        List.append_assoc]

theorem isAbsolute_foldl_push (segments : List String) (path : Path) :
    (segments.foldl push path).isAbsolute ↔
      path.isAbsolute ∨ ∃ segment ∈ segments, (Path.mk segment).isAbsolute := by
  induction segments generalizing path with
  | nil => simp
  | cons segment segments induction =>
      rw [List.foldl_cons, induction, isAbsolute_push, List.exists_mem_cons_iff, or_assoc]

theorem isAbsolute_ofSegments (segments : List String) :
    (ofSegments segments).isAbsolute ↔ ∃ segment ∈ segments, (Path.mk segment).isAbsolute := by
  have here : (Path.mk "").isAbsolute = false := rfl
  rw [ofSegments, isAbsolute_foldl_push, here]
  simp

theorem ofSegments_drop (leads : LeadsFrom segments index) :
    ofSegments (segments.drop index) = ofSegments segments := by
  cases leads with
  | @root segment index listed rooted =>
      rcases List.getElem?_eq_some_iff.mp listed with ⟨inside, found⟩
      have behind : segments.drop index = segment :: segments.drop (index + 1) := by
        rw [List.drop_eq_getElem_cons inside, found]
      have whole : ofSegments segments =
          (segments.drop index).foldl push ((segments.take index).foldl push ⟨""⟩) := by
        rw [← List.foldl_append, List.take_append_drop, ofSegments]
      rw [whole, behind, ofSegments, List.foldl_cons, List.foldl_cons, push_of_rooted _ rooted,
        push_of_rooted _ rooted]
  | here => rfl

theorem names_ofSegments (leads : LeadsFrom segments index) : (ofSegments segments).names =
    (segments.drop index).flatMap fun segment => (Path.mk segment).names := by
  rw [← ofSegments_drop leads]
  cases leads with
  | @root segment index listed rooted last =>
      rcases List.getElem?_eq_some_iff.mp listed with ⟨inside, found⟩
      rw [List.drop_eq_getElem_cons inside, found, ofSegments, List.foldl_cons,
        push_of_rooted _ rooted, names_foldl_push last, List.flatMap_cons]
  | here unrooted =>
      rw [List.drop_zero, ofSegments, names_foldl_push unrooted]
      rfl

theorem names_eq_flatMap_iff (leads : LeadsFrom segments index) :
    ((ofSegments segments).names = segments.flatMap fun segment => (Path.mk segment).names) ↔
      ∀ lost ∈ segments.take index, (Path.mk lost).names = [] := by
  have split : (segments.flatMap fun segment => (Path.mk segment).names) =
      ((segments.take index).flatMap fun segment => (Path.mk segment).names) ++
        (segments.drop index).flatMap fun segment => (Path.mk segment).names := by
    rw [← List.flatMap_append, List.take_append_drop]
  rw [names_ofSegments leads, split, List.self_eq_append_left, List.flatMap_eq_nil_iff]

/-! ## Segments that are names -/

def IsName (segment : String) : Prop :=
  segment ≠ "" ∧ '/' ∉ segment.toList

theorem IsName.relative (name : IsName segment) : (Path.mk segment).isAbsolute = false :=
  decide_eq_false fun head => name.2 (List.mem_of_mem_head? head)

theorem IsName.pieces_eq (name : IsName segment) : (Path.mk segment).pieces = [segment.toList] :=
  List.splitOn_eq_singleton name.2

theorem pieces_push (filled : [] ∉ path.pieces) (name : IsName segment) :
    (path.push segment).pieces = path.pieces ++ [segment.toList] := by
  rcases path.push_of_relative name.relative with ⟨rfl, _⟩ | ⟨_, front, rfl | ending, parts⟩
  · exact absurd (List.mem_singleton_self []) filled
  · rw [pieces_of_parts ⟨segment⟩ parts, name.pieces_eq]
  · rw [pieces_of_parts ⟨""⟩ ending] at filled
    exact absurd (List.mem_append_right _ (List.mem_singleton_self [])) filled

theorem pieces_foldl_push (named : ∀ segment ∈ segments, IsName segment)
    (filled : [] ∉ path.pieces) :
    (segments.foldl push path).pieces = path.pieces ++ segments.map String.toList := by
  induction segments generalizing path with
  | nil => simp
  | cons segment segments induction =>
      rcases List.forall_mem_cons.mp named with ⟨here, later⟩
      have pushed := pieces_push filled here
      have stillFilled : [] ∉ (path.push segment).pieces := by
        simpa [pushed] using ⟨filled, here.1⟩
      rw [List.foldl_cons, induction later stillFilled, pushed, List.append_assoc,
        List.singleton_append, List.map_cons]

theorem pieces_ofSegments (named : ∀ segment ∈ segments, IsName segment) (some : segments ≠ []) :
    (ofSegments segments).pieces = segments.map String.toList := by
  rcases List.exists_cons_of_ne_nil some with ⟨first, later, rfl⟩
  rcases List.forall_mem_cons.mp named with ⟨here, laterNamed⟩
  have start : (⟨""⟩ : Path).push first = ⟨first⟩ := by
    rcases Path.push_of_relative ⟨""⟩ here.relative with ⟨_, pushed⟩ | ⟨nonempty, _⟩
    · exact pushed
    · exact absurd rfl nonempty
  have filled : [] ∉ (Path.mk first).pieces := by
    simpa [here.pieces_eq] using here.1
  rw [ofSegments, List.foldl_cons, start, pieces_foldl_push laterNamed filled, here.pieces_eq,
    List.singleton_append, List.map_cons]

theorem text_ofSegments (named : ∀ segment ∈ segments, IsName segment) :
    (ofSegments segments).text = "/".intercalate segments := by
  by_cases none : segments = []
  · subst none
    rfl
  · apply String.toList_inj.mp
    have joined : ['/'].intercalate (ofSegments segments).pieces =
        (ofSegments segments).text.toList :=
      List.intercalate_splitOn '/'
    rw [pieces_ofSegments named none] at joined
    rw [String.toList_intercalate, ← joined]
    rfl

end Path

namespace Origin

/-- A relative file has no path just where its base marker is missing. Else it leads where its
segments lead, from the last one on that leads from the root, whatever the marker says behind the
brace; and segments that are names are the pieces of the path. -/
theorem path?_relativeFile (segments : List String) :
    ((Origin.relativeFile segments).path? = .error (.missingBaseMarker segments) ↔
        ¬ Marked segments) ∧
      ∀ name rest, segments = ("$\x7b" ++ name) :: rest →
        (Origin.relativeFile segments).path? = .ok (some (Path.ofSegments rest)) ∧
          ((Path.ofSegments rest).isAbsolute ↔ ∃ segment ∈ rest, (Path.mk segment).isAbsolute) ∧
          (∃ index, Path.LeadsFrom rest index) ∧
          (∀ index, Path.LeadsFrom rest index →
            Path.ofSegments (rest.drop index) = Path.ofSegments rest ∧
              (Path.ofSegments rest).names =
                (rest.drop index).flatMap fun segment => (Path.mk segment).names) ∧
          ((∀ segment ∈ rest, Path.IsName segment) →
            (Path.ofSegments rest).text = "/".intercalate rest ∧
              (rest ≠ [] → (Path.ofSegments rest).pieces = rest.map String.toList)) := by
  constructor
  · refine ⟨?_, path?_of_unmarked⟩
    rintro failed ⟨name, rest, rfl⟩
    cases (path?_of_marked name rest).symm.trans failed
  · rintro name rest rfl
    exact ⟨path?_of_marked name rest, Path.isAbsolute_ofSegments rest, Path.exists_leadsFrom rest,
      fun _ leads => ⟨Path.ofSegments_drop leads, Path.names_ofSegments leads⟩,
      fun named => ⟨Path.text_ofSegments named, Path.pieces_ofSegments named⟩⟩

/-- The path of a relative file is relative just where no segment leads from the root, and it then
has the names of all segments. It also has them where the segments that are lost have no names. -/
theorem path?_relativeFile_whole_iff (name : String) (segments : List String) :
    ∃ path, (Origin.relativeFile (("$\x7b" ++ name) :: segments)).path? = .ok (some path) ∧
      (path.isAbsolute = false ↔ ∀ segment ∈ segments, (Path.mk segment).isAbsolute = false) ∧
      (path.isAbsolute = false →
        path.names = segments.flatMap fun segment => (Path.mk segment).names) ∧
      ((path.names = segments.flatMap fun segment => (Path.mk segment).names) ↔
        ∀ index, Path.LeadsFrom segments index →
          ∀ lost ∈ segments.take index, (Path.mk lost).names = []) := by
  have relative : (Path.ofSegments segments).isAbsolute = false ↔
      ∀ segment ∈ segments, (Path.mk segment).isAbsolute = false := by
    simpa using not_congr (Path.isAbsolute_ofSegments segments)
  refine ⟨Path.ofSegments segments, path?_of_marked name segments, relative, fun here => ?_, ?_, ?_⟩
  · exact Path.names_ofSegments (.here (relative.mp here))
  · intro whole index leads
    rw [Path.names_eq_flatMap_iff leads] at whole
    exact whole
  · intro nameless
    rcases Path.exists_leadsFrom segments with ⟨index, leads⟩
    exact (Path.names_eq_flatMap_iff leads).mpr (nameless index leads)

/-- A segment that leads from the root takes the path out of the base, and the names before it are
lost. -/
theorem path?_relativeFile_rootedSegment :
    (Origin.relativeFile ["$\x7bBASE\x7d", "a", "/b"]).path? = .ok (some ⟨"/b"⟩) ∧
      (Path.mk "/b").isAbsolute ∧
      (Path.mk "/b").names ≠ ["a", "/b"].flatMap fun segment => (Path.mk segment).names := by
  decide

end Origin
end ReloadReport
