import ReloadReport.Proofs.Origin.Reproduction
import ReloadReport.Proofs.SourceLinks

/-!
# Redundant dot segments

A single dot between slashes says nothing, and neither does a name that a double dot leaves again.
After either the walk down an id stands where it stood before, so ids that differ by such segments
have one path, whatever stands around them.
-/

namespace ReloadReport
namespace AbsoluteId

open Text

structure Leavable (name : List Char) : Prop where
  noSlash : '/' ∉ name
  noBackslash : '\\' ∉ name
  noTab : '\t' ∉ name
  noLineFeed : '\n' ∉ name
  noReturn : '\r' ∉ name
  enters : ¬ IsDots name
  noDrive : ¬ isDrive name

variable {front name : List Char} {folders : List (List Char)}

/-! ## The pieces of an id, front by front -/

def trimmed (text : List Char) : List Char :=
  slashed (dropEndWhile (·.toNat ≤ 0x20) text)

theorem trimmed_append_slash (front back : List Char) :
    trimmed (front ++ '/' :: back) = slashed front ++ '/' :: trimmed back := by
  rw [trimmed, dropEndWhile_append_cons front back (by decide), slashed, List.map_append,
    List.map_cons]
  rfl

/-- What is put in front of an id does not depend on what stands behind its first slash. -/
theorem exists_rooted_append (front : List Char) :
    ∃ start, ∀ back, rooted (front ++ '/' :: back) = start ++ '/' :: back := by
  cases front with
  | nil => exact ⟨[], fun back => rfl⟩
  | cons c front =>
      by_cases slash : c = '/'
      · exact ⟨c :: front, fun back => by simp [rooted, slash]⟩
      · exact ⟨'/' :: c :: front, fun back => by simp [rooted, slash]⟩

theorem walk_trimmed_append (folders : List (List Char)) (front back : List Char) :
    walk folders ((trimmed (front ++ '/' :: back)).splitOn '/') =
      walk (((slashed front).splitOn '/').foldl pass folders) ((trimmed back).splitOn '/') := by
  rw [trimmed_append_slash, splitOn_append_cons,
    walk_append folders _ (List.splitOn_ne_nil '/' (trimmed back))]

/-- The folders that the part of an id up to a slash leads to are all that the rest needs of it. -/
theorem exists_walk_append (slash : front.getLast? = some '/') :
    ∃ folders, ∀ back, walk [] ((cleaned (front ++ back)).splitOn '/') =
      walk folders ((trimmed back).splitOn '/') := by
  rcases List.getLast?_eq_some_iff.mp slash with ⟨start, rfl⟩
  rcases exists_rooted_append start with ⟨whole, rootedFront⟩
  refine ⟨((slashed whole).splitOn '/').foldl pass [], fun back => ?_⟩
  have parts : cleaned (start ++ ['/'] ++ back) = trimmed (whole ++ '/' :: back) := by
    rw [← rootedFront, List.append_assoc, List.singleton_append]
    rfl
  rw [parts, walk_trimmed_append]

/-! ## Redundant segments -/

theorem pass_dot (folders : List (List Char)) : pass folders ['.'] = folders := by
  have whole : ∀ c ∈ ['.'], isBreak c = false := by simp [isBreak]
  rw [pass, driveAndName?_of_whole folders whole]
  rfl

theorem Leavable.whole (leavable : Leavable name) : ∀ c ∈ name, isBreak c = false :=
  whole_of_noBreak leavable.noTab leavable.noLineFeed leavable.noReturn

theorem Leavable.pass_pass (leavable : Leavable name) (folders : List (List Char)) :
    pass (pass folders name) ['.', '.'] = folders := by
  rcases not_or.mp leavable.enters with ⟨notDot, notDots⟩
  have entered : pass folders name = name :: folders := by
    simp [pass, driveAndName?_of_whole folders leavable.whole, unbroken_eq_self leavable.whole,
      enter, named, notDot, notDots, leavable.noDrive]
  have drive : isDrive name = false := Bool.eq_false_iff.mpr leavable.noDrive
  rw [entered, pass, driveAndName?_of_inside (List.cons_ne_nil name folders)]
  simp [enter, unbroken, isBreak, drive]

theorem walk_dot (folders : List (List Char)) (back : List Char) :
    walk folders ((trimmed ('.' :: '/' :: back)).splitOn '/') =
      walk folders ((trimmed back).splitOn '/') := by
  have alone : (slashed ['.']).splitOn '/' = [['.']] := by decide
  have parts := walk_trimmed_append folders ['.'] back
  rwa [alone, List.foldl_cons, List.foldl_nil, pass_dot] at parts

theorem Leavable.walk_leave (leavable : Leavable name) (folders : List (List Char))
    (back : List Char) :
    walk folders ((trimmed (name ++ '/' :: '.' :: '.' :: '/' :: back)).splitOn '/') =
      walk folders ((trimmed back).splitOn '/') := by
  have dots : (slashed ['.', '.']).splitOn '/' = [['.', '.']] := by decide
  have parts := walk_trimmed_append (pass folders name) ['.', '.'] back
  rw [dots, List.foldl_cons, List.foldl_nil, leavable.pass_pass] at parts
  rw [walk_trimmed_append, slashed_eq_self leavable.noBackslash,
    List.splitOn_eq_singleton leavable.noSlash, List.foldl_cons, List.foldl_nil, ← parts]
  rfl

theorem pathText_append_dot (slash : front.getLast? = some '/') (back : List Char) :
    pathText (front ++ '.' :: '/' :: back) = pathText (front ++ back) := by
  rcases exists_walk_append slash with ⟨folders, walks⟩
  rw [pathText, pathText, walks, walks, walk_dot]

theorem Leavable.pathText_append (leavable : Leavable name) (slash : front.getLast? = some '/')
    (back : List Char) :
    pathText (front ++ (name ++ '/' :: '.' :: '.' :: '/' :: back)) = pathText (front ++ back) := by
  rcases exists_walk_append slash with ⟨folders, walks⟩
  rw [pathText, pathText, walks, walks, leavable.walk_leave]

end AbsoluteId

namespace Origin

variable {front name : String}

/-- An absolute id with a redundant dot segment behind a slash leads to the same path as without it,
whatever stands before and behind, and a unit that is stated to come from it has the same link. -/
theorem path?_absoluteFile_redundantDots (slash : front.toList.getLast? = some '/')
    (leavable : AbsoluteId.Leavable name.toList) (back : String) :
    ∃ path, ∀ id ∈ [front ++ back, front ++ "./" ++ back, front ++ name ++ "/../" ++ back],
      (Origin.absoluteFile id).path? = .ok (some path) ∧
        ∀ (read : Path → Option String) (analysis : Analysis) (unit : String)
          (others : List Descriptor),
          (analysis.withClass unit (.absolute id :: others)).sourceMap read =
              (analysis.withClass unit (.absolute (front ++ back) :: others)).sourceMap read ∧
            ∀ sources,
              (analysis.withClass unit (.absolute id :: others)).sourceMap read = .ok sources →
                sources.find? unit = some (SourceLink.ofPath read path) := by
  have samePath : ∀ id ∈ [front ++ back, front ++ "./" ++ back, front ++ name ++ "/../" ++ back],
      AbsoluteId.path id = AbsoluteId.path (front ++ back) := by
    intro id member
    have dot := AbsoluteId.pathText_append_dot slash back.toList
    have leave := leavable.pathText_append slash back.toList
    simp only [List.mem_cons, List.not_mem_nil, or_false] at member
    rcases member with rfl | rfl | rfl
    · rfl
    · simp [AbsoluteId.path, dot]
    · simp [AbsoluteId.path, leave]
  have resolved : ∀ id ∈ [front ++ back, front ++ "./" ++ back, front ++ name ++ "/../" ++ back],
      (Origin.absoluteFile id).path? = .ok (some (AbsoluteId.path (front ++ back))) := by
    intro id member
    rw [path?_of_absoluteFile, samePath id member]
  have leads : ∀ id ∈ [front ++ back, front ++ "./" ++ back, front ++ name ++ "/../" ++ back],
      ∀ (read : Path → Option String) (others : List Descriptor),
        SourceLink.ofOrigins read (.absolute id :: others) =
          .ok (some (SourceLink.ofPath read (AbsoluteId.path (front ++ back)))) := by
    intro id member read others
    have stated : (Descriptor.absolute id).path? = (Origin.absoluteFile id).path? := rfl
    rw [SourceLink.ofOrigins, stated, resolved id member]
    rfl
  refine ⟨AbsoluteId.path (front ++ back), fun id member => ⟨resolved id member, ?_⟩⟩
  intro read analysis unit others
  refine ⟨?_, fun sources done => ?_⟩
  · apply Analysis.sourceMap_withClass_congr
    rw [leads id member, leads _ List.mem_cons_self]
  · exact Analysis.find?_sourceMap_withClass (leads id member read others) done

/-- Behind a drive, which no double dot leaves. -/
theorem path?_absoluteFile_redundantDots_behindDrive :
    "/../c:/x/../".toList.getLast? = some '/' ∧ AbsoluteId.Leavable "b".toList ∧
      ∀ id ∈ ["/../c:/x/../" ++ "../y", "/../c:/x/../" ++ "./" ++ "../y",
          "/../c:/x/../" ++ "b" ++ "/../" ++ "../y"],
        (Origin.absoluteFile id).path? = .ok (some ⟨"/c:/y"⟩) := by
  have slash : "/../c:/x/../".toList.getLast? = some '/' := by decide
  have leavable : AbsoluteId.Leavable "b".toList := by
    constructor <;> decide
  rcases path?_absoluteFile_redundantDots slash leavable "../y" with ⟨path, leads⟩
  have plain : (Origin.absoluteFile ("/../c:/x/../" ++ "../y")).path? = .ok (some ⟨"/c:/y"⟩) := by
    rw [path?_of_absoluteFile]
    decide
  have same : path = ⟨"/c:/y"⟩ := by
    cases (leads _ List.mem_cons_self).1.symm.trans plain
    rfl
  exact ⟨slash, leavable, fun id member => same ▸ (leads id member).1⟩

end Origin
end ReloadReport
