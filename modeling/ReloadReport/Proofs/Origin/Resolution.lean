import ReloadReport.Proofs.Origin.FileUri

/-!
# Stated origins

Which statements of an origin lead to a path, which lead nowhere, and which fail and how. Every
statement does one of these, and two statements that agree on their kind and on the value that the
kind needs do the same.
-/

namespace ReloadReport

namespace Origin

/-- A marked list starts with a base marker, whatever stands in the marker behind the brace. -/
def Marked (segments : List String) : Prop :=
  ∃ name rest, segments = ("$\x7b" ++ name) :: rest

theorem isBaseMarker_iff {segment : String} :
    isBaseMarker segment ↔ ∃ name, segment = "$\x7b" ++ name := by
  rw [isBaseMarker, Option.isSome_iff_exists]
  constructor
  · intro marked
    rcases marked with ⟨rest, after⟩
    refine ⟨String.ofList rest, String.toList_inj.mp ?_⟩
    simpa using Text.after?_eq_some_iff.mp after
  · intro marked
    rcases marked with ⟨name, rfl⟩
    exact ⟨name.toList, Text.after?_eq_some_iff.mpr (by simp)⟩

theorem path?_of_marked (name : String) (segments : List String) :
    (Origin.relativeFile (("$\x7b" ++ name) :: segments)).path? =
      .ok (some (Path.ofSegments segments)) := by
  rw [Origin.path?, if_pos (isBaseMarker_iff.mpr ⟨name, rfl⟩)]

theorem path?_of_unmarked {segments : List String} (unmarked : ¬ Marked segments) :
    (Origin.relativeFile segments).path? = .error (.missingBaseMarker segments) := by
  cases segments with
  | nil => rfl
  | cons marker segments =>
      rw [Origin.path?, if_neg]
      intro marks
      rcases isBaseMarker_iff.mp marks with ⟨name, rfl⟩
      exact unmarked ⟨name, segments, rfl⟩

end Origin

namespace Descriptor

/-- The path to which a statement leads, or nothing where it states that there is none. -/
inductive Leads (stated : Descriptor) : Option Path → Prop
  | nowhere (kind : stated.kind = "none") : Leads stated none
  | file (kind : stated.kind = "file") (given : stated.path = some place) :
      Leads stated (some place)
  | relative (kind : stated.kind = "virtual_relative")
      (given : stated.names = some (marker :: segments))
      (marked : Origin.Marked (marker :: segments)) :
      Leads stated (some (Path.ofSegments segments))
  | absolute (kind : stated.kind = "virtual_absolute") (given : stated.id = some unit) :
      Leads stated (some (AbsoluteId.path unit))

/-- The error with which a statement fails. -/
inductive Fails (stated : Descriptor) : OriginError → Prop
  | unknownKind (unknown : stated.kind ∉ ["none", "file", "virtual_relative", "virtual_absolute"]) :
      Fails stated (.unknownShape stated.kind)
  | noPath (kind : stated.kind = "file") (missing : stated.path = none) :
      Fails stated (.unknownShape "file without path")
  | noNames (kind : stated.kind = "virtual_relative") (missing : stated.names = none) :
      Fails stated (.unknownShape "virtual_relative without names")
  | noId (kind : stated.kind = "virtual_absolute") (missing : stated.id = none) :
      Fails stated (.unknownShape "virtual_absolute without id")
  | noMarker (kind : stated.kind = "virtual_relative") (given : stated.names = some segments)
      (unmarked : ¬ Origin.Marked segments) :
      Fails stated (.missingBaseMarker segments)

/-- Two statements of one kind with the same value where the kind needs one. -/
structure Alike (stated other : Descriptor) : Prop where
  kind : other.kind = stated.kind
  path : stated.kind = "file" → other.path = stated.path
  names : stated.kind = "virtual_relative" → other.names = stated.names
  id : stated.kind = "virtual_absolute" → other.id = stated.id

theorem leads_or_fails (stated : Descriptor) :
    (∃ path, stated.Leads path) ∨ ∃ problem, stated.Fails problem := by
  by_cases none : stated.kind = "none"
  · exact .inl ⟨_, .nowhere none⟩
  by_cases file : stated.kind = "file"
  · cases given : stated.path with
    | some place => exact .inl ⟨_, .file file given⟩
    | none => exact .inr ⟨_, .noPath file given⟩
  by_cases relative : stated.kind = "virtual_relative"
  · cases given : stated.names with
    | none => exact .inr ⟨_, .noNames relative given⟩
    | some segments =>
        by_cases marked : Origin.Marked segments
        · rcases marked with ⟨name, rest, rfl⟩
          exact .inl ⟨_, .relative relative given ⟨name, rest, rfl⟩⟩
        · exact .inr ⟨_, .noMarker relative given marked⟩
  by_cases absolute : stated.kind = "virtual_absolute"
  · cases given : stated.id with
    | some unit => exact .inl ⟨_, .absolute absolute given⟩
    | none => exact .inr ⟨_, .noId absolute given⟩
  refine .inr ⟨_, .unknownKind ?_⟩
  simp [none, file, relative, absolute]

variable {stated other : Descriptor} {path : Option Path} {problem : OriginError}

theorem path?_of_leads (leads : stated.Leads path) : stated.path? = .ok path := by
  cases leads with
  | nowhere kind => simp [Descriptor.path?, origin, kind, Except.bind, Origin.path?]
  | file kind given => simp [Descriptor.path?, origin, kind, given, Except.bind, Origin.path?]
  | relative kind given marked =>
      rcases marked with ⟨name, _, parts⟩
      rw [(List.cons.inj parts).1] at given
      simpa [Descriptor.path?, origin, kind, given, Except.bind] using
        Origin.path?_of_marked name _
  | absolute kind given =>
      simp [Descriptor.path?, origin, kind, given, Except.bind, Origin.path?_of_absoluteFile]

theorem path?_of_fails (fails : stated.Fails problem) : stated.path? = .error problem := by
  cases fails with
  | unknownKind unknown =>
      simp only [List.mem_cons, List.not_mem_nil, or_false, not_or] at unknown
      rcases unknown with ⟨none, file, relative, absolute⟩
      simp [Descriptor.path?, origin, none, file, relative, absolute, Except.bind]
  | noPath kind missing => simp [Descriptor.path?, origin, kind, missing, Except.bind]
  | noNames kind missing => simp [Descriptor.path?, origin, kind, missing, Except.bind]
  | noId kind missing => simp [Descriptor.path?, origin, kind, missing, Except.bind]
  | noMarker kind given unmarked =>
      simpa [Descriptor.path?, origin, kind, given, Except.bind] using
        Origin.path?_of_unmarked unmarked

theorem path?_eq_ok_iff : stated.path? = .ok path ↔ stated.Leads path := by
  refine ⟨fun resolved => ?_, path?_of_leads⟩
  rcases stated.leads_or_fails with ⟨other, leads⟩ | ⟨problem, fails⟩
  · cases resolved.symm.trans (path?_of_leads leads)
    exact leads
  · cases resolved.symm.trans (path?_of_fails fails)

theorem path?_eq_error_iff : stated.path? = .error problem ↔ stated.Fails problem := by
  refine ⟨fun failed => ?_, path?_of_fails⟩
  rcases stated.leads_or_fails with ⟨path, leads⟩ | ⟨other, fails⟩
  · cases failed.symm.trans (path?_of_leads leads)
  · cases failed.symm.trans (path?_of_fails fails)
    exact fails

theorem Leads.kind_eq_none_iff (leads : stated.Leads path) :
    stated.kind = "none" ↔ path = none := by
  cases leads with
  | nowhere kind => simp [kind]
  | file kind => simp [kind]
  | relative kind => simp [kind]
  | absolute kind => simp [kind]

theorem Alike.leads (alike : stated.Alike other) (leads : stated.Leads path) :
    other.Leads path := by
  cases leads with
  | nowhere kind => exact .nowhere (alike.kind.trans kind)
  | file kind given => exact .file (alike.kind.trans kind) ((alike.path kind).trans given)
  | relative kind given marked =>
      exact .relative (alike.kind.trans kind) ((alike.names kind).trans given) marked
  | absolute kind given => exact .absolute (alike.kind.trans kind) ((alike.id kind).trans given)

theorem Alike.fails (alike : stated.Alike other) (fails : stated.Fails problem) :
    other.Fails problem := by
  cases fails with
  | unknownKind unknown =>
      rw [← alike.kind] at unknown ⊢
      exact .unknownKind unknown
  | noPath kind missing => exact .noPath (alike.kind.trans kind) ((alike.path kind).trans missing)
  | noNames kind missing =>
      exact .noNames (alike.kind.trans kind) ((alike.names kind).trans missing)
  | noId kind missing => exact .noId (alike.kind.trans kind) ((alike.id kind).trans missing)
  | noMarker kind given unmarked =>
      exact .noMarker (alike.kind.trans kind) ((alike.names kind).trans given) unmarked

end Descriptor
end ReloadReport
