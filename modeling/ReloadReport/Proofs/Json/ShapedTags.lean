import ReloadReport.Proofs.Json.ShapedReaders

/-!
# Tagged records that keep to a shape

A tagged record is a record with its tag beside or in front. A change of it leaves the tag as it is
and changes the record behind the tag in the same way, and a repeated tag is refused.
-/

namespace ReloadReport.Json

variable {scope : Scope} {tag kind : String} {names : List String}
  {kinds : List (String × List (String × Shape))} {fields : List (String × Shape)}
  {value other given rest : Json} {members : List (String × Json)}

section splitting

theorem splitTag?_object_iff : splitTag? tag (.object members) = some (given, rest) ↔
    members.filter (·.1 == tag) = [(tag, given)] ∧
      rest = .object (members.filter (·.1 != tag)) := by
  constructor
  · intro split
    rw [splitTag?] at split
    split at split
    next name value single =>
      cases split
      have member : (name, given) ∈ members.filter (·.1 == tag) := by simp [single]
      have named : name = tag := by simpa using (List.mem_filter.mp member).2
      exact ⟨named ▸ single, rfl⟩
    next => cases split
  · rintro ⟨single, rfl⟩
    simp [splitTag?, single]

theorem tagOf?_of_splitTag? (split : splitTag? tag value = some (given, rest)) :
    tagOf? tag value = some given := by
  cases value with
  | object members =>
      rcases List.filter_eq_cons_iff.mp (splitTag?_object_iff.mp split).1 with
        ⟨front, back, rfl, none, _, _⟩
      refine List.lookup_eq_some_iff.mpr ⟨front, back, rfl, fun member there => ?_⟩
      exact bne_iff_ne.mpr fun same => none member there (beq_iff_eq.mpr same.symm)
  | array items =>
      cases items with
      | nil => cases split
      | cons first items =>
          cases split
          rfl
  | null | bool | natural | real | string | illegible => cases split

theorem tagged?_eq_some_iff : tagged? tag names scope value = some (kind, rest) ↔
    value.isLegible ∧ ∃ given, splitTag? tag value = some (given, rest) ∧
      kind? names scope given = some kind := by
  rw [tagged?, Option.ite_none_right_eq_some]
  simp only [Option.bind_eq_some_iff, Option.map_eq_some_iff, Prod.exists, Prod.mk.injEq]
  constructor
  · rintro ⟨legible, given, _, split, _, named, rfl, rfl⟩
    exact ⟨legible, given, split, named⟩
  · rintro ⟨legible, given, split, named⟩
    exact ⟨legible, given, rest, split, kind, named, rfl, rfl⟩

theorem mem_of_kind? (named : kind? names scope given = some kind) : kind ∈ names := by
  cases given with
  | string word =>
      rw [kind?, Option.ite_none_right_eq_some] at named
      cases named.2
      exact named.1
  | natural number =>
      cases scope with
      | plain => cases named
      | tagged => exact List.mem_of_getElem? named
  | null | bool | real | array | object | illegible => cases scope <;> cases named

theorem not_changed_of_kind? {shape : Shape} {inner : Scope}
    (named : kind? names scope given = some kind) : ¬ Changed inner shape given other := by
  intro changed
  cases changed with
  | permuted | inserted | member | item => cases scope <;> cases named

end splitting

section shapes

variable (split : splitTag? tag value = some (given, rest))
  (named : kind? (kinds.map Prod.fst) scope given = some kind)
  (listed : kinds.lookup kind = some fields)

include split named listed

theorem fieldsOfKind_of_splitTag? :
    Shape.fieldsOfKind kinds scope (tagOf? tag value) = fields := by
  simp [Shape.fieldsOfKind, tagOf?_of_splitTag? split, named, listed]

theorem ofMember_tagged_of_ne {name : String} (notTag : name ≠ tag) :
    (Shape.tagged tag kinds).ofMember scope value name =
      (Shape.record fields).ofMember .tagged rest name := by
  rw [Shape.ofMember_tagged, fieldsOfKind_of_splitTag? split named listed,
    ByName.lookup_cons_of_ne notTag, Shape.ofMember_record]

theorem ofItem_tagged_succ (index : Nat) :
    (Shape.tagged tag kinds).ofItem scope value (index + 1) =
      (Shape.record fields).ofItem .tagged rest index := by
  rw [Shape.ofItem_tagged, fieldsOfKind_of_splitTag? split named listed, Shape.ofItem_record]
  rfl

/-- A change of a tagged record leaves its tag and changes at most the record behind it. -/
theorem splitTag?_of_changed (changed : Changed scope (.tagged tag kinds) value other) :
    ∃ result, splitTag? tag other = some (given, result) ∧
      (result = rest ∨ Changed .tagged (.record fields) rest result) := by
  cases changed with
  | @permuted _ _ members others same =>
      rcases splitTag?_object_iff.mp split with ⟨single, rfl⟩
      have otherSingle := same.symm.filter (·.1 == tag)
      rw [single, List.perm_singleton] at otherSingle
      exact ⟨_, splitTag?_object_iff.mpr ⟨otherSingle, rfl⟩, .inr (.permuted (same.filter _) nofun)⟩
  | @inserted _ _ front back name passed _ unknown legible =>
      rcases splitTag?_object_iff.mp split with ⟨single, rfl⟩
      rw [Shape.fields, fieldsOfKind_of_splitTag? split named listed, List.map_cons, List.mem_cons,
        not_or] at unknown
      have test : (name == tag) = false := beq_eq_false_iff_ne.mpr unknown.1
      refine ⟨_, splitTag?_object_iff.mpr ⟨?_, rfl⟩, .inr ?_⟩
      · simpa [test] using single
      · rw [List.filter_append, List.filter_append, List.filter_cons_of_pos (by simp [unknown.1])]
        exact .inserted trivial unknown.2 fun _ => legible rfl
  | @member _ _ front back name held replaced inside =>
      rcases splitTag?_object_iff.mp split with ⟨single, rfl⟩
      by_cases isTag : name = tag
      · -- The member is the tag, in which nothing can change.
        subst isTag
        have member : (name, held) ∈ [(name, given)] := by
          rw [← single]
          simp
        cases List.mem_singleton.mp member
        exact absurd inside (not_changed_of_kind? named)
      · have test : (name == tag) = false := beq_eq_false_iff_ne.mpr isTag
        have kept : ∀ held : Json, (front ++ (name, held) :: back).filter (·.1 != tag) =
            front.filter (·.1 != tag) ++ (name, held) :: back.filter (·.1 != tag) := by
          intro held
          rw [List.filter_append, List.filter_cons_of_pos (by simp [isTag])]
        refine ⟨_, splitTag?_object_iff.mpr ⟨by simpa [test] using single, rfl⟩, .inr ?_⟩
        rw [ofMember_tagged_of_ne split named listed isTag, kept] at inside
        rw [kept, kept]
        exact .member inside
  | @item _ _ front back held replaced inside =>
      cases front with
      | nil =>
          -- The first item is the tag, in which nothing can change either.
          cases split
          exact absurd inside (not_changed_of_kind? named)
      | cons first front =>
          cases split
          rw [List.length_cons, ofItem_tagged_succ rfl named listed] at inside
          exact ⟨_, rfl, .inr (.item inside)⟩

theorem repeats_of_tagged (repeats : Repeats scope (.tagged tag kinds) value) :
    Repeats .tagged (.record fields) rest := by
  cases repeats with
  | @here _ _ front middle back name held again known =>
      rcases splitTag?_object_iff.mp split with ⟨single, rfl⟩
      rw [Shape.fields, fieldsOfKind_of_splitTag? split named listed, List.map_cons,
        List.mem_cons] at known
      by_cases isTag : name = tag
      · -- A tag that is given twice is not split off.
        have length := congrArg List.length single
        simp [isTag] at length
        omega
      · have isField := known.resolve_left isTag
        have passes : (name != tag) = true := bne_iff_ne.mpr isTag
        simp only [List.filter_append, List.filter_cons, passes, if_true]
        exact .here isField
  | @member _ _ front back name held inside =>
      rcases splitTag?_object_iff.mp split with ⟨single, rfl⟩
      by_cases isTag : name = tag
      · subst isTag
        rw [Shape.ofMember_tagged, List.lookup_cons_self] at inside
        exact absurd inside not_repeats_whole
      · have passes : (name != tag) = true := bne_iff_ne.mpr isTag
        rw [ofMember_tagged_of_ne split named listed isTag] at inside
        simp only [List.filter_append, List.filter_cons, passes, if_true] at inside ⊢
        exact .member inside
  | @item _ _ front back held inside =>
      cases front with
      | nil =>
          rw [Shape.ofItem_tagged] at inside
          exact absurd inside not_repeats_whole
      | cons first front =>
          cases split
          rw [List.length_cons, ofItem_tagged_succ rfl named listed] at inside
          exact .item inside

end shapes

/-- A reader that goes on by the kind of a tagged record keeps to its shape if it keeps to the
record of each kind. -/
theorem KeepsTo.tagged {read : String × Json → Option α}
    (keeps : ∀ kind ∈ kinds, KeepsTo .tagged (.record kind.2) fun rest => read (kind.1, rest)) :
    KeepsTo scope (.tagged tag kinds) fun value =>
      tagged? tag (kinds.map Prod.fst) scope value >>= read := by
  have listed : ∀ {given kind}, kind? (kinds.map Prod.fst) scope given = some kind →
      ∃ fields, kinds.lookup kind = some fields := by
    intro given kind named
    cases found : kinds.lookup kind with
    | some fields => exact ⟨fields, rfl⟩
    | none =>
        rcases List.mem_map.mp (mem_of_kind? named) with ⟨entry, member, rfl⟩
        have different := List.lookup_eq_none_iff.mp found entry member
        exact absurd rfl (bne_iff_ne.mp different)
  have keepsKind : ∀ {kind fields}, kinds.lookup kind = some fields →
      KeepsTo .tagged (.record fields) fun rest => read (kind, rest) := by
    intro kind fields found
    rcases List.lookup_eq_some_iff.mp found with ⟨front, back, parts, _⟩
    exact keeps (kind, fields) (by simp [parts])
  constructor
  · intro value other result changed reads
    rcases Option.bind_eq_some_iff.mp reads with ⟨⟨kind, rest⟩, found, reads⟩
    rcases tagged?_eq_some_iff.mp found with ⟨legible, given, split, named⟩
    rcases listed named with ⟨fields, known⟩
    rcases splitTag?_of_changed split named known changed with ⟨otherRest, otherSplit, alike⟩
    refine Option.bind_eq_some_iff.mpr ⟨(kind, otherRest), ?_, ?_⟩
    · exact tagged?_eq_some_iff.mpr ⟨changed.isLegible rfl legible, given, otherSplit, named⟩
    · rcases alike with rfl | change
      · exact reads
      · exact (keepsKind known).changed change reads
  · intro value repeats
    refine Option.bind_eq_none_iff.mpr fun found isFound => ?_
    rcases found with ⟨kind, rest⟩
    rcases tagged?_eq_some_iff.mp isFound with ⟨_, given, split, named⟩
    rcases listed named with ⟨fields, known⟩
    exact (keepsKind known).repeated (repeats_of_tagged split named known repeats)

end ReloadReport.Json
