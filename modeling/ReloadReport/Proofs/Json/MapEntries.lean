import ReloadReport.Proofs.Json.ShapedTags

/-!
# Entries of maps

One more entry in a map counts, unless a later entry has the same name. This holds as well where the
map is the value of a field, in a record or a tagged record, by name or by place.
-/

namespace ReloadReport.Json

/-- The value that is given under a name, or at an index of an array, is replaced. -/
inductive Replaced (name : String) (index : Nat) (held replacement : Json) : Json → Json → Prop
  | member {front back : List (String × Json)} :
      Replaced name index held replacement (.object (front ++ (name, held) :: back))
        (.object (front ++ (name, replacement) :: back))
  | item {front back : List Json} (place : front.length = index) :
      Replaced name index held replacement (.array (front ++ held :: back))
        (.array (front ++ replacement :: back))

section maps

variable {read : Json → Option α} {front back : List (String × Json)} {name : String}
  {value : Json} {result : α} {values : ByName α}

theorem find?_ofList_insert (early late : List (String × α)) (asked : String) :
    (ByName.ofList (early ++ (name, result) :: late)).find? asked =
      if asked = name ∧ name ∉ late.map Prod.fst then some result
      else (ByName.ofList (early ++ late)).find? asked := by
  have last : ∀ entries : List (String × α),
      (ByName.ofList entries).find? asked = entries.reverse.lookup asked := by
    intro entries
    have nowhere : (ByName.empty : ByName α).find? asked = none := rfl
    rw [ByName.ofList, ByName.find?_foldl_insert, nowhere, Option.or_none]
  rw [last, last, List.reverse_append, List.reverse_cons, List.append_assoc,
    List.singleton_append, List.reverse_append, List.lookup_append, List.lookup_append]
  by_cases here : asked = name
  · subst here
    cases later : late.reverse.lookup asked with
    | none =>
        have fresh : asked ∉ late.map Prod.fst := by
          intro listed
          rcases List.mem_map.mp listed with ⟨entry, member, rfl⟩
          have different := List.lookup_eq_none_iff.mp later entry (List.mem_reverse.mpr member)
          exact bne_iff_ne.mp different rfl
        rw [if_pos ⟨rfl, fresh⟩, List.lookup_cons_self, Option.none_or]
    | some held =>
        have listed : asked ∈ late.map Prod.fst := by
          rcases List.lookup_eq_some_iff.mp later with ⟨_, _, parts, _⟩
          have member : (asked, held) ∈ late.reverse := by simp [parts]
          exact List.mem_map.mpr ⟨_, List.mem_reverse.mp member, rfl⟩
        rw [if_neg fun first => first.2 listed, Option.some_or, Option.some_or]
  · rw [if_neg fun first => here first.1, ByName.lookup_cons_of_ne here]

/-- One more entry leads its name to its value, unless a later entry has the name. -/
theorem map?_insert (all : map? read (.object (front ++ back)) = some values)
    (reads : read value = some result) :
    ∃ others, map? read (.object (front ++ (name, value) :: back)) = some others ∧
      ∀ asked, others.find? asked =
        if asked = name ∧ name ∉ back.map Prod.fst then some result else values.find? asked := by
  rcases Option.map_eq_some_iff.mp all with ⟨entries, each, rfl⟩
  rw [List.mapM_append] at each
  rcases Option.bind_eq_some_iff.mp each with ⟨early, frontRead, each⟩
  rcases Option.bind_eq_some_iff.mp each with ⟨late, backRead, joined⟩
  cases joined
  have here : member? read (name, value) = some (name, result) := by
    rw [member?, reads, Option.map_some]
  have inserted : (front ++ (name, value) :: back).mapM (member? read) =
      some (early ++ (name, result) :: late) := by
    simp [List.mapM_append, frontRead, backRead, here]
  refine ⟨_, by rw [map?, inserted, Option.map_some], fun asked => ?_⟩
  rw [find?_ofList_insert, map_fst_of_mapM backRead]

end maps

section fields

variable {scope : Scope} {fields : List (String × Shape)} {known : List Field} {name tag : String}
  {index : Nat} {held replacement value other given rest : Json} {shape : Shape}

theorem Record.ofJson?_replaced (place : fields[index]? = some (name, shape))
    (listsFields : known.map Field.name = fields.map Prod.fst)
    (once : (fields.map Prod.fst).Nodup)
    (replaced : Replaced name index held replacement value other) {record : Record}
    (read : Record.ofJson? known value = some record) :
    ∃ first last, name ∉ first.map Prod.fst ∧ record = ⟨first ++ (name, held) :: last⟩ ∧
      Record.ofJson? known other = some ⟨first ++ (name, replacement) :: last⟩ := by
  cases replaced with
  | member =>
      have isKnown : name ∈ fields.map Prod.fst :=
        List.mem_map.mpr ⟨_, List.mem_of_getElem? place, rfl⟩
      rcases Record.ofMembers?_replace listsFields isKnown read with
        ⟨first, last, fresh, same, replaces⟩
      exact ⟨first, last, fresh, same, replaces replacement⟩
  | item length =>
      rcases Record.ofItems?_replace listsFields once read with
        ⟨_, _, first, last, _, otherPlace, fresh, same, replaces⟩
      rw [length, place] at otherPlace
      cases otherPlace
      exact ⟨first, last, fresh, same, replaces replacement⟩

theorem splitTag?_replaced (notTag : name ≠ tag)
    (replaced : Replaced name (index + 1) held replacement value other)
    (split : splitTag? tag value = some (given, rest)) :
    ∃ otherRest, splitTag? tag other = some (given, otherRest) ∧
      Replaced name index held replacement rest otherRest := by
  cases replaced with
  | member =>
      rcases splitTag?_object_iff.mp split with ⟨single, rfl⟩
      have test : (name == tag) = false := beq_eq_false_iff_ne.mpr notTag
      have passes : (name != tag) = true := bne_iff_ne.mpr notTag
      refine ⟨_, splitTag?_object_iff.mpr ⟨by simpa [test] using single, rfl⟩, ?_⟩
      simp only [List.filter_append, List.filter_cons, passes, if_true]
      exact .member
  | @item front back place =>
      cases front with
      | nil => cases place
      | cons first front =>
          cases split
          exact ⟨_, rfl, .item (Nat.succ.inj place)⟩

theorem Replaced.isLegible (replaced : Replaced name index held replacement value other)
    (legible : value.isLegible) (fits : held.isLegible → replacement.isLegible) :
    other.isLegible := by
  cases replaced with
  | member =>
      rw [isLegible_object, List.forall_mem_append, List.forall_mem_cons] at legible ⊢
      exact ⟨legible.1, fits legible.2.1, legible.2.2⟩
  | item =>
      rw [isLegible_array, List.forall_mem_append, List.forall_mem_cons] at legible ⊢
      exact ⟨legible.1, fits legible.2.1, legible.2.2⟩

end fields

end ReloadReport.Json
