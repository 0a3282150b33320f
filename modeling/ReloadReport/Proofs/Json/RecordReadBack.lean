import ReloadReport.Json.Record
import ReloadReport.Proofs.ByName
import ReloadReport.Proofs.Json.Sound

/-!
# Reading back records and maps

A record finds each value under its name, whether it was tagged or not, and a map is read as the
map that was written.
-/

namespace ReloadReport.Json

variable {name other tag kind : String} {value : Json} {members : List (String × Json)}
  {fields : List Field} {kinds : List String} {scope : Scope} {depth : Nat}

namespace Record

theorem ofJson?_object (known : ∀ member ∈ members, fields.any (·.name == member.1))
    (once : (members.map Prod.fst).Nodup) : ofJson? fields (.object members) = some ⟨members⟩ := by
  rw [ofJson?, ofMembers?, List.filter_eq_self.mpr known]
  exact if_pos once

@[simp] theorem find?_nil : find? ⟨[]⟩ name = none := rfl

@[simp] theorem find?_cons_self : find? ⟨(name, value) :: members⟩ name = some value :=
  List.lookup_cons_self

@[simp] theorem find?_cons_of_ne (ne : name ≠ other) :
    find? ⟨(other, value) :: members⟩ name = find? ⟨members⟩ name :=
  ByName.lookup_cons_of_ne ne

end Record

/-- A value that is never written as null is read back where it may be null. -/
theorem optional?_write {read : Json → Option α} {write : α → Json}
    (reads : ∀ value, read (write value) = some value) (given : ∀ value, write value ≠ .null)
    (value : α) : (write value).optional? read = some (some value) := by
  rw [optional?]
  · rw [reads value, Option.map_some]
  · exact given value

theorem optional?_ofOption {read : Json → Option α} {write : α → Json}
    (reads : ∀ value, read (write value) = some value) (given : ∀ value, write value ≠ .null)
    (value : Option α) : (ofOption write value).optional? read = some value := by
  cases value with
  | none => rfl
  | some value => exact optional?_write reads given value

theorem tagged?_withTag (sound : Sound depth (withTag tag kind members)) (listed : kind ∈ kinds)
    (untagged : tag ∉ members.map Prod.fst) :
    tagged? tag kinds scope (withTag tag kind members) = some (kind, .object members) := by
  have apart : ∀ member ∈ members, member.1 ≠ tag := fun member inside same =>
    untagged (List.mem_map.mpr ⟨member, inside, same⟩)
  have split : splitTag? tag (withTag tag kind members) = some (.string kind, .object members) := by
    have tags : members.filter (·.1 == tag) = [] := by
      simpa [List.filter_eq_nil_iff] using apart
    have others : members.filter (·.1 != tag) = members := by
      simpa [List.filter_eq_self] using apart
    simp [splitTag?, withTag, tags, others]
  simp [tagged?, sound.isLegible, split, kind?, listed]

theorem map?_ofMap {read : Json → Option α} {write : α → Json}
    (reads : ∀ value, read (write value) = some value) (values : ByName α) :
    map? read (ofMap write values) = some values := by
  have members : ∀ entries : List (String × α),
      (entries.map fun entry => (entry.1, write entry.2)).mapM (member? read) = some entries := by
    intro entries
    induction entries with
    | nil => rfl
    | cons entry entries induction => simp [member?, reads, induction]
  calc map? read (ofMap write values)
      = ((values.entries.map fun entry => (entry.1, write entry.2)).mapM (member? read)).map
          ByName.ofList := rfl
    _ = some values := by rw [members, Option.map_some, ByName.ofList_entries]

namespace Sound

@[simp] theorem ofMap {write : α → Json} (sound : ∀ value, Sound depth (write value))
    (values : ByName α) : Sound (depth + 1) (ofMap write values) := by
  apply Sound.object
  intro member inside
  rcases List.mem_map.mp inside with ⟨entry, _, rfl⟩
  exact sound entry.2

@[simp] theorem withTag_iff :
    Sound (depth + 1) (withTag tag kind members) ↔ ∀ member ∈ members, Sound depth member.2 := by
  simp [withTag]

end Sound

end ReloadReport.Json
