import ReloadReport.Proofs.Json.Negative

/-!
# Values that can be read whole

Values without anything that spelling, limits or a tagged record could stand against: their strings
spell texts, their numbers are integers of 64 bits, and their arrays and objects stand in each other
only to some depth.
-/

namespace ReloadReport.Json

theorem allWellSpelled_iff {items : List Json} :
    AllWellSpelled items ↔ ∀ item ∈ items, WellSpelled item := by
  induction items with
  | nil => simp [AllWellSpelled]
  | cons item items induction => simp [AllWellSpelled, induction]

theorem membersWellSpelled_iff {members : List (String × Json)} :
    MembersWellSpelled members ↔ ∀ member ∈ members, WellSpelled member.2 := by
  induction members with
  | nil => simp [MembersWellSpelled]
  | cons member members induction =>
      rcases member with ⟨name, value⟩
      rw [MembersWellSpelled, MemberWellSpelled, induction, List.forall_mem_cons]

theorem limitedMembers_eq_map (depth : Nat) (members : List (String × Json)) :
    limitedMembers depth members = members.map (limitedMember depth) := by
  induction members with
  | nil => rfl
  | cons member members induction => simp [limitedMembers, induction]

theorem membersLegible_eq_all (members : List (String × Json)) :
    membersLegible members = members.all memberLegible := by
  induction members with
  | nil => rfl
  | cons member members induction => simp [membersLegible, induction]

inductive Sound : Nat → Json → Prop where
  | null {depth : Nat} : Sound depth .null
  | bool {depth : Nat} (value : Bool) : Sound depth (.bool value)
  | natural {depth value : Nat} (small : value < UInt64.size) : Sound depth (.natural value)
  | negative {depth value : Nat} (small : value < UInt64.size) : Sound depth (negative value)
  | string {depth : Nat} (text : String) : Sound depth (.string text)
  | array {depth : Nat} {items : List Json} (sound : ∀ item ∈ items, Sound depth item) :
      Sound (depth + 1) (.array items)
  | object {depth : Nat} {members : List (String × Json)}
      (sound : ∀ member ∈ members, Sound depth member.2) : Sound (depth + 1) (.object members)

namespace Sound

variable {depth : Nat} {value : Json}

attribute [simp] null bool string

@[simp] theorem ofWord32 (word : UInt32) : Sound depth (ofWord32 word) :=
  .natural (Nat.lt_trans word.toNat_lt_size (by decide))

@[simp] theorem ofWord64 (word : UInt64) : Sound depth (ofWord64 word) :=
  .natural word.toNat_lt_size

@[simp] theorem ofOption {write : α → Json} (sound : ∀ value, Sound depth (write value))
    (value : Option α) : Sound depth (ofOption write value) := by
  cases value with
  | none => exact .null
  | some value => exact sound value

@[simp] theorem ofList {write : α → Json} (sound : ∀ value, Sound depth (write value))
    (values : List α) : Sound (depth + 1) (ofList write values) := by
  apply Sound.array
  intro item member
  rcases List.mem_map.mp member with ⟨value, _, rfl⟩
  exact sound value

@[simp] theorem array_iff {items : List Json} :
    Sound (depth + 1) (.array items) ↔ ∀ item ∈ items, Sound depth item :=
  ⟨fun | .array sound => sound, .array⟩

@[simp] theorem object_iff {members : List (String × Json)} :
    Sound (depth + 1) (.object members) ↔ ∀ member ∈ members, Sound depth member.2 :=
  ⟨fun | .object sound => sound, .object⟩

theorem mono {more : Nat} (sound : Sound depth value) (le : depth ≤ more) : Sound more value := by
  induction sound generalizing more with
  | null => exact .null
  | bool value => exact .bool value
  | natural small => exact .natural small
  | negative small => exact .negative small
  | string text => exact .string text
  | array _ induction =>
      cases more with
      | zero => cases le
      | succ more =>
          exact .array fun item member => induction item member (Nat.le_of_succ_le_succ le)
  | object _ induction =>
      cases more with
      | zero => cases le
      | succ more =>
          exact .object fun inner member => induction inner member (Nat.le_of_succ_le_succ le)

theorem wellSpelled (sound : Sound depth value) : WellSpelled value := by
  induction sound with
  | null | bool | natural | string => trivial
  | negative => exact wellSpelled_negative _
  | array _ induction => exact allWellSpelled_iff.mpr induction
  | object _ induction => exact membersWellSpelled_iff.mpr induction

theorem limited_eq (sound : Sound depth value) : limited depth value = value := by
  induction sound with
  | null | bool | string => rfl
  | natural small => rw [limited, if_pos (.inl small)]
  | negative small => exact limited_negative _ small
  | array _ induction =>
      rw [limited, limitedItems_eq_map, List.map_congr_left induction, List.map_id']
  | @object depth members _ induction =>
      have unchanged : ∀ member ∈ members, limitedMember depth member = member := by
        rintro ⟨name, value⟩ inside
        rw [limitedMember, induction _ inside]
      rw [limited, limitedMembers_eq_map, List.map_congr_left unchanged, List.map_id']

theorem isLegible (sound : Sound depth value) : isLegible value = true := by
  induction sound with
  | null | bool | natural | negative | string => rfl
  | array _ induction =>
      rw [Json.isLegible, areLegible_eq_all, List.all_eq_true]
      exact induction
  | object _ induction =>
      rw [Json.isLegible, membersLegible_eq_all, List.all_eq_true]
      rintro ⟨name, value⟩ inside
      rw [memberLegible, induction _ inside]

end Sound

/-- Both texts that are written for a value are read as the value. -/
def ReadsBack (write : α → Json) (read : Json → Option α) (value : α) : Prop :=
  (parse? (write value).compact).bind read = some value ∧
    (parse? (write value).pretty).bind read = some value

theorem readsBack_of_sound {write : α → Json} {read : Json → Option α} {value : α} {depth : Nat}
    (sound : Sound depth (write value)) (shallow : depth ≤ maxDepth)
    (reads : read (write value) = some value) : ReadsBack write read value := by
  have within := (sound.mono shallow).limited_eq
  constructor
  · rw [parse?_compact sound.wellSpelled within]
    exact reads
  · rw [parse?_pretty sound.wellSpelled within]
    exact reads

end ReloadReport.Json
