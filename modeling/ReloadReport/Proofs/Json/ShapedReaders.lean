import Mathlib.Data.List.Nodup
import Mathlib.Data.List.Perm.Basic
import ReloadReport.Proofs.Json.RecordReadBack
import ReloadReport.Proofs.Json.Shape

/-!
# Readers that keep to a shape

A reader keeps to a shape if the changes that the shape allows make no difference to it, and if it
refuses what the shape forbids. Lists, maps, records and tagged records keep to their shapes if the
readers of their parts do.
-/

namespace ReloadReport.Json

/-- What the reader reads from a value, it also reads from a changed one, and it reads nothing where
a member that a record knows is given twice. -/
structure KeepsTo (scope : Scope) (shape : Shape) (read : Json → Option α) : Prop where
  changed : ∀ {value other result}, Changed scope shape value other →
    read value = some result → read other = some result
  repeated : ∀ {value}, Repeats scope shape value → read value = none

variable {scope : Scope} {shape : Shape} {read : Json → Option α}

theorem KeepsTo.whole (noObject : ∀ members, read (.object members) = none)
    (noArray : ∀ items, read (.array items) = none) : KeepsTo scope .whole read where
  changed changed reads := by
    cases changed with
    | permuted | inserted | member =>
        rw [noObject] at reads
        cases reads
    | item =>
        rw [noArray] at reads
        cases reads
  repeated repeats := absurd repeats not_repeats_whole

theorem KeepsTo.andThen (keeps : KeepsTo scope shape read) (next : α → Option β) :
    KeepsTo scope shape fun value => read value >>= next where
  changed changed reads := by
    rcases Option.bind_eq_some_iff.mp reads with ⟨result, here, later⟩
    exact Option.bind_eq_some_iff.mpr ⟨result, keeps.changed changed here, later⟩
  repeated repeats := by
    rw [keeps.repeated repeats]
    rfl

theorem KeepsTo.optional? (keeps : KeepsTo scope shape read) :
    KeepsTo scope shape (Json.optional? read) := by
  have given : ∀ {value : Json}, value ≠ .null →
      value.optional? read = (read value).map some := by
    intro value notNull
    cases value <;> first | rfl | exact absurd rfl notNull
  constructor
  · intro value other result changed reads
    have before : value ≠ .null := by
      rintro rfl
      cases changed
    have after : other ≠ .null := by
      rintro rfl
      cases changed
    rw [given before, Option.map_eq_some_iff] at reads
    rcases reads with ⟨result, reads, rfl⟩
    rw [given after, keeps.changed changed reads, Option.map_some]
  · intro value repeats
    have notNull : value ≠ .null := by
      rintro rfl
      cases repeats
    rw [given notNull, keeps.repeated repeats, Option.map_none]

section walks

variable {visit : β → Option γ} {items : List β} {results : List γ}

theorem mapM_eq_some_iff : items.mapM visit = some results ↔
    (∀ item ∈ items, (visit item).isSome) ∧ items.filterMap visit = results := by
  induction items generalizing results with
  | nil => simp
  | cons item items induction =>
      cases here : visit item with
      | none => simp [here]
      | some result =>
          cases later : items.mapM visit with
          | none =>
              have fails : ¬ ∀ item ∈ items, (visit item).isSome := by
                intro all
                simpa [later] using induction.mpr ⟨all, rfl⟩
              simp [here, later, fails]
          | some results =>
              rcases induction.mp later with ⟨all, rfl⟩
              simpa [here, later] using fun _ => all

theorem mapM_eq_none_of_mem {item : β} (member : item ∈ items) (fails : visit item = none) :
    items.mapM visit = none := by
  rw [Option.eq_none_iff_forall_ne_some]
  intro results all
  simpa [fails] using (mapM_eq_some_iff.mp all).1 item member

theorem mapM_replace {front back : List β} {item other : β}
    (same : ∀ result, visit item = some result → visit other = some result)
    (all : (front ++ item :: back).mapM visit = some results) :
    (front ++ other :: back).mapM visit = some results := by
  have here : (visit item).isSome := (mapM_eq_some_iff.mp all).1 item (by simp)
  rcases Option.isSome_iff_exists.mp here with ⟨result, reads⟩
  have otherReads := same result reads
  rw [mapM_eq_some_iff, List.forall_mem_append, List.forall_mem_cons, List.filterMap_append,
    List.filterMap_cons_some reads] at all
  rw [mapM_eq_some_iff, List.forall_mem_append, List.forall_mem_cons, List.filterMap_append,
    List.filterMap_cons_some otherReads, otherReads]
  exact ⟨⟨all.1.1, rfl, all.1.2.2⟩, all.2⟩

theorem mapM_perm {others : List β} (same : items.Perm others)
    (all : items.mapM visit = some results) :
    ∃ permuted, others.mapM visit = some permuted ∧ results.Perm permuted := by
  rcases mapM_eq_some_iff.mp all with ⟨each, rfl⟩
  exact ⟨_, mapM_eq_some_iff.mpr ⟨fun item member => each item (same.mem_iff.mpr member), rfl⟩,
    same.filterMap visit⟩

end walks

section containers

theorem KeepsTo.list (keeps : KeepsTo scope shape read) :
    KeepsTo scope (.list shape) (listOf? read) where
  changed changed reads := by
    cases changed with
    | permuted | member => cases reads
    | inserted isRecord => exact isRecord.elim
    | item inside => exact mapM_replace (fun _ => keeps.changed inside) reads
  repeated repeats := by
    cases repeats with
    | here known => cases known
    | member => rfl
    | item inside => exact mapM_eq_none_of_mem (by simp) (keeps.repeated inside)

theorem map_fst_of_mapM {members : List (String × Json)} {entries : List (String × α)}
    (all : members.mapM (member? read) = some entries) :
    entries.map Prod.fst = members.map Prod.fst := by
  rcases mapM_eq_some_iff.mp all with ⟨each, rfl⟩
  induction members with
  | nil => rfl
  | cons member members induction =>
      rcases List.forall_mem_cons.mp each with ⟨here, later⟩
      rcases Option.isSome_iff_exists.mp here with ⟨entry, reads⟩
      rcases member with ⟨name, value⟩
      rcases Option.map_eq_some_iff.mp reads with ⟨value, _, rfl⟩
      have rest := induction later (mapM_eq_some_iff.mpr ⟨later, rfl⟩)
      simpa [List.filterMap_cons, reads] using rest

theorem lookup_eq_some_iff_mem_of_nodup {entries : List (String × α)} {name : String} {value : α}
    (distinct : (entries.map Prod.fst).Nodup) :
    entries.lookup name = some value ↔ (name, value) ∈ entries := by
  induction entries with
  | nil => simp
  | cons entry entries induction =>
      rcases entry with ⟨other, held⟩
      rcases List.nodup_cons.mp distinct with ⟨fresh, later⟩
      by_cases same : name = other
      · subst same
        have nowhere : (name, value) ∉ entries := fun member =>
          fresh (List.mem_map.mpr ⟨_, member, rfl⟩)
        simp [nowhere, eq_comm]
      · simp [ByName.lookup_cons_of_ne same, same, induction later]

theorem exists_split {entries : List β} {index : Nat} (inside : index < entries.length) :
    ∃ front entry back, entries = front ++ entry :: back ∧ front.length = index := by
  refine ⟨entries.take index, entries[index], entries.drop (index + 1), by simp, ?_⟩
  exact List.length_take_of_le (Nat.le_of_lt inside)

theorem ofList_perm {entries others : List (String × α)} (same : entries.Perm others)
    (distinct : (entries.map Prod.fst).Nodup) : ByName.ofList entries = ByName.ofList others := by
  have last : ∀ {entries : List (String × α)}, (entries.map Prod.fst).Nodup → ∀ name value,
      ByName.LastGiven entries name value ↔ (name, value) ∈ entries := by
    intro entries distinct name value
    constructor
    · rintro ⟨front, back, rfl, _⟩
      simp
    · intro member
      rcases List.append_of_mem member with ⟨front, back, rfl⟩
      refine ⟨front, back, rfl, fun later there same => ?_⟩
      rw [List.map_append, List.map_cons, List.nodup_middle, List.nodup_cons] at distinct
      exact distinct.1 (List.mem_append_right _ (List.mem_map.mpr ⟨later, there, same⟩))
  have otherDistinct := (same.map Prod.fst).nodup_iff.mp distinct
  apply ByName.eq_of_find?
  intro name
  apply Option.ext
  intro value
  rw [ByName.find?_ofList_eq_some_iff, ByName.find?_ofList_eq_some_iff, last distinct,
    last otherDistinct, same.mem_iff]

theorem KeepsTo.map (keeps : KeepsTo scope shape read) :
    KeepsTo scope (.map shape) (map? read) where
  changed changed reads := by
    cases changed with
    | permuted same distinct =>
        rcases Option.map_eq_some_iff.mp reads with ⟨entries, all, rfl⟩
        rcases mapM_perm same all with ⟨others, otherAll, alike⟩
        have names := distinct shape rfl
        rw [← map_fst_of_mapM all] at names
        rw [map?, otherAll, Option.map_some, ofList_perm alike names]
    | inserted isRecord => exact isRecord.elim
    | member inside =>
        rcases Option.map_eq_some_iff.mp reads with ⟨entries, all, rfl⟩
        refine Option.map_eq_some_iff.mpr ⟨entries, mapM_replace (fun entry here => ?_) all, rfl⟩
        rcases Option.map_eq_some_iff.mp here with ⟨result, readsHere, rfl⟩
        rw [member?, keeps.changed inside readsHere, Option.map_some]
    | item => cases reads
  repeated repeats := by
    cases repeats with
    | here known => cases known
    | @member _ _ front back name value inside =>
        have fails : member? read (name, value) = none := by
          rw [member?, keeps.repeated inside, Option.map_none]
        rw [map?, mapM_eq_none_of_mem (by simp) fails, Option.map_none]
    | item => rfl

end containers

namespace Record

variable {fields : List (String × Shape)} {names : List String} {known : List Field}
  {name : String}

def Alike (scope : Scope) (fields : List (String × Shape)) (record other : Record) : Prop :=
  ∀ name, other.find? name = record.find? name ∨
    ∃ shape value changed, fields.lookup name = some shape ∧ record.find? name = some value ∧
      other.find? name = some changed ∧ Changed scope shape value changed

/-- A reader of records that keeps to the shapes of their fields. It needs the fields with some of
the names. -/
structure KeepsTo (scope : Scope) (fields : List (String × Shape)) (names : List String)
    (read : Record → Option α) : Prop where
  changed : ∀ {record other result}, Alike scope fields record other →
    read record = some result → read other = some result
  repeated : ∀ {record name shape value}, name ∈ names → fields.lookup name = some shape →
    record.find? name = some value → Repeats scope shape value → read record = none

theorem optional_eq_elim (record : Record) (name : String) (read : Json → Option α) :
    record.optional name read = (record.find? name).elim (some none) (Json.optional? read) := by
  rw [Record.optional]
  cases record.find? name <;> rfl

theorem defaulted_eq_elim (record : Record) (name : String) (default : α)
    (read : Json → Option α) :
    record.defaulted name default read = (record.find? name).elim (some default) read := by
  rw [Record.defaulted]
  cases record.find? name <;> rfl

namespace KeepsTo

theorem pure (result : α) : KeepsTo scope fields [] fun _ => some result where
  changed _ reads := reads
  repeated member := nomatch member

theorem bind {first : Record → Option α} {next : α → Record → Option β}
    (keeps : KeepsTo scope fields [name] first)
    (keepsNext : ∀ result, KeepsTo scope fields names (next result)) :
    KeepsTo scope fields (name :: names)
      fun record => first record >>= fun result => next result record where
  changed alike reads := by
    rcases Option.bind_eq_some_iff.mp reads with ⟨result, here, later⟩
    exact Option.bind_eq_some_iff.mpr
      ⟨result, keeps.changed alike here, (keepsNext result).changed alike later⟩
  repeated {record} _ _ _ member listed found repeats := by
    rcases List.mem_cons.mp member with rfl | later
    · exact Option.bind_eq_none_iff.mpr fun result reads => by
        rw [keeps.repeated List.mem_cons_self listed found repeats] at reads
        cases reads
    · exact Option.bind_eq_none_iff.mpr fun result _ =>
        (keepsNext result).repeated later listed found repeats

section values

variable (listed : fields.lookup name = some shape)

include listed

theorem field (visit : Option Json → Option α)
    (keeps : Json.KeepsTo scope shape fun value => visit (some value)) :
    KeepsTo scope fields [name] fun record => visit (record.find? name) where
  changed alike reads := by
    rcases alike name with same | ⟨_, _, _, otherListed, found, otherFound, change⟩
    · rw [same]
      exact reads
    · cases listed.symm.trans otherListed
      rw [found] at reads
      rw [otherFound]
      exact keeps.changed change reads
  repeated member otherListed found repeats := by
    cases List.mem_singleton.mp member
    cases listed.symm.trans otherListed
    rw [found]
    exact keeps.repeated repeats

theorem required (keeps : Json.KeepsTo scope shape read) :
    KeepsTo scope fields [name] fun record => record.required name read :=
  field listed (fun given => given.bind read) keeps

theorem optional (keeps : Json.KeepsTo scope shape read) :
    KeepsTo scope fields [name] fun record => record.optional name read := by
  simp only [optional_eq_elim]
  exact field listed (fun given => given.elim (some none) (Json.optional? read)) keeps.optional?

theorem defaulted (default : α) (keeps : Json.KeepsTo scope shape read) :
    KeepsTo scope fields [name] fun record => record.defaulted name default read := by
  simp only [defaulted_eq_elim]
  exact field listed (fun given => given.elim (some default) read) keeps

end values

end KeepsTo

section given

variable (listsFields : known.map Field.name = fields.map Prod.fst)
  {front back : List (String × Json)} {before after items : List Json} {value : Json}
  {record : Record}

theorem find?_append_cons (fresh : name ∉ front.map Prod.fst) :
    find? ⟨front ++ (name, value) :: back⟩ name = some value := by
  have missing : front.lookup name = none := by
    rw [List.lookup_eq_none_iff]
    intro member there
    exact bne_iff_ne.mpr fun same => fresh (List.mem_map.mpr ⟨member, there, same.symm⟩)
  rw [find?, List.lookup_append, missing, Option.none_or, List.lookup_cons_self]

theorem find?_append_cons_of_ne {asked : String} (different : asked ≠ name) :
    find? ⟨front ++ (name, value) :: back⟩ asked = find? ⟨front ++ back⟩ asked := by
  rw [find?, find?, List.lookup_append, List.lookup_append, ByName.lookup_cons_of_ne different]

theorem alike_replaced {other : Json} (listed : fields.lookup name = some shape)
    (fresh : name ∉ front.map Prod.fst) (change : Changed scope shape value other) :
    Alike scope fields ⟨front ++ (name, value) :: back⟩ ⟨front ++ (name, other) :: back⟩ := by
  intro asked
  by_cases here : asked = name
  · subst here
    exact .inr ⟨shape, value, other, listed, find?_append_cons fresh, find?_append_cons fresh,
      change⟩
  · exact .inl ((find?_append_cons_of_ne here).trans (find?_append_cons_of_ne here).symm)

theorem ofMembers?_eq_some_iff {members : List (String × Json)} :
    ofMembers? known members = some record ↔
      ((members.filter fun member => known.any (·.name == member.1)).map Prod.fst).Nodup ∧
        record = ⟨members.filter fun member => known.any (·.name == member.1)⟩ := by
  simp [ofMembers?, eq_comm]

include listsFields

theorem any_name_iff : known.any (·.name == name) ↔ name ∈ fields.map Prod.fst := by
  rw [← listsFields]
  simp

omit listsFields in
theorem ofMembers?_perm {members others : List (String × Json)} (same : members.Perm others)
    (given : ofMembers? known members = some record) :
    ∃ other, ofMembers? known others = some other ∧ Alike scope fields record other := by
  rcases ofMembers?_eq_some_iff.mp given with ⟨once, rfl⟩
  have alike := same.filter fun member => known.any (·.name == member.1)
  have otherOnce := (alike.map Prod.fst).nodup_iff.mp once
  refine ⟨_, ofMembers?_eq_some_iff.mpr ⟨otherOnce, rfl⟩, fun name => .inl ?_⟩
  apply Option.ext
  intro value
  rw [find?, find?, lookup_eq_some_iff_mem_of_nodup once,
    lookup_eq_some_iff_mem_of_nodup otherOnce, alike.mem_iff]

theorem ofMembers?_insert (unknown : name ∉ fields.map Prod.fst) :
    ofMembers? known (front ++ (name, value) :: back) = ofMembers? known (front ++ back) := by
  have passed : known.any (·.name == name) = false :=
    Bool.eq_false_iff.mpr fun isKnown => unknown ((any_name_iff listsFields).mp isKnown)
  simp [ofMembers?, passed]

theorem ofMembers?_replace (isKnown : name ∈ fields.map Prod.fst)
    (given : ofMembers? known (front ++ (name, value) :: back) = some record) :
    ∃ first last, name ∉ first.map Prod.fst ∧ record = ⟨first ++ (name, value) :: last⟩ ∧
      ∀ other, ofMembers? known (front ++ (name, other) :: back) =
        some ⟨first ++ (name, other) :: last⟩ := by
  have taken : known.any (·.name == name) = true := (any_name_iff listsFields).mpr isKnown
  rcases ofMembers?_eq_some_iff.mp given with ⟨once, rfl⟩
  simp only [List.filter_append, List.filter_cons, taken, if_true] at once ⊢
  refine ⟨_, _, ?_, rfl, fun other => ofMembers?_eq_some_iff.mpr ?_⟩
  · rw [List.map_append, List.map_cons, List.nodup_middle, List.nodup_cons] at once
    exact fun early => once.1 (List.mem_append_left _ early)
  · simp only [List.filter_append, List.filter_cons, taken, if_true]
    exact ⟨by simpa using once, trivial⟩

theorem ofItems?_replace (once : (fields.map Prod.fst).Nodup)
    (given : ofItems? known (before ++ value :: after) = some record) :
    ∃ name shape first last, fields.lookup name = some shape ∧
      fields[before.length]? = some (name, shape) ∧ name ∉ first.map Prod.fst ∧
      record = ⟨first ++ (name, value) :: last⟩ ∧
      ∀ other, ofItems? known (before ++ other :: after) =
        some ⟨first ++ (name, other) :: last⟩ := by
  have lengths : known.length = fields.length := by
    simpa using congrArg List.length listsFields
  rw [ofItems?, Option.ite_none_right_eq_some] at given
  rcases given with ⟨fits, given⟩
  cases given
  have inside : before.length < fields.length := by
    have count := fits.1
    rw [List.length_append, List.length_cons] at count
    omega
  rcases exists_split inside with ⟨front, ⟨name, shape⟩, back, rfl, length⟩
  have fresh : name ∉ front.map Prod.fst := by
    rw [List.map_append, List.map_cons, List.nodup_middle, List.nodup_cons] at once
    exact fun early => once.1 (List.mem_append_left _ early)
  have zipped : ∀ item : Json, (known.map Field.name).zip (before ++ item :: after) =
      (front.map Prod.fst).zip before ++ (name, item) :: (back.map Prod.fst).zip after := by
    intro item
    rw [listsFields, List.map_append, List.map_cons, List.zip_append (by simpa using length)]
    rfl
  refine ⟨name, shape, (front.map Prod.fst).zip before, (back.map Prod.fst).zip after, ?_, ?_, ?_,
    by rw [zipped], fun other => ?_⟩
  · exact (lookup_eq_some_iff_mem_of_nodup once).mpr (by simp)
  · simp [← length]
  · rintro early
    rcases List.mem_map.mp early with ⟨⟨_, item⟩, paired, rfl⟩
    exact fresh (List.of_mem_zip paired).1
  · have sameLength : (before ++ other :: after).length = (before ++ value :: after).length := by
      simp
    rw [ofItems?, sameLength, if_pos fits, zipped]

end given

section ofJson?

variable (listsFields : known.map Field.name = fields.map Prod.fst)
  (once : (fields.map Prod.fst).Nodup) {value : Json} {record : Record}

include listsFields once

theorem ofJson?_of_changed {other : Json} (changed : Changed scope (.record fields) value other)
    (given : ofJson? known value = some record) :
    ∃ result, ofJson? known other = some result ∧ Alike scope fields record result := by
  cases changed with
  | permuted same => exact ofMembers?_perm same given
  | inserted _ unknown =>
      exact ⟨record, (ofMembers?_insert listsFields unknown).trans given, fun _ => .inl rfl⟩
  | @member _ _ front back name held other inside =>
      by_cases isKnown : name ∈ fields.map Prod.fst
      · rcases ofMembers?_replace listsFields isKnown given with ⟨first, last, fresh, rfl, replaced⟩
        have listed : ∃ shape, fields.lookup name = some shape := by
          rcases List.mem_map.mp isKnown with ⟨⟨_, shape⟩, member, rfl⟩
          exact ⟨shape, (lookup_eq_some_iff_mem_of_nodup once).mpr member⟩
        rcases listed with ⟨shape, listed⟩
        have change : Changed scope shape held other := by
          rwa [Shape.ofMember_record, listed] at inside
        exact ⟨_, replaced other, alike_replaced listed fresh change⟩
      · have passed : ∀ held, ofJson? known (.object (front ++ (name, held) :: back)) =
            ofMembers? known (front ++ back) :=
          fun _ => ofMembers?_insert listsFields isKnown
        exact ⟨record, (passed other).trans ((passed held).symm.trans given), fun _ => .inl rfl⟩
  | @item _ _ before after held other inside =>
      rcases ofItems?_replace listsFields once given with
        ⟨name, shape, first, last, listed, place, fresh, rfl, replaced⟩
      have change : Changed scope shape held other := by
        rwa [Shape.ofItem_record, List.getElem?_map, place] at inside
      exact ⟨_, replaced other, alike_replaced listed fresh change⟩

/-- Where a value with a repeated member gives a record, the repetition is inside a field. -/
theorem exists_repeats_of_ofJson? (repeats : Repeats scope (.record fields) value)
    (given : ofJson? known value = some record) :
    ∃ name shape inner, name ∈ fields.map Prod.fst ∧ fields.lookup name = some shape ∧
      record.find? name = some inner ∧ Repeats scope shape inner := by
  cases repeats with
  | @here _ _ front middle back name held again isKnown =>
      have taken : known.any (·.name == name) = true := (any_name_iff listsFields).mpr isKnown
      have distinct := (ofMembers?_eq_some_iff.mp given).1
      simp only [List.filter_append, List.filter_cons, taken, if_true, List.map_append,
        List.map_cons, List.nodup_middle, List.nodup_cons] at distinct
      exact absurd (by simp) distinct.1
  | @member _ _ front back name inner inside =>
      cases listed : fields.lookup name with
      | none =>
          rw [Shape.ofMember_record, listed] at inside
          exact absurd inside not_repeats_whole
      | some shape =>
          have isKnown : name ∈ fields.map Prod.fst :=
            List.mem_map.mpr ⟨_, (lookup_eq_some_iff_mem_of_nodup once).mp listed, rfl⟩
          rcases ofMembers?_replace listsFields isKnown given with ⟨first, last, fresh, rfl, _⟩
          refine ⟨name, shape, inner, isKnown, listed, find?_append_cons fresh, ?_⟩
          rwa [Shape.ofMember_record, listed] at inside
  | @item _ _ before after inner inside =>
      rcases ofItems?_replace listsFields once given with
        ⟨name, shape, first, last, listed, place, fresh, rfl, _⟩
      have isKnown : name ∈ fields.map Prod.fst :=
        List.mem_map.mpr ⟨_, (lookup_eq_some_iff_mem_of_nodup once).mp listed, rfl⟩
      refine ⟨name, shape, _, isKnown, listed, find?_append_cons fresh, ?_⟩
      rwa [Shape.ofItem_record, List.getElem?_map, place] at inside

end ofJson?

end Record

/-- A reader that takes a record apart keeps to its shape if it needs all fields and keeps to
their shapes. -/
theorem KeepsTo.record {known : List Field} {fields : List (String × Shape)}
    {next : Record → Option α} (listsFields : known.map Field.name = fields.map Prod.fst)
    (once : (fields.map Prod.fst).Nodup)
    (keeps : Record.KeepsTo scope fields (fields.map Prod.fst) next) :
    KeepsTo scope (.record fields) fun value => Record.ofJson? known value >>= next where
  changed changed reads := by
    rcases Option.bind_eq_some_iff.mp reads with ⟨record, given, reads⟩
    rcases Record.ofJson?_of_changed listsFields once changed given with ⟨other, otherGiven, alike⟩
    exact Option.bind_eq_some_iff.mpr ⟨other, otherGiven, keeps.changed alike reads⟩
  repeated repeats := by
    refine Option.bind_eq_none_iff.mpr fun record given => ?_
    rcases Record.exists_repeats_of_ofJson? listsFields once repeats given with
      ⟨name, shape, inner, isKnown, listed, found, inside⟩
    exact keeps.repeated isKnown listed found inside

end ReloadReport.Json
