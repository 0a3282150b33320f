import ReloadReport.Proofs.Provenance.Lookup

/-!
# Stable order of tables

What it means that a table has the entries of another one in ascending order, those for one place
as they stood. There is one such table, and it is the sorted one.
-/

namespace ReloadReport.Provenance.Table

/-- Two tables have the same entries for every place, in the same order. -/
def Agrees (left right : Table) : Prop :=
  ∀ place, (left.filter fun entry => entry.1 == place) =
    right.filter fun entry => entry.1 == place

/-- The entries of a table in ascending order, those for one place in the order that they had. -/
structure StablySorts (table ordered : Table) : Prop where
  ascending : ordered.Pairwise fun left right => left.1 ≤ right.1
  stable : Agrees ordered table

theorem stablySorts_sorted (table : Table) : StablySorts table (sorted table) :=
  ⟨pairwise_sorted table, filter_sorted table⟩

namespace Agrees

variable {left right : Table} {entry other : UInt32 × UInt32}

theorem symm (agrees : Agrees left right) : Agrees right left :=
  fun place => (agrees place).symm

theorem mem (agrees : Agrees left right) (member : entry ∈ left) : entry ∈ right := by
  have kept : entry ∈ left.filter fun other => other.1 == entry.1 := by simp [member]
  rw [agrees entry.1] at kept
  exact (List.mem_filter.mp kept).1

theorem of_mem (alike : ∀ entry ∈ left ++ right,
    (left.filter fun other => other.1 == entry.1) = right.filter fun other => other.1 == entry.1) :
    Agrees left right := by
  intro place
  by_cases listed : ∃ entry ∈ left ++ right, entry.1 = place
  · rcases listed with ⟨entry, member, rfl⟩
    exact alike entry member
  · have apart : ∀ entry ∈ left ++ right, ¬ (entry.1 == place) = true := fun entry member same =>
      listed ⟨entry, member, beq_iff_eq.mp same⟩
    rcases List.forall_mem_append.mp apart with ⟨leftApart, rightApart⟩
    rw [List.filter_eq_nil_iff.mpr leftApart, List.filter_eq_nil_iff.mpr rightApart]

/-- The first entry of an ascending table lies nowhere beyond the entries of a table that agrees. -/
theorem head_le (agrees : Agrees (entry :: left) right)
    (ascends : (entry :: left).Pairwise fun left right => left.1 ≤ right.1)
    (member : other ∈ right) : entry.1 ≤ other.1 := by
  rcases List.mem_cons.mp (agrees.symm.mem member) with rfl | later
  · exact UInt32.le_refl _
  · exact (List.pairwise_cons.mp ascends).1 other later

/-- Tables that agree stay so without their first entries, where these are for one place. -/
theorem tail (agrees : Agrees (entry :: left) (other :: right)) (same : entry.1 = other.1) :
    entry = other ∧ Agrees left right := by
  have here := agrees other.1
  rw [List.filter_cons_of_pos (by simp [same]), List.filter_cons_of_pos (by simp)] at here
  rcases List.cons.inj here with ⟨equal, rest⟩
  refine ⟨equal, fun place => ?_⟩
  by_cases beside : other.1 = place
  · exact beside ▸ rest
  · have elsewhere := agrees place
    rwa [List.filter_cons_of_neg (by simp [same, beside]),
      List.filter_cons_of_neg (by simp [beside])] at elsewhere

theorem eq_of_pairwise (agrees : Agrees left right)
    (leftAscends : left.Pairwise fun left right => left.1 ≤ right.1)
    (rightAscends : right.Pairwise fun left right => left.1 ≤ right.1) : left = right := by
  induction left generalizing right with
  | nil =>
      symm
      apply List.eq_nil_iff_forall_not_mem.mpr
      intro entry member
      cases agrees.symm.mem member
  | cons head rest induction =>
      cases right with
      | nil => cases agrees.mem List.mem_cons_self
      | cons other others =>
          -- Both tables have an entry for the smallest place in front.
          have same : head.1 = other.1 := UInt32.le_antisymm
            (agrees.head_le leftAscends List.mem_cons_self)
            (agrees.symm.head_le rightAscends List.mem_cons_self)
          rcases agrees.tail same with ⟨rfl, restAgrees⟩
          rw [induction restAgrees (List.pairwise_cons.mp leftAscends).2
            (List.pairwise_cons.mp rightAscends).2]

end Agrees

theorem StablySorts.unique {table left right : Table} (leftSorts : StablySorts table left)
    (rightSorts : StablySorts table right) : left = right := by
  have agrees : Agrees left right := fun place =>
    (leftSorts.stable place).trans (rightSorts.stable place).symm
  exact agrees.eq_of_pairwise leftSorts.ascending rightSorts.ascending

theorem sorted_eq_iff_stablySorts {table ordered : Table} :
    sorted table = ordered ↔ StablySorts table ordered :=
  ⟨fun same => same ▸ stablySorts_sorted table, (stablySorts_sorted table).unique⟩

theorem sorted_eq_self_iff {table : Table} :
    sorted table = table ↔ table.Pairwise fun left right => left.1 ≤ right.1 := by
  rw [sorted_eq_iff_stablySorts]
  exact ⟨StablySorts.ascending, fun ordered => ⟨ordered, fun _ => rfl⟩⟩

theorem Agrees.sorted_eq {left right : Table} (agrees : Agrees left right) :
    sorted left = sorted right := by
  have leftSorts : StablySorts right (sorted left) :=
    ⟨pairwise_sorted left, fun place => (filter_sorted left place).trans (agrees place)⟩
  exact leftSorts.unique (stablySorts_sorted right)

end ReloadReport.Provenance.Table
