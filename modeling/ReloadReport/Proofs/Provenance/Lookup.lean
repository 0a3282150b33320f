import ReloadReport.Provenance.Table

/-!
# Looking up places

The entry of a table that holds for a place is the one with the greatest generated place up to it,
and of several such entries the last. Sorting a table changes no answer, since it keeps the order
of the entries for one place.
-/

namespace ReloadReport.Provenance.Table

/-- The author's place that a table in any order has for a place of the generated file. -/
inductive Leads (table : Table) (place : UInt32) : Option UInt32 → Prop
  | entry (parts : table = front ++ (generated, source) :: back) (reached : generated ≤ place)
      (earlier : ∀ entry ∈ front, entry.1 ≤ place → entry.1 ≤ generated)
      (later : ∀ entry ∈ back, entry.1 ≤ place → entry.1 < generated) :
      Leads table place (some source)
  | nothing (beyond : ∀ entry ∈ table, place < entry.1) : Leads table place none

variable {table : Table} {place : UInt32}

section parts

variable {front back : Table} {generated source : UInt32}

theorem le_of_parts (parts : table = front ++ (generated, source) :: back)
    (earlier : ∀ entry ∈ front, entry.1 ≤ place → entry.1 ≤ generated)
    (later : ∀ entry ∈ back, entry.1 ≤ place → entry.1 < generated) :
    ∀ entry ∈ table, entry.1 ≤ place → entry.1 ≤ generated := by
  intro entry member within
  rw [parts, List.mem_append, List.mem_cons] at member
  rcases member with inFront | rfl | inBack
  · exact earlier entry inFront within
  · exact UInt32.le_refl _
  · exact UInt32.le_of_lt (later entry inBack within)

theorem getLast?_filter_of_parts (parts : table = front ++ (generated, source) :: back)
    (reached : generated ≤ place) (later : ∀ entry ∈ back, entry.1 ≤ place → entry.1 < generated) :
    (table.filter fun entry => entry.1 == generated).getLast? = some (generated, source) := by
  have noneLater : (back.filter fun entry => entry.1 == generated) = [] := by
    rw [List.filter_eq_nil_iff]
    intro entry inBack same
    have equal : entry.1 = generated := by simpa using same
    exact UInt32.lt_irrefl generated (equal ▸ later entry inBack (equal ▸ reached))
  rw [parts, List.filter_append, List.filter_cons_of_pos (by simp), noneLater, List.getLast?_concat]

end parts

theorem beyond_of_mem_dropWhile (ordered : table.Pairwise fun left right => left.1 ≤ right.1)
    {entry : UInt32 × UInt32} (member : entry ∈ table.dropWhile (·.1 ≤ place)) :
    place < entry.1 := by
  have behind := ordered.sublist (List.dropWhile_sublist (p := (·.1 ≤ place)))
  cases dropped : table.dropWhile (·.1 ≤ place) with
  | nil =>
      rw [dropped] at member
      cases member
  | cons head rest =>
      have stopped := List.head?_dropWhile_not (·.1 ≤ place) table
      simp only [dropped, List.head?_cons, decide_eq_false_iff_not, UInt32.not_le] at stopped
      rw [dropped] at member behind
      rcases List.mem_cons.mp member with rfl | later
      · exact stopped
      · exact UInt32.lt_of_lt_of_le stopped ((List.pairwise_cons.mp behind).1 entry later)

theorem leads_at?_of_pairwise (ordered : table.Pairwise fun left right => left.1 ≤ right.1)
    (place : UInt32) : Leads table place (table.at? place) := by
  have parts : table.takeWhile (·.1 ≤ place) ++ table.dropWhile (·.1 ≤ place) = table :=
    List.takeWhile_append_dropWhile
  rw [at?]
  cases last : (table.takeWhile (·.1 ≤ place)).getLast? with
  | none =>
      apply Leads.nothing
      intro entry member
      rw [List.getLast?_eq_none_iff.mp last, List.nil_append] at parts
      exact beyond_of_mem_dropWhile ordered (parts.symm ▸ member)
  | some entry =>
      rcases List.getLast?_eq_some_iff.mp last with ⟨front, taken⟩
      rw [taken, List.append_assoc, List.singleton_append] at parts
      have reached : ∀ entry ∈ table.takeWhile (·.1 ≤ place), entry.1 ≤ place := by
        intro entry member
        simpa using List.all_eq_true.mp List.all_takeWhile entry member
      rw [taken] at reached
      have ascending := ordered.sublist (List.takeWhile_sublist (p := (·.1 ≤ place)))
      rw [taken, List.pairwise_append] at ascending
      refine .entry parts.symm (reached entry (by simp)) (fun earlier member _ => ?_)
        fun later member upTo => ?_
      · exact ascending.2.2 earlier member entry (by simp)
      · exact absurd upTo (UInt32.not_le.mpr (beyond_of_mem_dropWhile ordered member))

/-- Sorting keeps the entries for one place and their order. -/
theorem filter_sorted (table : Table) (generated : UInt32) :
    ((sorted table).filter fun entry => entry.1 == generated) =
      table.filter fun entry => entry.1 == generated := by
  have alike : (table.filter fun entry => entry.1 == generated).Pairwise
      fun left right => decide (left.1 ≤ right.1) = true := by
    rw [List.pairwise_iff_forall_sublist]
    intro left right both
    have leftHere := both.subset (List.mem_cons_self)
    have rightHere := both.subset (List.mem_cons_of_mem left List.mem_cons_self)
    simp only [List.mem_filter, beq_iff_eq] at leftHere rightHere
    rw [leftHere.2, rightHere.2]
    exact decide_eq_true (UInt32.le_refl generated)
  have kept := (List.sublist_mergeSort ascends_trans ascends_total alike
    (List.filter_sublist)).filter fun entry => entry.1 == generated
  simp only [List.filter_filter, Bool.and_self] at kept
  refine (kept.eq_of_length ?_).symm
  exact ((List.mergeSort_perm table _).filter _).length_eq.symm

theorem leads_at?_sorted (table : Table) (place : UInt32) :
    Leads table place ((sorted table).at? place) := by
  have ordered := leads_at?_of_pairwise (pairwise_sorted table) place
  have sameMembers : ∀ entry, entry ∈ table ↔ entry ∈ sorted table := fun entry =>
    List.mem_mergeSort.symm
  generalize (sorted table).at? place = found at ordered
  cases ordered with
  | nothing beyond =>
      exact .nothing fun entry member => beyond entry ((sameMembers entry).mp member)
  | @entry front generated source back parts reached earlier later =>
      have upTo : ∀ entry ∈ table, entry.1 ≤ place → entry.1 ≤ generated := fun entry member =>
        le_of_parts parts earlier later entry ((sameMembers entry).mp member)
      -- Among the entries for the same place this one stays the last.
      have last := getLast?_filter_of_parts parts reached later
      rw [filter_sorted] at last
      rw [List.getLast?_filter, List.find?_eq_some_iff_append] at last
      rcases last with ⟨_, after, before, reversed, noneAfter⟩
      have split : table = before.reverse ++ (generated, source) :: after.reverse := by
        rw [← List.reverse_reverse table, reversed]
        simp
      refine .entry split reached (fun entry member => ?_) fun entry member within => ?_
      · exact upTo entry (split ▸ List.mem_append_left _ member)
      · refine UInt32.lt_of_le_of_ne
          (upTo entry (split ▸ List.mem_append_right _ (List.mem_cons_of_mem _ member)) within) ?_
        simpa using noneAfter entry (List.mem_reverse.mp member)

theorem Leads.unique {found other : Option UInt32} (leads : Leads table place found)
    (otherLeads : Leads table place other) : found = other := by
  cases leads with
  | nothing beyond =>
      cases otherLeads with
      | nothing => rfl
      | @entry front generated source back parts reached =>
          exact absurd reached (UInt32.not_le.mpr (beyond (generated, source) (by simp [parts])))
  | @entry front generated source back parts reached earlier later =>
      cases otherLeads with
      | nothing beyond =>
          exact absurd reached (UInt32.not_le.mpr (beyond (generated, source) (by simp [parts])))
      | @entry otherFront otherGenerated otherSource otherBack otherParts otherReached otherEarlier
          otherLater =>
          have same : generated = otherGenerated := UInt32.le_antisymm
            (le_of_parts otherParts otherEarlier otherLater (generated, source) (by simp [parts])
              reached)
            (le_of_parts parts earlier later (otherGenerated, otherSource) (by simp [otherParts])
              otherReached)
          subst same
          have last := getLast?_filter_of_parts parts reached later
          rw [getLast?_filter_of_parts otherParts otherReached otherLater] at last
          simpa using last.symm

end ReloadReport.Provenance.Table
