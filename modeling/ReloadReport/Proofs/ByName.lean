import Mathlib.Data.List.Perm.Basic
import ReloadReport.ByName

/-!
# Looking up names

What the names of a map lead to after the map was built from a list of entries, or after its values
were replaced by a walk that may fail. A map is determined by what its names lead to.
-/

namespace ReloadReport.ByName

section find?

theorem lookup_cons_of_ne {name other : String} {held : α} {rest : List (String × α)}
    (different : name ≠ other) : ((other, held) :: rest).lookup name = rest.lookup name := by
  have test : (name == other) = false := beq_eq_false_iff_ne.mpr different
  simp only [List.lookup_cons, test]

theorem lookup_eq_some_iff_mem {entries : List (String × α)} {name : String} {value : α}
    (ascending : entries.Pairwise fun earlier later => earlier.1 < later.1) :
    entries.lookup name = some value ↔ (name, value) ∈ entries := by
  induction entries with
  | nil => simp
  | cons head rest induction =>
      rcases head with ⟨other, held⟩
      rcases List.pairwise_cons.mp ascending with ⟨below, ordered⟩
      by_cases same : name = other
      · subst same
        have fresh : (name, value) ∉ rest := fun member =>
          String.lt_irrefl name (below (name, value) member)
        simp [fresh, eq_comm]
      · simp [lookup_cons_of_ne same, same, induction ordered]

variable {left right values : ByName α} {name : String} {value : α}

theorem find?_eq_some_iff : values.find? name = some value ↔ (name, value) ∈ values.entries :=
  lookup_eq_some_iff_mem values.ascending

theorem eq_of_find? (same : ∀ name, left.find? name = right.find? name) : left = right := by
  have distinct : ∀ values : ByName α, values.entries.Nodup := by
    intro values
    apply values.ascending.imp
    intro first second below same
    exact String.lt_irrefl second.1 (same ▸ below)
  have alike : left.entries.Perm right.entries := by
    apply (List.perm_ext_iff_of_nodup (distinct left) (distinct right)).mpr
    intro entry
    rw [← find?_eq_some_iff, ← find?_eq_some_iff, same]
  have entries : left.entries = right.entries := by
    apply alike.eq_of_pairwise (fun first second _ _ below above => ?_) left.ascending
      right.ascending
    exact absurd above (String.lt_asymm below)
  rcases left with ⟨_, _⟩
  rcases right with ⟨_, _⟩
  cases entries
  rfl

theorem lookup_insertEntry (name other : String) (value : α) (entries : List (String × α)) :
    (insertEntry name value entries).lookup other =
      if other = name then some value else entries.lookup other := by
  induction entries with
  | nil =>
      by_cases here : other = name
      · simp [insertEntry, here]
      · simp [insertEntry, lookup_cons_of_ne here, here]
  | cons head rest induction =>
      rcases head with ⟨front, held⟩
      rw [insertEntry]
      split
      next =>
        by_cases here : other = name
        · simp [here]
        · rw [lookup_cons_of_ne here, if_neg here]
      next =>
        split
        next same =>
          subst same
          by_cases here : other = name
          · simp [here]
          · rw [lookup_cons_of_ne here, lookup_cons_of_ne here, if_neg here]
        next different =>
          by_cases here : other = front
          · simp [here, Ne.symm different]
          · rw [lookup_cons_of_ne here, lookup_cons_of_ne here, induction]

theorem find?_insert (values : ByName α) (name other : String) (value : α) :
    (values.insert name value).find? other =
      if other = name then some value else values.find? other :=
  lookup_insertEntry name other value values.entries

end find?

section ofList

def LastGiven (entries : List (String × α)) (name : String) (value : α) : Prop :=
  ∃ front back, entries = front ++ (name, value) :: back ∧ ∀ later ∈ back, later.1 ≠ name

theorem find?_foldl_insert (entries : List (String × α)) (values : ByName α) (name : String) :
    (entries.foldl (fun values (name, value) => values.insert name value) values).find? name =
      (entries.reverse.lookup name).or (values.find? name) := by
  induction entries generalizing values with
  | nil => rfl
  | cons head rest induction =>
      rcases head with ⟨other, value⟩
      rw [List.foldl_cons, induction, find?_insert, List.reverse_cons, List.lookup_append,
        Option.or_assoc]
      by_cases here : name = other
      · simp [here]
      · simp [lookup_cons_of_ne here, here]

theorem find?_ofList_eq_some_iff {entries : List (String × α)} {name : String} {value : α} :
    (ofList entries).find? name = some value ↔ LastGiven entries name value := by
  have nowhere : (empty : ByName α).find? name = none := rfl
  rw [ofList, find?_foldl_insert, nowhere, Option.or_none, List.lookup_eq_some_iff]
  constructor
  · intro found
    rcases found with ⟨back, front, reversed, noneLater⟩
    refine ⟨front.reverse, back.reverse, ?_, fun later member => ?_⟩
    · simpa using congrArg List.reverse reversed
    · simpa using Ne.symm (by simpa using noneLater later (List.mem_reverse.mp member))
  · intro given
    rcases given with ⟨front, back, rfl, noneLater⟩
    refine ⟨back.reverse, front.reverse, by simp, fun later member => ?_⟩
    simpa using Ne.symm (noneLater later (List.mem_reverse.mp member))

theorem ofList_entries (values : ByName α) : ofList values.entries = values := by
  apply eq_of_find?
  intro name
  apply Option.ext
  intro value
  rw [find?_ofList_eq_some_iff, find?_eq_some_iff]
  constructor
  · intro given
    rcases given with ⟨front, back, parts, _⟩
    simp [parts]
  · intro member
    rcases List.append_of_mem member with ⟨front, back, parts⟩
    have ascending := values.ascending
    rw [parts, List.pairwise_append, List.pairwise_cons] at ascending
    exact ⟨front, back, parts, fun later behind same =>
      String.lt_irrefl name (same ▸ ascending.2.1.1 later behind)⟩

end ofList

section traverse

variable {visit : α → Except ε (Option β)} {values : ByName α} {problem : ε}

/-- A walk over ascending entries fails at the smallest name that has a problem. -/
theorem exists_of_traverseEntries_error {entries : List (String × α)}
    (ascending : entries.Pairwise fun earlier later => earlier.1 < later.1)
    (failed : traverseEntries visit entries = .error problem) :
    ∃ entry ∈ entries, visit entry.2 = .error problem ∧
      ∀ other ∈ entries, ∀ otherProblem, visit other.2 = .error otherProblem →
        entry.1 ≤ other.1 := by
  induction entries with
  | nil => cases failed
  | cons head rest induction =>
      rcases List.pairwise_cons.mp ascending with ⟨below, ordered⟩
      rw [traverseEntries] at failed
      split at failed
      next _ _ here =>
        cases failed
        refine ⟨head, List.mem_cons_self, here, fun other member _ _ => ?_⟩
        rcases List.mem_cons.mp member with rfl | later
        · exact String.le_refl _
        · exact Std.le_of_lt (below other later)
      next _ _ _ passed restFailed =>
        cases failed
        rcases induction ordered restFailed with ⟨entry, member, here, smallest⟩
        refine ⟨entry, List.mem_cons_of_mem head member, here, fun other inside problem fails => ?_⟩
        rcases List.mem_cons.mp inside with rfl | later
        · cases passed.symm.trans fails
        · exact smallest other later problem fails
      next => cases failed
      next => cases failed

theorem mem_of_traverseEntries_ok {entries : List (String × α)} {visited : List (String × β)}
    (done : traverseEntries visit entries = .ok visited) :
    (∀ entry ∈ entries, ∃ found, visit entry.2 = .ok found) ∧
      ∀ name found, (name, found) ∈ visited ↔
        ∃ value, (name, value) ∈ entries ∧ visit value = .ok (some found) := by
  induction entries generalizing visited with
  | nil =>
      cases done
      simp
  | cons head rest induction =>
      rcases head with ⟨here, held⟩
      rw [traverseEntries] at done
      split at done
      next => cases done
      next => cases done
      next passed restDone =>
        cases done
        rcases induction restDone with ⟨allPass, members⟩
        refine ⟨List.forall_mem_cons.mpr ⟨⟨_, passed⟩, allPass⟩, fun name found => ?_⟩
        rw [members name found]
        constructor
        · intro visited
          rcases visited with ⟨value, member, made⟩
          exact ⟨value, List.mem_cons_of_mem _ member, made⟩
        · intro visited
          rcases visited with ⟨value, member, made⟩
          rcases List.mem_cons.mp member with same | later
          · cases same
            cases passed.symm.trans made
          · exact ⟨value, later, made⟩
      next passed restDone =>
        cases done
        rcases induction restDone with ⟨allPass, members⟩
        refine ⟨List.forall_mem_cons.mpr ⟨⟨_, passed⟩, allPass⟩, fun name found => ?_⟩
        rw [List.mem_cons, members name found]
        constructor
        · intro visited
          rcases visited with same | ⟨value, member, made⟩
          · cases same
            exact ⟨held, List.mem_cons_self, passed⟩
          · exact ⟨value, List.mem_cons_of_mem _ member, made⟩
        · intro visited
          rcases visited with ⟨value, member, made⟩
          rcases List.mem_cons.mp member with same | later
          · cases same
            cases passed.symm.trans made
            exact .inl rfl
          · exact .inr ⟨value, later, made⟩

theorem traverseEntries_of_traverse {visited : Except ε (ByName β)}
    (done : values.traverse visit = visited) :
    traverseEntries visit values.entries = visited.map entries := by
  subst done
  rw [traverse]
  split
  next failed => exact failed
  next passed => exact passed

theorem exists_ok_of_traverse_ok {visited : ByName β} (done : values.traverse visit = .ok visited)
    {name : String} {value : α} (held : values.find? name = some value) :
    ∃ found, visit value = .ok found :=
  (mem_of_traverseEntries_ok (traverseEntries_of_traverse done)).1 (name, value)
    (find?_eq_some_iff.mp held)

theorem find?_of_traverse_ok {visited : ByName β} (done : values.traverse visit = .ok visited)
    {name : String} {found : β} :
    visited.find? name = some found ↔
      ∃ value, values.find? name = some value ∧ visit value = .ok (some found) := by
  have members := (mem_of_traverseEntries_ok (traverseEntries_of_traverse done)).2 name found
  simp only [find?_eq_some_iff]
  exact members

theorem traverse_eq_error_iff :
    values.traverse visit = .error problem ↔
      ∃ name value, values.find? name = some value ∧ visit value = .error problem ∧
        ∀ other held otherProblem, values.find? other = some held →
          visit held = .error otherProblem → name ≤ other := by
  have smallestOf : ∀ {problem}, values.traverse visit = .error problem →
      ∃ name value, values.find? name = some value ∧ visit value = .error problem ∧
        ∀ other held otherProblem, values.find? other = some held →
          visit held = .error otherProblem → name ≤ other := by
    intro problem failed
    rcases exists_of_traverseEntries_error values.ascending (traverseEntries_of_traverse failed)
      with ⟨entry, member, fails, smallest⟩
    exact ⟨entry.1, entry.2, find?_eq_some_iff.mpr member, fails,
      fun other held otherProblem found => smallest (other, held) (find?_eq_some_iff.mp found)
        otherProblem⟩
  refine ⟨smallestOf, fun least => ?_⟩
  rcases least with ⟨name, value, held, fails, smallest⟩
  cases done : values.traverse visit with
  | ok visited =>
      rcases exists_ok_of_traverse_ok done held with ⟨found, passed⟩
      cases passed.symm.trans fails
  | error otherProblem =>
      rcases smallestOf done with ⟨other, otherValue, otherHeld, otherFails, otherSmallest⟩
      -- Both names are the smallest one that has a problem.
      have same : name = other := String.le_antisymm
        (smallest other otherValue otherProblem otherHeld otherFails)
        (otherSmallest name value problem held fails)
      subst same
      cases held.symm.trans otherHeld
      cases otherFails.symm.trans fails
      rfl

theorem traverse_congr {left right : ByName α} {other : α → Except ε (Option β)}
    (errors : ∀ name problem,
      (∃ value, left.find? name = some value ∧ visit value = .error problem) ↔
        ∃ value, right.find? name = some value ∧ other value = .error problem)
    (results : ∀ name found,
      (∃ value, left.find? name = some value ∧ visit value = .ok (some found)) ↔
        ∃ value, right.find? name = some value ∧ other value = .ok (some found)) :
    left.traverse visit = right.traverse other := by
  cases done : left.traverse visit with
  | error problem =>
      rcases traverse_eq_error_iff.mp done with ⟨name, value, held, fails, smallest⟩
      rcases (errors name problem).mp ⟨value, held, fails⟩ with ⟨given, givenHeld, givenFails⟩
      apply Eq.symm
      apply traverse_eq_error_iff.mpr
      refine ⟨name, given, givenHeld, givenFails, ?_⟩
      intro further last lastProblem lastHeld lastFails
      rcases (errors further lastProblem).mpr ⟨last, lastHeld, lastFails⟩ with
        ⟨first, firstHeld, firstFails⟩
      exact smallest further first lastProblem firstHeld firstFails
  | ok visited =>
      cases otherDone : right.traverse other with
      | error problem =>
          rcases traverse_eq_error_iff.mp otherDone with ⟨name, value, held, fails, _⟩
          rcases (errors name problem).mpr ⟨value, held, fails⟩ with ⟨given, givenHeld, givenFails⟩
          rcases exists_ok_of_traverse_ok done givenHeld with ⟨found, passed⟩
          cases passed.symm.trans givenFails
      | ok otherVisited =>
          have same : visited = otherVisited := by
            apply eq_of_find?
            intro name
            apply Option.ext
            intro found
            rw [find?_of_traverse_ok done, find?_of_traverse_ok otherDone, results]
          rw [same]

theorem traverse_insert_congr (values : ByName α) (name : String) {left right : α}
    (same : visit left = visit right) :
    (values.insert name left).traverse visit = (values.insert name right).traverse visit := by
  have alike : ∀ other result, (∃ value, (values.insert name left).find? other = some value ∧
      visit value = result) ↔ ∃ value, (values.insert name right).find? other = some value ∧
        visit value = result := by
    intro other result
    simp only [find?_insert]
    by_cases here : other = name
    · simp [here, same]
    · simp [here]
  exact traverse_congr (fun other problem => alike other _) (fun other found => alike other _)

end traverse

end ReloadReport.ByName
