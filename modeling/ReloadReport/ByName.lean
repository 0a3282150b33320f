/-!
# Values by name

Finite maps from names to values, kept in ascending order of the names. The order of strings by
code points is also the order of their UTF-8 bytes, so it is the order in which the maps are
written.
-/

namespace ReloadReport

structure ByName (α : Type u) where
  entries : List (String × α) := []
  ascending : entries.Pairwise (fun earlier later => earlier.1 < later.1) := by simp
  deriving DecidableEq, Repr

namespace ByName

def empty : ByName α := {}

instance : Inhabited (ByName α) := ⟨empty⟩

def insertEntry (name : String) (value : α) : List (String × α) → List (String × α)
  | [] => [(name, value)]
  | (other, held) :: rest =>
      if name < other then (name, value) :: (other, held) :: rest
      else if name = other then (name, value) :: rest
      else (other, held) :: insertEntry name value rest

theorem mem_insertEntry {name : String} {value : α} {entries : List (String × α)}
    {entry : String × α} (member : entry ∈ insertEntry name value entries) :
    entry = (name, value) ∨ entry ∈ entries := by
  induction entries with
  | nil => simpa [insertEntry] using member
  | cons head rest induction =>
      rw [insertEntry] at member
      split at member
      next => simpa using member
      next =>
        split at member
        next =>
          rcases List.mem_cons.mp member with equal | member
          · exact .inl equal
          · exact .inr (List.mem_cons_of_mem _ member)
        next =>
          rcases List.mem_cons.mp member with equal | member
          · exact .inr (List.mem_cons.mpr (.inl equal))
          · rcases induction member with equal | member
            · exact .inl equal
            · exact .inr (List.mem_cons_of_mem _ member)

theorem ascending_insertEntry (name : String) (value : α) {entries : List (String × α)}
    (ascending : entries.Pairwise (fun earlier later => earlier.1 < later.1)) :
    (insertEntry name value entries).Pairwise (fun earlier later => earlier.1 < later.1) := by
  induction entries with
  | nil => exact List.pairwise_singleton _ _
  | cons head rest induction =>
      obtain ⟨above, ordered⟩ := List.pairwise_cons.mp ascending
      rw [insertEntry]
      split
      next below =>
        refine List.pairwise_cons.mpr ⟨fun entry member => ?_, ascending⟩
        rcases List.mem_cons.mp member with equal | member
        · exact equal ▸ below
        · exact String.lt_trans below (above entry member)
      next notBelow =>
        split
        next equal =>
          refine List.pairwise_cons.mpr ⟨fun entry member => ?_, ordered⟩
          exact equal ▸ above entry member
        next different =>
          refine List.pairwise_cons.mpr ⟨fun entry member => ?_, induction ordered⟩
          rcases mem_insertEntry member with equal | member
          · rcases Std.lt_trichotomy name head.1 with below | equal' | beyond
            · exact absurd below notBelow
            · exact absurd equal' different
            · exact equal ▸ beyond
          · exact above entry member

def insert (values : ByName α) (name : String) (value : α) : ByName α where
  entries := insertEntry name value values.entries
  ascending := ascending_insertEntry name value values.ascending

def ofList (entries : List (String × α)) : ByName α :=
  entries.foldl (fun values (name, value) => values.insert name value) empty

def find? (values : ByName α) (name : String) : Option α :=
  values.entries.lookup name

def traverseEntries (visit : α → Except ε (Option β)) :
    List (String × α) → Except ε (List (String × β))
  | [] => .ok []
  | (name, value) :: rest =>
      match visit value, traverseEntries visit rest with
      | .error problem, _ => .error problem
      | .ok _, .error problem => .error problem
      | .ok none, .ok visited => .ok visited
      | .ok (some found), .ok visited => .ok ((name, found) :: visited)

theorem sublist_of_traverseEntries {visit : α → Except ε (Option β)}
    {entries : List (String × α)} {visited : List (String × β)}
    (done : traverseEntries visit entries = .ok visited) :
    (visited.map Prod.fst).Sublist (entries.map Prod.fst) := by
  induction entries generalizing visited with
  | nil =>
      obtain rfl : [] = visited := by simpa [traverseEntries] using done
      exact .slnil
  | cons head rest induction =>
      rw [traverseEntries] at done
      split at done
      next => nomatch done
      next => nomatch done
      next restDone =>
        obtain rfl := Except.ok.inj done
        exact (induction restDone).cons _
      next restDone =>
        obtain rfl := Except.ok.inj done
        exact (induction restDone).cons_cons _

/-- Replace every value, leaving out the names for which there is nothing. The error is the one of
the smallest name that has one. -/
def traverse (visit : α → Except ε (Option β)) (values : ByName α) : Except ε (ByName β) :=
  match done : traverseEntries visit values.entries with
  | .error problem => .error problem
  | .ok visited => .ok {
      entries := visited
      ascending := by
        have ascending := values.ascending
        rw [← List.pairwise_map (f := Prod.fst) (R := (· < ·))] at ascending ⊢
        exact ascending.sublist (sublist_of_traverseEntries done) }

/-- Names are ordered by code points, and the last value of a name counts. -/
example : (ofList [("b", 1), ("a", 2), ("é", 3), ("b", 4)]).entries =
    [("a", 2), ("b", 4), ("é", 3)] := by
  decide

end ByName
end ReloadReport
