import ReloadReport.Path

/-!
# Files in memory

Texts by path, where every spelling of a path leads to the same text.
-/

namespace ReloadReport

structure Files where
  entries : List (Path × String) := []
  deriving Repr

namespace Files

instance : Inhabited Files := ⟨{}⟩

def read (files : Files) (path : Path) : Option String :=
  (files.entries.find? fun entry => entry.1.Same path).map Prod.snd

def holds (files : Files) (path : Path) : Bool :=
  (files.read path).isSome

def remove (files : Files) (path : Path) : Files where
  entries := files.entries.filter fun entry => ¬ entry.1.Same path

def put (files : Files) (path : Path) (text : String) : Files where
  entries := (path, text) :: (files.remove path).entries

/-- The files of a list, of which the later ones replace the earlier ones. -/
def ofList (entries : List (Path × String)) : Files :=
  entries.foldl (fun files (path, text) => files.put path text) {}

theorem read_eq_of_same (files : Files) {left right : Path} (same : left.Same right) :
    files.read left = files.read right := by
  have tests : (fun entry : Path × String => decide (entry.1.Same left)) =
      fun entry => decide (entry.1.Same right) := by
    funext entry
    exact decide_eq_decide.mpr ⟨fun leads => leads.trans same, fun leads => leads.trans same.symm⟩
  simp only [read, tests]

theorem read_put_of_same (files : Files) {path other : Path} (text : String)
    (same : path.Same other) : (files.put path text).read other = some text := by
  simp [read, put, same]

theorem read_put_of_not_same (files : Files) {path other : Path} (text : String)
    (different : ¬ path.Same other) : (files.put path text).read other = files.read other := by
  have skipped : (fun entry : Path × String =>
      decide (decide (¬ entry.1.Same path) = true ∧ decide (entry.1.Same other) = true)) =
        fun entry => decide (entry.1.Same other) := by
    funext entry
    by_cases leads : entry.1.Same other
    · have apart : ¬ entry.1.Same path := fun same => different (same.symm.trans leads)
      simp [leads, apart]
    · simp [leads]
  simp only [read, put, remove, List.find?_cons, different, decide_false, List.find?_filter,
    skipped]

end Files
end ReloadReport
