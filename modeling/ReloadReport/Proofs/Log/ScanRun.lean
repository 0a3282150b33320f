import ReloadReport.Log.Scan

/-!
# Runs of a scan

What a scan holds after one line and after many. An error is pending once some line has started
one; the first completed error stays as it is once there is one, and it is there once a caret has
met a pending error.
-/

namespace ReloadReport.Log

def IsStart (raw : String) : Prop :=
  ∃ file line message, Line.ofString? raw = some (.start file line message)

def IsPointer (raw : String) : Prop :=
  ∃ column, Line.ofString? raw = some (.pointer column)

def detail? (raw : String) : Option String :=
  match Line.ofString? raw with
  | some (.info key text) => some (" [" ++ key ++ ": " ++ text ++ "]")
  | _ => none

def details (lines : List String) : String :=
  String.join (lines.filterMap detail?)

namespace Scan

variable {scan other : Scan} {raw : String} {lines : List String}

section read

variable {file message key text : String} {line : UInt32} {column : Nat}

theorem read_of_start (told : Line.ofString? raw = some (.start file line message)) :
    scan.read raw = { scan with pending := some { file, line, message } } := by
  rw [read, told]
  rfl

theorem read_of_info (told : Line.ofString? raw = some (.info key text)) :
    scan.read raw = { scan with pending := scan.pending.map (·.withInfo key text) } := by
  rw [read, told]
  rfl

theorem read_of_pointer (told : Line.ofString? raw = some (.pointer column)) :
    scan.read raw = {
      pending := scan.pending.map (·.withPointer column)
      first := scan.first.or (scan.pending.map (·.withPointer column)) } := by
  rw [read, told]
  rfl

theorem read_of_none (told : Line.ofString? raw = none) : scan.read raw = scan := by
  rw [read, told]

theorem pending_read_isSome :
    (scan.read raw).pending.isSome ↔ scan.pending.isSome ∨ IsStart raw := by
  cases told : Line.ofString? raw with
  | none => simp [read_of_none told, IsStart, told]
  | some shape =>
      cases shape with
      | start => simp [read_of_start told, IsStart, told]
      | info => simp [read_of_info told, IsStart, told]
      | pointer => simp [read_of_pointer told, IsStart, told]

theorem first_read_isSome :
    (scan.read raw).first.isSome ↔ scan.first.isSome ∨ IsPointer raw ∧ scan.pending.isSome := by
  cases told : Line.ofString? raw with
  | none => simp [read_of_none told, IsPointer, told]
  | some shape =>
      cases shape with
      | start => simp [read_of_start told, IsPointer, told]
      | info => simp [read_of_info told, IsPointer, told]
      | pointer => simp [read_of_pointer told, IsPointer, told]

theorem first_read_of_some {draft : Draft} (held : scan.first = some draft) :
    (scan.read raw).first = some draft := by
  cases told : Line.ofString? raw with
  | none => rw [read_of_none told, held]
  | some shape =>
      cases shape with
      | start => rw [read_of_start told, held]
      | info => rw [read_of_info told, held]
      | pointer => simp [read_of_pointer told, held]

end read

section readAll

@[simp] theorem readAll_nil : scan.readAll [] = scan := rfl

@[simp] theorem readAll_cons : scan.readAll (raw :: lines) = (scan.read raw).readAll lines := rfl

theorem readAll_append (scan : Scan) (front back : List String) :
    scan.readAll (front ++ back) = (scan.readAll front).readAll back := by
  simp [readAll]

theorem readAll_eq_foldl_tell (scan : Scan) (lines : List String) :
    scan.readAll lines = (lines.filterMap Line.ofString?).foldl tell scan := by
  induction lines generalizing scan with
  | nil => rfl
  | cons raw lines induction =>
      rw [readAll_cons, induction, List.filterMap_cons]
      cases told : Line.ofString? raw with
      | none => rw [read_of_none told]
      | some line => rw [read, told, List.foldl_cons]

theorem pending_readAll_isSome :
    (scan.readAll lines).pending.isSome ↔ scan.pending.isSome ∨ ∃ raw ∈ lines, IsStart raw := by
  induction lines generalizing scan with
  | nil => simp
  | cons raw lines induction =>
      rw [readAll_cons, induction, pending_read_isSome]
      simp [or_assoc]

theorem first_readAll_of_some {draft : Draft} (held : scan.first = some draft) :
    (scan.readAll lines).first = some draft := by
  induction lines generalizing scan with
  | nil => exact held
  | cons raw lines induction => exact induction (first_read_of_some held)

theorem first_readAll_isSome :
    (scan.readAll lines).first.isSome ↔ scan.first.isSome ∨
      ∃ front raw back, lines = front ++ raw :: back ∧ IsPointer raw ∧
        (scan.pending.isSome ∨ ∃ start ∈ front, IsStart start) := by
  induction lines generalizing scan with
  | nil => simp
  | cons raw lines induction =>
      -- The first line completes what was pending, or starts what a later caret completes.
      rw [readAll_cons, induction, first_read_isSome, pending_read_isSome]
      constructor
      · intro completed
        rcases completed with
          (held | ⟨points, pending⟩) | ⟨front, caret, back, rfl, points, started⟩
        · exact .inl held
        · exact .inr ⟨[], raw, lines, rfl, points, .inl pending⟩
        · refine .inr ⟨raw :: front, caret, back, rfl, points, ?_⟩
          simpa [or_assoc] using started
      · intro completed
        rcases completed with held | ⟨front, caret, back, parts, points, started⟩
        · exact .inl (.inl held)
        · cases front with
          | nil =>
              rcases List.cons.inj parts with ⟨rfl, rfl⟩
              exact .inl (.inr ⟨points, by simpa using started⟩)
          | cons head front =>
              rcases List.cons.inj parts with ⟨rfl, rfl⟩
              refine .inr ⟨front, caret, back, rfl, points, ?_⟩
              simpa [or_assoc] using started

/-- Until another error starts, the pending one gathers details and the last caret. -/
theorem pending_readAll_of_noStart (scan : Scan)
    (noStart : ∀ raw ∈ lines, ¬ IsStart raw) (noPointer : ∀ raw ∈ lines, ¬ IsPointer raw) :
    (scan.readAll lines).pending =
      scan.pending.map fun draft => { draft with message := draft.message ++ details lines } := by
  induction lines generalizing scan with
  | nil => cases held : scan.pending <;> simp [details, held]
  | cons raw lines induction =>
      have later := induction (scan.read raw)
        (fun other member => noStart other (List.mem_cons_of_mem raw member))
        (fun other member => noPointer other (List.mem_cons_of_mem raw member))
      rw [readAll_cons, later, details, details, List.filterMap_cons, detail?]
      cases told : Line.ofString? raw with
      | none => rw [read_of_none told]
      | some shape =>
          cases shape with
          | start file line message =>
              exact absurd ⟨file, line, message, told⟩ (noStart raw List.mem_cons_self)
          | info key text =>
              cases held : scan.pending with
              | none => simp [read_of_info told, held]
              | some draft =>
                  simp [read_of_info told, held, Draft.withInfo, String.append_assoc]
          | pointer column =>
              exact absurd ⟨column, told⟩ (noPointer raw List.mem_cons_self)

end readAll

end Scan

section recover?

variable {limit : Option UInt64} {lines : List String} {diagnostic : Diagnostic}

theorem exists_draft_of_recover? (told : recover? limit lines = some diagnostic) :
    ∃ draft : Draft, draft.diagnostic = diagnostic := by
  rcases Option.map_eq_some_iff.mp told with ⟨draft, _, same⟩
  exact ⟨draft, same⟩

theorem severity_of_recover? (told : recover? limit lines = some diagnostic) :
    diagnostic.severity = .error := by
  rcases exists_draft_of_recover? told with ⟨draft, rfl⟩
  rfl

theorem position_of_recover? (told : recover? limit lines = some diagnostic) :
    ∃ file line, diagnostic.position.sourcePath = some file ∧
      diagnostic.position.line = some line := by
  rcases exists_draft_of_recover? told with ⟨draft, rfl⟩
  exact ⟨draft.file, draft.line, rfl, rfl⟩

end recover?
end ReloadReport.Log
