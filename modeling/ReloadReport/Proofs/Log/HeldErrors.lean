import Mathlib.Data.List.Induction
import ReloadReport.Proofs.Log.ScanRun

/-!
# The errors that a scan holds

What is pending and what is complete after any lines. The pending error goes on gathering details
and carets behind the caret that completed it first, while the complete one is a copy that stays as
it was at that caret.
-/

namespace ReloadReport.Log

/-- The column of the last caret in some lines, if there is a caret. -/
inductive LastCaret (lines : List String) : Option Nat → Prop
  | missing (noPointer : ∀ raw ∈ lines, ¬ IsPointer raw) : LastCaret lines none
  | standing (parts : lines = front ++ caret :: back)
      (told : Line.ofString? caret = some (.pointer column))
      (last : ∀ raw ∈ back, ¬ IsPointer raw) : LastCaret lines (some column)

/-- What some lines tell of the error that starts last in them: all the details and the last caret
that stand behind its start. -/
inductive Gathers (lines : List String) : Option Draft → Prop
  | missing (noStart : ∀ raw ∈ lines, ¬ IsStart raw) : Gathers lines none
  | started (parts : lines = front ++ start :: back)
      (told : Line.ofString? start = some (.start file line message))
      (last : ∀ raw ∈ back, ¬ IsStart raw) (caret : LastCaret back pointer) :
      Gathers lines (some { file, line, message := message ++ details back, pointer })

/-- What a scan of some lines holds: the error that they gather is pending, and an error is complete
only with a caret, and while one is pending. -/
structure Holds (lines : List String) (scan : Scan) : Prop where
  gathers : Gathers lines scan.pending
  completed : ∀ draft, scan.first = some draft → draft.pointer.isSome ∧ scan.pending.isSome

variable {lines : List String} {raw : String} {scan : Scan}

section lastOnes

theorem parts_unique {isOne : String → Prop} {front front' back back' : List String}
    {one one' : String} (same : front ++ one :: back = front' ++ one' :: back')
    (here : isOne one) (here' : isOne one') (last : ∀ raw ∈ back, ¬ isOne raw)
    (last' : ∀ raw ∈ back', ¬ isOne raw) : one = one' ∧ back = back' := by
  rcases List.append_eq_append_iff.mp same with ⟨middle, _, parts⟩ | ⟨middle, _, parts⟩
  · cases middle with
    | nil => exact List.cons.inj parts
    | cons first middle =>
        rcases List.cons.inj parts with ⟨rfl, rfl⟩
        exact absurd here' (last one' (by simp))
  · cases middle with
    | nil => exact (List.cons.inj parts).imp Eq.symm Eq.symm
    | cons first middle =>
        rcases List.cons.inj parts with ⟨rfl, rfl⟩
        exact absurd here (last' one (by simp))

theorem LastCaret.unique {pointer other : Option Nat} (caret : LastCaret lines pointer)
    (otherCaret : LastCaret lines other) : pointer = other := by
  cases caret with
  | missing noPointer =>
      cases otherCaret with
      | missing => rfl
      | standing parts told => exact absurd ⟨_, told⟩ (noPointer _ (by simp [parts]))
  | standing parts told last =>
      cases otherCaret with
      | missing noPointer => exact absurd ⟨_, told⟩ (noPointer _ (by simp [parts]))
      | standing otherParts otherTold otherLast =>
          rcases parts_unique (parts.symm.trans otherParts) ⟨_, told⟩ ⟨_, otherTold⟩ last
            otherLast with ⟨rfl, _⟩
          cases told.symm.trans otherTold
          rfl

theorem Gathers.unique {held other : Option Draft} (gathers : Gathers lines held)
    (otherGathers : Gathers lines other) : held = other := by
  cases gathers with
  | missing noStart =>
      cases otherGathers with
      | missing => rfl
      | started parts told => exact absurd ⟨_, _, _, told⟩ (noStart _ (by simp [parts]))
  | started parts told last caret =>
      cases otherGathers with
      | missing noStart => exact absurd ⟨_, _, _, told⟩ (noStart _ (by simp [parts]))
      | started otherParts otherTold otherLast otherCaret =>
          rcases parts_unique (parts.symm.trans otherParts) ⟨_, _, _, told⟩ ⟨_, _, _, otherTold⟩
            last otherLast with ⟨rfl, rfl⟩
          cases told.symm.trans otherTold
          cases caret.unique otherCaret
          rfl

end lastOnes

section steps

theorem forall_mem_concat {isOne : String → Prop} (before : ∀ other ∈ lines, ¬ isOne other)
    (here : ¬ isOne raw) : ∀ other ∈ lines ++ [raw], ¬ isOne other := by
  intro other member
  rcases List.mem_append.mp member with earlier | last
  · exact before other earlier
  · exact List.mem_singleton.mp last ▸ here

theorem details_concat (lines : List String) (raw : String) :
    details (lines ++ [raw]) = details lines ++ (detail? raw).getD "" := by
  cases told : detail? raw <;> simp [details, told]

theorem LastCaret.concat {pointer : Option Nat} (caret : LastCaret lines pointer)
    (idle : ¬ IsPointer raw) : LastCaret (lines ++ [raw]) pointer := by
  cases caret with
  | missing noPointer => exact .missing (forall_mem_concat noPointer idle)
  | @standing front caret back column parts told last =>
      have cut : lines ++ [raw] = front ++ caret :: (back ++ [raw]) := by simp [parts]
      exact .standing cut told (forall_mem_concat last idle)

theorem Gathers.concat {held : Option Draft} (gathers : Gathers lines held)
    (noStart : ¬ IsStart raw) (tells : ∀ {back pointer}, LastCaret back pointer →
      ∃ next, LastCaret (back ++ [raw]) next ∧ ∀ draft : Draft, draft.pointer = pointer →
        change draft = { draft with
          message := draft.message ++ (detail? raw).getD "", pointer := next }) :
    Gathers (lines ++ [raw]) (held.map change) := by
  cases gathers with
  | missing before => exact .missing (forall_mem_concat before noStart)
  | @started front start back file line message pointer parts told last caret =>
      rcases tells caret with ⟨next, nextCaret, changed⟩
      have cut : lines ++ [raw] = front ++ start :: (back ++ [raw]) := by simp [parts]
      have started : Gathers (lines ++ [raw]) (some {
          file, line, message := message ++ details (back ++ [raw]), pointer := next }) :=
        .started cut told (forall_mem_concat last noStart) nextCaret
      rw [details_concat, ← String.append_assoc] at started
      rw [Option.map_some, changed _ rfl]
      exact started

theorem gathers_read (gathers : Gathers lines scan.pending) :
    Gathers (lines ++ [raw]) (scan.read raw).pending := by
  cases told : Line.ofString? raw with
  | none =>
      have same : Gathers (lines ++ [raw]) (scan.pending.map id) := by
        refine gathers.concat (by simp [IsStart, told]) fun caret =>
          ⟨_, caret.concat (by simp [IsPointer, told]), ?_⟩
        rintro draft rfl
        simp [detail?, told]
      rw [Scan.read_of_none told]
      rwa [Option.map_id_apply] at same
  | some shape =>
      cases shape with
      | start file line message =>
          rw [Scan.read_of_start told]
          have started : Gathers (lines ++ [raw]) (some {
              file, line, message := message ++ details [], pointer := none }) :=
            .started rfl told (by simp) (.missing (by simp))
          simpa [details] using started
      | info key text =>
          rw [Scan.read_of_info told]
          refine gathers.concat (by simp [IsStart, told]) fun caret =>
            ⟨_, caret.concat (by simp [IsPointer, told]), ?_⟩
          rintro draft rfl
          simp [detail?, told, Draft.withInfo, String.append_assoc]
      | pointer column =>
          rw [Scan.read_of_pointer told]
          refine gathers.concat (by simp [IsStart, told]) fun {back _} _ => ?_
          have cut : back ++ [raw] = back ++ raw :: [] := rfl
          refine ⟨some column, .standing cut told (by simp), fun draft _ => ?_⟩
          simp [detail?, told, Draft.withPointer]

/-- The first complete error changes only where there is none, and a caret meets a pending one. -/
theorem first_read_cases (scan : Scan) (raw : String) :
    (∃ column draft, Line.ofString? raw = some (.pointer column) ∧ scan.pending = some draft ∧
        scan.first = none ∧ (scan.read raw).first = some { draft with pointer := some column }) ∨
      ¬ (IsPointer raw ∧ scan.pending.isSome ∧ scan.first = none) ∧
        (scan.read raw).first = scan.first := by
  cases told : Line.ofString? raw with
  | none => exact .inr ⟨by simp [IsPointer, told], by rw [Scan.read_of_none told]⟩
  | some shape =>
      cases shape with
      | start => exact .inr ⟨by simp [IsPointer, told], by rw [Scan.read_of_start told]⟩
      | info => exact .inr ⟨by simp [IsPointer, told], by rw [Scan.read_of_info told]⟩
      | pointer column =>
          cases pending : scan.pending with
          | none => exact .inr ⟨by simp, by simp [Scan.read_of_pointer told, pending]⟩
          | some draft =>
              cases first : scan.first with
              | none =>
                  refine .inl ⟨column, draft, rfl, rfl, rfl, ?_⟩
                  simp [Scan.read_of_pointer told, pending, first, Draft.withPointer]
              | some done => exact .inr ⟨by simp, Scan.first_read_of_some first⟩

theorem Holds.read (holds : Holds lines scan) : Holds (lines ++ [raw]) (scan.read raw) where
  gathers := gathers_read holds.gathers
  completed := by
    intro draft held
    rw [Scan.pending_read_isSome]
    rcases first_read_cases scan raw with ⟨column, pending, _, here, _, becomes⟩ | ⟨_, kept⟩
    · cases becomes.symm.trans held
      simp [here]
    · rcases holds.completed draft (kept.symm.trans held) with ⟨pointed, pending⟩
      exact ⟨pointed, .inl pending⟩

end steps

theorem holds_readAll (lines : List String) : Holds lines (Scan.readAll {} lines) := by
  induction lines using List.reverseRecOn with
  | nil => exact ⟨.missing (by simp), by simp⟩
  | append_singleton lines raw holds =>
      rw [Scan.readAll_append]
      exact holds.read

/-- After any lines: an error is complete only with a caret and while one is pending. It becomes
complete where a caret meets a pending error for the first time, as it is pending there with that
caret, and then stays whatever lines follow. The pending error is what the lines gather of the one
that started last, and there is none exactly where none has started. -/
theorem readAll_holds_gathered (lines : List String) :
    ∃ scan, Scan.readAll {} lines = scan ∧
      (∀ draft, scan.first = some draft → draft.pointer.isSome ∧ scan.pending.isSome) ∧
      (∀ raw,
        (∃ column draft, Line.ofString? raw = some (.pointer column) ∧
          scan.pending = some draft ∧ scan.first = none ∧
          (scan.read raw).first = some { draft with pointer := some column }) ∨
        ¬ (IsPointer raw ∧ scan.pending.isSome ∧ scan.first = none) ∧
          (scan.read raw).first = scan.first) ∧
      (∀ draft later, scan.first = some draft →
        (Scan.readAll {} (lines ++ later)).first = some draft) ∧
      (scan.pending = none ↔ ∀ raw ∈ lines, ¬ IsStart raw) ∧
      ∀ held, scan.pending = held ↔ Gathers lines held := by
  have holds := holds_readAll lines
  refine ⟨_, rfl, holds.completed, first_read_cases _, fun draft later held => ?_, ?_, fun held => ?_⟩
  · rw [Scan.readAll_append]
    exact Scan.first_readAll_of_some held
  · rw [← Option.not_isSome_iff_eq_none, Scan.pending_readAll_isSome]
    simp
  · exact ⟨fun same => same ▸ holds.gathers, holds.gathers.unique⟩

end ReloadReport.Log
