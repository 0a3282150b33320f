import Mathlib.Data.Nat.Find
import ReloadReport.Proofs.Log.ScanRun

/-!
# What is recovered from a log

A log tells an error exactly when a caret comes after the start of an error. The first such caret
and the last start before it decide what is told, together with the details between them.
-/

namespace ReloadReport.Log

def TellsAt (lines : List String) (index : Nat) (line : Line) : Prop :=
  ∃ raw, lines[index]? = some raw ∧ Line.ofString? raw = some line

def StartsAt (lines : List String) (index : Nat) : Prop :=
  ∃ raw, lines[index]? = some raw ∧ IsStart raw

/-- A caret stands at the index, and an error starts before it. -/
def CompletesAt (lines : List String) (index : Nat) : Prop :=
  (∃ raw, lines[index]? = some raw ∧ IsPointer raw) ∧ ∃ start, start < index ∧ StartsAt lines start

/-- The caret is the first one that completes an error, and the error is the last one that starts
before it. -/
structure FirstCompleted (lines : List String) (start caret : Nat) : Prop where
  completes : CompletesAt lines caret
  least : ∀ earlier, earlier < caret → ¬ CompletesAt lines earlier
  before : start < caret
  starts : StartsAt lines start
  greatest : ∀ later, start < later → later < caret → ¬ StartsAt lines later

def between (lines : List String) (start caret : Nat) : List String :=
  (lines.take caret).drop (start + 1)

def isInfo (raw : String) : Bool :=
  (detail? raw).isSome

def windowSize : Option UInt64 → Nat → Nat
  | none, count => count
  | some limit, count => min limit.toNat count

/-- The column one before that of the caret, where there is one and it fits 32 bits. -/
def columnBefore (column : Nat) : Option UInt32 :=
  if 1 ≤ column ∧ column - 1 < UInt32.size then some (UInt32.ofNat (column - 1)) else none

section indices

variable {lines : List String} {index : Nat} {raw : String}

theorem eq_take_cons_drop (stands : lines[index]? = some raw) :
    lines = lines.take index ++ raw :: lines.drop (index + 1) := by
  rcases List.getElem?_eq_some_iff.mp stands with ⟨inside, rfl⟩
  rw [← List.drop_eq_getElem_cons inside, List.take_append_drop]

theorem exists_startsAt_iff :
    (∃ start, start < index ∧ StartsAt lines start) ↔ ∃ raw ∈ lines.take index, IsStart raw := by
  constructor
  · intro started
    rcases started with ⟨start, before, raw, stands, starts⟩
    refine ⟨raw, ?_, starts⟩
    rw [List.mem_iff_getElem?]
    exact ⟨start, by rw [List.getElem?_take_of_lt before, stands]⟩
  · intro started
    rcases started with ⟨raw, member, starts⟩
    rcases List.mem_iff_getElem?.mp member with ⟨start, stands⟩
    rw [List.getElem?_take, Option.ite_none_right_eq_some] at stands
    exact ⟨start, stands.1, raw, stands.2, starts⟩

theorem exists_completesAt_iff :
    (∃ caret, CompletesAt lines caret) ↔ ∃ front raw back, lines = front ++ raw :: back ∧
      IsPointer raw ∧ ∃ start ∈ front, IsStart start := by
  constructor
  · intro completed
    rcases completed with ⟨caret, ⟨raw, stands, points⟩, started⟩
    exact ⟨_, raw, _, eq_take_cons_drop stands, points, exists_startsAt_iff.mp started⟩
  · intro completed
    rcases completed with ⟨front, raw, back, rfl, points, start, member, starts⟩
    refine ⟨front.length, ⟨raw, by simp, points⟩, exists_startsAt_iff.mpr ⟨start, ?_, starts⟩⟩
    rwa [List.take_left]

theorem completesAt_of_take {count : Nat} (completes : CompletesAt (lines.take count) index) :
    index < count ∧ CompletesAt lines index := by
  rcases completes with ⟨⟨raw, stands, points⟩, start, before, startRaw, startStands, starts⟩
  rw [List.getElem?_take, Option.ite_none_right_eq_some] at stands startStands
  exact ⟨stands.1, ⟨raw, stands.2, points⟩, start, before, startRaw, startStands.2, starts⟩

theorem exists_firstCompleted {caret : Nat} (completes : CompletesAt lines caret) :
    ∃ start first, FirstCompleted lines start first := by
  classical
  have available : ∃ index, CompletesAt lines index := ⟨caret, completes⟩
  rcases (Nat.find_spec available).2 with ⟨start, before, starts⟩
  have within : start ≤ Nat.find available - 1 := by omega
  refine ⟨Nat.findGreatest (StartsAt lines) (Nat.find available - 1), Nat.find available,
    Nat.find_spec available, fun earlier => Nat.find_min available, ?_,
    Nat.findGreatest_spec within starts, fun later after below =>
      Nat.findGreatest_is_greatest after (by omega)⟩
  have := Nat.findGreatest_le (P := StartsAt lines) (Nat.find available - 1)
  omega

end indices

namespace FirstCompleted

variable {lines : List String} {start caret : Nat}

theorem between_noStart (completed : FirstCompleted lines start caret) :
    ∀ raw ∈ between lines start caret, ¬ IsStart raw := by
  intro raw member starts
  rcases List.mem_iff_getElem?.mp member with ⟨index, stands⟩
  rw [between, List.getElem?_drop, List.getElem?_take, Option.ite_none_right_eq_some] at stands
  exact completed.greatest (start + 1 + index) (by omega) stands.1 ⟨raw, stands.2, starts⟩

theorem between_noPointer (completed : FirstCompleted lines start caret) :
    ∀ raw ∈ between lines start caret, ¬ IsPointer raw := by
  intro raw member points
  rcases List.mem_iff_getElem?.mp member with ⟨index, stands⟩
  rw [between, List.getElem?_drop, List.getElem?_take, Option.ite_none_right_eq_some] at stands
  exact completed.least (start + 1 + index) stands.1
    ⟨⟨raw, stands.2, points⟩, start, by omega, completed.starts⟩

theorem first_before_eq_none (completed : FirstCompleted lines start caret) :
    (Scan.readAll {} (lines.take start)).first = none := by
  rw [Option.eq_none_iff_forall_not_mem]
  intro draft held
  have completes : ∃ index, CompletesAt (lines.take start) index := by
    rw [exists_completesAt_iff]
    have isSome := Option.isSome_of_mem held
    rw [Scan.first_readAll_isSome] at isSome
    simpa using isSome
  rcases completes with ⟨index, completesAt⟩
  rcases completesAt_of_take completesAt with ⟨below, completesBefore⟩
  have := completed.before
  exact completed.least index (by omega) completesBefore

end FirstCompleted

/-- Where no error is complete yet, one that starts is completed by the next caret, whatever
follows. -/
theorem first_readAll_completed {scan : Scan} {startRaw caretRaw file message : String}
    {line : UInt32} {column : Nat} {inside later : List String} (incomplete : scan.first = none)
    (startTold : Line.ofString? startRaw = some (.start file line message))
    (caretTold : Line.ofString? caretRaw = some (.pointer column))
    (noStart : ∀ raw ∈ inside, ¬ IsStart raw) (noPointer : ∀ raw ∈ inside, ¬ IsPointer raw) :
    (scan.readAll (startRaw :: (inside ++ caretRaw :: later))).first =
      some { file, line, message := message ++ details inside, pointer := some column } := by
  have pending := Scan.pending_readAll_of_noStart (scan.read startRaw) noStart noPointer
  have stillIncomplete : ((scan.read startRaw).readAll inside).first = none := by
    rw [← Option.not_isSome_iff_eq_none, Scan.first_readAll_isSome, Scan.read_of_start startTold]
    intro completed
    rcases completed with held | ⟨front, raw, back, rfl, points, _⟩
    · rw [incomplete] at held
      cases held
    · exact noPointer raw (by simp) points
  rw [Scan.readAll_cons, Scan.readAll_append, Scan.readAll_cons]
  apply Scan.first_readAll_of_some
  rw [Scan.read_of_pointer caretTold, pending, stillIncomplete, Scan.read_of_start startTold]
  rfl

theorem not_isStart_of_isInfo {raw : String} (info : isInfo raw) : ¬ IsStart raw := by
  intro starts
  rcases starts with ⟨file, line, message, told⟩
  simp [isInfo, detail?, told] at info

theorem not_isPointer_of_isInfo {raw : String} (info : isInfo raw) : ¬ IsPointer raw := by
  intro points
  rcases points with ⟨column, told⟩
  simp [isInfo, detail?, told] at info

theorem first_readAll_filter_isSome {scan other : Scan} {lines : List String}
    (samePending : scan.pending.isSome ↔ other.pending.isSome)
    (sameFirst : scan.first.isSome ↔ other.first.isSome) :
    (scan.readAll lines).first.isSome ↔
      (other.readAll (lines.filter fun raw => !isInfo raw)).first.isSome := by
  induction lines generalizing scan other with
  | nil => exact sameFirst
  | cons raw lines induction =>
      by_cases info : isInfo raw
      · have pendingKept : (scan.read raw).pending.isSome ↔ other.pending.isSome := by
          rw [Scan.pending_read_isSome, samePending]
          exact or_iff_left (not_isStart_of_isInfo info)
        have firstKept : (scan.read raw).first.isSome ↔ other.first.isSome := by
          rw [Scan.first_read_isSome, sameFirst]
          exact or_iff_left fun ⟨points, _⟩ => not_isPointer_of_isInfo info points
        simpa [info] using induction pendingKept firstKept
      · have pendingAlike : (scan.read raw).pending.isSome ↔ (other.read raw).pending.isSome := by
          rw [Scan.pending_read_isSome, Scan.pending_read_isSome, samePending]
        have firstAlike : (scan.read raw).first.isSome ↔ (other.read raw).first.isSome := by
          rw [Scan.first_read_isSome, Scan.first_read_isSome, samePending, sameFirst]
        simpa [info] using induction pendingAlike firstAlike

theorem pointerColumn_eq (draft : Draft) {column : Nat} (pointed : draft.pointer = some column) :
    draft.pointerColumn = columnBefore column := by
  rw [Draft.pointerColumn, pointed, columnBefore]
  cases column with
  | zero => rfl
  | succ column => simp [Text.word32?]

section recover?

variable {limit : Option UInt64} {lines : List String}

theorem lastLines_suffix (limit : Option UInt64) (lines : List String) :
    lastLines limit lines <:+ lines := by
  cases limit with
  | none => exact List.suffix_refl lines
  | some count => exact List.drop_suffix _ lines

theorem length_lastLines (limit : Option UInt64) (lines : List String) :
    (lastLines limit lines).length = windowSize limit lines.length := by
  cases limit with
  | none => rfl
  | some count =>
      rw [lastLines, windowSize, List.length_drop]
      omega

theorem recover?_lastLines (limit : Option UInt64) (lines : List String) :
    recover? none (lastLines limit lines) = recover? limit lines := rfl

theorem recover?_none_isSome :
    (recover? none lines).isSome ↔ ∃ caret, CompletesAt lines caret := by
  rw [recover?, Scan.diagnostic?, Option.isSome_map, Scan.first_readAll_isSome,
    exists_completesAt_iff]
  simp [lastLines]

theorem recover?_none_congr {other : List String}
    (same : other.filterMap Line.ofString? = lines.filterMap Line.ofString?) :
    recover? none other = recover? none lines := by
  rw [recover?, recover?, lastLines, lastLines, Scan.readAll_eq_foldl_tell, same,
    ← Scan.readAll_eq_foldl_tell]

theorem FirstCompleted.recover?_eq {start caret : Nat} {file message : String} {line : UInt32}
    {column : Nat} (completed : FirstCompleted lines start caret)
    (startTold : TellsAt lines start (.start file line message))
    (caretTold : TellsAt lines caret (.pointer column)) (earlier later : List String)
    (sameButInfo : (earlier.filter fun raw => !isInfo raw) =
      (lines.take start).filter fun raw => !isInfo raw) :
    recover? none (earlier ++ (lines.take (caret + 1)).drop start ++ later) = some {
      message := message ++ details (between lines start caret)
      severity := .error
      position := {
        sourcePath := some file
        line := some line
        pointerColumn := columnBefore column } } := by
  rcases startTold with ⟨startRaw, startStands, startTold⟩
  rcases caretTold with ⟨caretRaw, caretStands, caretTold⟩
  -- Details complete no error, so none is complete in front of the start.
  have incomplete : (Scan.readAll {} earlier).first = none := by
    rw [← Option.not_isSome_iff_eq_none, first_readAll_filter_isSome Iff.rfl Iff.rfl, sameButInfo,
      ← first_readAll_filter_isSome Iff.rfl Iff.rfl, completed.first_before_eq_none]
    exact Bool.false_ne_true
  have middle : (lines.take (caret + 1)).drop start =
      startRaw :: (between lines start caret ++ [caretRaw]) := by
    have startWithin : (lines.take caret)[start]? = some startRaw := by
      rw [List.getElem?_take_of_lt completed.before, startStands]
    rcases List.getElem?_eq_some_iff.mp startWithin with ⟨inside, standsThere⟩
    have length := (List.getElem?_eq_some_iff.mp startWithin).1
    rw [List.take_add_one, caretStands, Option.toList_some,
      List.drop_append_of_le_length (by omega),
      List.drop_eq_getElem_cons inside, standsThere]
    rfl
  rw [middle, recover?, lastLines, List.append_assoc, List.cons_append, List.append_assoc,
    List.singleton_append, Scan.readAll_append, Scan.diagnostic?,
    first_readAll_completed incomplete startTold caretTold completed.between_noStart
      completed.between_noPointer, Option.map_some, Draft.diagnostic, pointerColumn_eq _ rfl]

theorem FirstCompleted.eq_append {start caret : Nat}
    (completed : FirstCompleted lines start caret) :
    lines.take start ++ (lines.take (caret + 1)).drop start ++ lines.drop (caret + 1) = lines := by
  have within := completed.before
  have front : (lines.take (caret + 1)).take start = lines.take start := by
    rw [List.take_take, Nat.min_eq_left (by omega)]
  rw [← front, List.take_append_drop, List.take_append_drop]

theorem FirstCompleted.exists_tellsAt {start caret : Nat}
    (completed : FirstCompleted lines start caret) :
    ∃ file line message column, TellsAt lines start (.start file line message) ∧
      TellsAt lines caret (.pointer column) := by
  rcases completed.starts with ⟨startRaw, startStands, file, line, message, startTold⟩
  rcases completed.completes.1 with ⟨caretRaw, caretStands, column, caretTold⟩
  exact ⟨file, line, message, column, ⟨startRaw, startStands, startTold⟩,
    caretRaw, caretStands, caretTold⟩

end recover?

/-- A log tells an error exactly when a caret comes after the start of an error in the window that
is read. Then it tells the last error that starts before the first such caret, with the details
between the two. Lines after the caret, details before the start and lines that tell nothing make
no difference. -/
theorem recover?_eq_firstCompleted (limit : Option UInt64) (lines : List String) :
    ∃ window, window <:+ lines ∧ window.length = windowSize limit lines.length ∧
      ((recover? limit lines).isSome ↔ ∃ caret, CompletesAt window caret) ∧
      ((∃ caret, CompletesAt window caret) → ∃ start caret, FirstCompleted window start caret) ∧
      (∀ start caret, FirstCompleted window start caret →
        ∃ file line message column, TellsAt window start (.start file line message) ∧
          TellsAt window caret (.pointer column) ∧
          recover? limit lines = some {
            message := message ++ details (between window start caret)
            severity := .error
            position := {
              sourcePath := some file
              line := some line
              pointerColumn := columnBefore column } } ∧
          ∀ earlier later, (earlier.filter fun raw => !isInfo raw) =
              ((window.take start).filter fun raw => !isInfo raw) →
            recover? none (earlier ++ (window.take (caret + 1)).drop start ++ later) =
              recover? limit lines) ∧
      ∀ other, other.filterMap Line.ofString? = window.filterMap Line.ofString? →
        recover? none other = recover? limit lines := by
  refine ⟨lastLines limit lines, lastLines_suffix limit lines, length_lastLines limit lines,
    recover?_none_isSome, fun ⟨_, completes⟩ => exists_firstCompleted completes, ?_,
    fun other same => recover?_none_congr same⟩
  intro start caret completed
  rcases completed.exists_tellsAt with ⟨file, line, message, column, startTold, caretTold⟩
  have told := completed.recover?_eq startTold caretTold
  have whole := told ((lastLines limit lines).take start)
    ((lastLines limit lines).drop (caret + 1)) rfl
  rw [completed.eq_append, recover?_lastLines] at whole
  exact ⟨file, line, message, column, startTold, caretTold, whole,
    fun earlier later same => (told earlier later same).trans whole.symm⟩

end ReloadReport.Log
