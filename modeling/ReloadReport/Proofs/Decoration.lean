import Mathlib.Data.List.Forall2
import ReloadReport.Proofs.Log.Colour
import ReloadReport.Proofs.Log.Recovery
import ReloadReport.Proofs.VerdictCases

/-!
# Decorated logs

The console puts colours into the lines of a log and other output between them. A text without
colours is what is left of every coloured one, so a decorated log tells what the plain one tells.
-/

namespace ReloadReport.Log

/-- The second text is the first one with colour sequences put in, each of them whole. -/
inductive Coloured : List Char → List Char → Prop
  | nil : Coloured [] []
  | reset : Coloured text coloured → Coloured text (resetMark ++ coloured)
  | red : Coloured text coloured → Coloured text (redMark ++ coloured)
  | keep (c : Char) : Coloured text coloured → Coloured (c :: text) (c :: coloured)

/-- The second log is the first one with its lines coloured, and with lines put in that tell nothing
about an error. -/
inductive Decorated : List String → List String → Prop
  | nil : Decorated [] []
  | line (coloured : Coloured raw.toList other.toList) :
      Decorated lines decorated → Decorated (raw :: lines) (other :: decorated)
  | noise (silent : Line.ofString? raw = none) :
      Decorated lines decorated → Decorated lines (raw :: decorated)

def Plain (lines : List String) : Prop :=
  ∀ raw ∈ lines, '\x1b' ∉ raw.toList

section colours

variable {text coloured : List Char}

theorem dropReset_resetMark_append (text : List Char) :
    dropReset (resetMark ++ text) = dropReset text := rfl

theorem dropReset_redMark_append (text : List Char) :
    dropReset (redMark ++ text) = redMark ++ dropReset text := rfl

theorem dropRed_redMark_append (text : List Char) : dropRed (redMark ++ text) = dropRed text := rfl

theorem dropReset_cons_of_ne {c : Char} (plain : c ≠ '\x1b') (text : List Char) :
    dropReset (c :: text) = c :: dropReset text := by
  simp [dropReset, plain]

theorem dropRed_cons_of_ne {c : Char} (plain : c ≠ '\x1b') (text : List Char) :
    dropRed (c :: text) = c :: dropRed text := by
  simp [dropRed, plain]

theorem withoutColour_of_coloured (plain : '\x1b' ∉ text) (colours : Coloured text coloured) :
    withoutColour coloured = text := by
  rw [withoutColour]
  -- By induction on what was put in: every sequence is taken out whole by its own pass.
  induction colours with
  | nil => rfl
  | reset _ induction => rw [dropReset_resetMark_append, induction plain]
  | red _ induction => rw [dropReset_redMark_append, dropRed_redMark_append, induction plain]
  | keep c _ induction =>
      have different : c ≠ '\x1b' := fun same => plain (same ▸ List.mem_cons_self)
      have textPlain : '\x1b' ∉ _ := fun member => plain (List.mem_cons_of_mem c member)
      rw [dropReset_cons_of_ne different, dropRed_cons_of_ne different, induction textPlain]

theorem Coloured.append_left (front : List Char) (colours : Coloured text coloured) :
    Coloured (front ++ text) (front ++ coloured) := by
  induction front with
  | nil => exact colours
  | cons c front induction => exact induction.keep c

end colours

section lines

variable {lines decorated : List String}

theorem ofString?_of_coloured {raw other : String} (plain : '\x1b' ∉ raw.toList)
    (colours : Coloured raw.toList other.toList) : Line.ofString? other = Line.ofString? raw := by
  simp only [Line.ofString?, Line.ofText?, Line.body?, withoutColour_of_coloured plain colours,
    withoutColour_of_notMem plain]

theorem filterMap_of_decorated (plain : Plain lines) (decorates : Decorated lines decorated) :
    decorated.filterMap Line.ofString? = lines.filterMap Line.ofString? := by
  induction decorates with
  | nil => rfl
  | line coloured _ induction =>
      rcases List.forall_mem_cons.mp plain with ⟨rawPlain, linesPlain⟩
      rw [List.filterMap_cons, List.filterMap_cons, ofString?_of_coloured rawPlain coloured,
        induction linesPlain]
  | noise silent _ induction => rw [List.filterMap_cons_none silent, induction plain]

theorem readAll_of_decorated (scan : Scan) (plain : Plain lines)
    (decorates : Decorated lines decorated) : scan.readAll decorated = scan.readAll lines := by
  rw [Scan.readAll_eq_foldl_tell, filterMap_of_decorated plain decorates,
    ← Scan.readAll_eq_foldl_tell]

end lines

end ReloadReport.Log

namespace ReloadReport.Failure

open Log (Coloured Decorated Plain Scan recover?)

structure Decorates (failure other : Failure) : Prop where
  cause : other.cause = failure.cause
  problems : other.problems = failure.problems
  logs : List.Forall₂ (fun log decorated => Decorated log.lines decorated.lines) failure.logs
    other.logs

theorem findSome?_of_decorated {logs decorated : List ConsoleLog}
    (plain : ∀ log ∈ logs, Plain log.lines)
    (decorates : List.Forall₂ (fun log other => Decorated log.lines other.lines) logs decorated) :
    (decorated.findSome? fun log => recover? none log.lines) =
      logs.findSome? fun log => recover? none log.lines := by
  induction decorates with
  | nil => rfl
  | cons here _ induction =>
      rcases List.forall_mem_cons.mp plain with ⟨logPlain, logsPlain⟩
      rw [List.findSome?_cons, List.findSome?_cons,
        Log.recover?_none_congr (Log.filterMap_of_decorated logPlain here), induction logsPlain]

/-- A scan of a decorated log ends as one of the plain log does, from wherever it starts. So the log
tells the same error, and a failed build with decorated logs has the same verdict. -/
theorem verdict_of_decorated :
    (∀ lines decorated, Plain lines → Decorated lines decorated →
      (∀ scan : Scan, scan.readAll decorated = scan.readAll lines) ∧
        recover? none decorated = recover? none lines) ∧
      ∀ failure other : Failure, (∀ log ∈ failure.logs, Plain log.lines) →
        Decorates failure other → other.verdict none = failure.verdict none := by
  refine ⟨fun lines decorated plain decorates => ⟨fun scan =>
    Log.readAll_of_decorated scan plain decorates,
    Log.recover?_none_congr (Log.filterMap_of_decorated plain decorates)⟩,
    fun failure other plain decorates => ?_⟩
  apply verdict_congr decorates.cause
  intro _
  refine ⟨by rw [decorates.problems], fun _ => findSome?_of_decorated plain decorates.logs,
    fun _ => ?_⟩
  rw [← List.length_eq_zero_iff, ← List.length_eq_zero_iff, decorates.logs.length_eq]

def plainError : Failure where
  logs := [{ task := "compile", lines := ["[error] a.java:10: x", "[error]  ^"] }]

def colouredError : Failure where
  logs := [{
    task := "compile"
    lines := ["\x1b[0m", "[er\x1b[31m\x1b[0mror] a.java:1\x1b[0m0: x", "[info] 1 error",
      "[error]\x1b[31m  ^"] }]

theorem decorates_colouredError : Decorates plainError colouredError where
  cause := rfl
  problems := rfl
  logs := by
    have start : Coloured "[error] a.java:10: x".toList
        "[er\x1b[31m\x1b[0mror] a.java:1\x1b[0m0: x".toList :=
      (((Coloured.nil.append_left "0: x".toList).reset.append_left
        "ror] a.java:1".toList).reset.red).append_left "[er".toList
    have caret : Coloured "[error]  ^".toList "[error]\x1b[31m  ^".toList :=
      (Coloured.nil.append_left "  ^".toList).red.append_left "[error]".toList
    exact .cons (.noise (by decide) (.line start (.noise (by decide) (.line caret .nil)))) .nil

/-- Colours part the word for an error and the digits of a number here. -/
theorem verdict_of_decorated_colouredError :
    Decorates plainError colouredError ∧ colouredError.verdict none =
      .compileErrors [(Diagnostic.ofError "x").atLine "a.java" 10 |>.atColumn 1] := by
  have plain : ∀ log ∈ plainError.logs, Plain log.lines := by
    simp [plainError, Plain]
  refine ⟨decorates_colouredError, ?_⟩
  rw [verdict_of_decorated.2 plainError colouredError plain decorates_colouredError]
  decide

end ReloadReport.Failure
