import ReloadReport.Proofs.Log.Window
import ReloadReport.Proofs.VerdictCases

/-!
# Verdicts on wider windows

Reading more of every log never takes an error away from a verdict. Where the logs decide the
verdict, the error that wider windows show is told by the same log or an earlier one, and if it is
the same one, no later in it.
-/

namespace ReloadReport.Failure

/-- The cause or a list of problems decides the verdict, whatever the logs tell. -/
def Settled (failure : Failure) : Prop :=
  (∃ error, failure.cause = some (.application error)) ∨
    (∃ name message, failure.cause = some (.exception name message)) ∨ failure.problems.isSome

/-- Under a limit, the log at the index is the first that tells an error, and the caret at the place
in this log completes the error. -/
def ToldAt (limit : Option UInt64) (failure : Failure) (index place : Nat)
    (diagnostic : Diagnostic) : Prop :=
  ∃ front log back, failure.logs = front ++ log :: back ∧ front.length = index ∧
    (∀ other ∈ front, Log.recover? limit other.lines = none) ∧
    Log.recover? limit log.lines = some diagnostic ∧ Log.CompletedBy limit log.lines place

variable {limit narrow wide : Option UInt64} {failure : Failure} {diagnostic other : Diagnostic}

section settled

theorem not_settled_iff : ¬ failure.Settled ↔ failure.Compiles ∧ failure.problems = none := by
  constructor
  · intro unsettled
    have unlisted : failure.problems = none :=
      Option.not_isSome_iff_eq_none.mp fun listed => unsettled (.inr (.inr listed))
    rcases failure.cause_cases with application | exception | compiles
    · exact absurd (.inl application) unsettled
    · exact absurd (.inr (.inl exception)) unsettled
    · exact ⟨compiles, unlisted⟩
  · rintro ⟨compiles, unlisted⟩ (⟨error, cause⟩ | ⟨name, message, cause⟩ | listed)
    · simp [Compiles, cause] at compiles
    · simp [Compiles, cause] at compiles
    · simp [unlisted] at listed

theorem verdict_of_settled (settled : failure.Settled) :
    failure.verdict wide = failure.verdict narrow := by
  apply verdict_congr rfl
  intro compiles
  have listed : failure.problems ≠ none := fun unlisted =>
    not_settled_iff.mpr ⟨compiles, unlisted⟩ settled
  exact ⟨rfl, fun unlisted => absurd unlisted listed, fun unlisted => absurd unlisted listed⟩

end settled

section unsettled

variable {diagnostics : List Diagnostic}

theorem verdict_eq_compileErrors_iff (unsettled : ¬ failure.Settled) :
    failure.verdict limit = .compileErrors diagnostics ↔
      ∃ diagnostic, diagnostics = [diagnostic] ∧ failure.recovered? limit = some diagnostic := by
  rcases not_settled_iff.mp unsettled with ⟨compiles, unlisted⟩
  cases found : failure.recovered? limit with
  | some diagnostic => simp [verdict_of_recovered compiles unlisted found, eq_comm]
  | none => simp [verdict_of_silent compiles unlisted found, unexplained]

theorem recovered?_eq_some_iff_toldAt :
    failure.recovered? limit = some diagnostic ↔
      ∃ index place, failure.ToldAt limit index place diagnostic := by
  rw [recovered?, List.findSome?_eq_some_iff]
  constructor
  · rintro ⟨front, log, back, logs, told, silent⟩
    rcases Log.exists_completedBy (Option.isSome_of_eq_some told) with ⟨place, completed⟩
    exact ⟨front.length, place, front, log, back, logs, rfl, silent, told, completed⟩
  · rintro ⟨_, _, front, log, back, logs, _, silent, told, _⟩
    exact ⟨front, log, back, logs, told, silent⟩

theorem recovered?_isSome_of_widens (widens : Log.Widens narrow wide)
    (told : (failure.recovered? narrow).isSome) : (failure.recovered? wide).isSome := by
  rw [recovered?, List.findSome?_isSome_iff] at told ⊢
  rcases told with ⟨log, member, told⟩
  exact ⟨log, member, Log.recover?_isSome_of_widens widens told⟩

/-- Wider windows show an error in an earlier log, or no later in the same log. -/
theorem ToldAt.le_of_widens (widens : Log.Widens narrow wide)
    {index place wideIndex widePlace : Nat}
    (told : failure.ToldAt narrow index place diagnostic)
    (wideTold : failure.ToldAt wide wideIndex widePlace other) :
    wideIndex < index ∨ wideIndex = index ∧ widePlace ≤ place := by
  rcases told with ⟨front, log, back, logs, rfl, silent, told, completed⟩
  rcases wideTold with ⟨wideFront, wideLog, wideBack, wideLogs, rfl, wideSilent, _, wideCompleted⟩
  have parts := wideLogs.symm.trans logs
  rcases Nat.lt_trichotomy wideFront.length front.length with before | level | behind
  · exact .inl before
  · cases (List.append_inj parts level).2
    exact .inr ⟨level, completed.le_of_widens widens wideCompleted⟩
  · -- The wider windows would pass over a log that tells an error even in the narrower ones.
    have within : (wideFront ++ wideLog :: wideBack)[front.length]? = wideFront[front.length]? :=
      List.getElem?_append_left behind
    have member : log ∈ wideFront := by
      apply List.mem_of_getElem?
      rw [← within, parts]
      simp
    have shown := Log.recover?_isSome_of_widens widens (Option.isSome_of_eq_some told)
    rw [wideSilent log member] at shown
    cases shown

end unsettled

/-- A settled verdict stays. In an unsettled one an error stays an error when more lines are read,
and where no error is told then, none was told before and the verdict is the same. The error that is
told comes from an earlier log, or stands no later in the same log. -/
theorem verdict_of_widens (widens : Log.Widens narrow wide) (failure : Failure) :
    (failure.Settled → failure.verdict wide = failure.verdict narrow) ∧
      (¬ failure.Settled →
        (∀ diagnostics, failure.verdict narrow = .compileErrors diagnostics →
          ∃ others, failure.verdict wide = .compileErrors others) ∧
        (∀ message cause, failure.verdict wide = .unexpected message cause →
          failure.verdict narrow = .unexpected message cause) ∧
        (∀ limit diagnostics, failure.verdict limit = .compileErrors diagnostics ↔
          ∃ diagnostic, diagnostics = [diagnostic] ∧
            ∃ index place, failure.ToldAt limit index place diagnostic) ∧
        ∀ index place diagnostic wideIndex widePlace other,
          failure.ToldAt narrow index place diagnostic →
          failure.ToldAt wide wideIndex widePlace other →
            wideIndex < index ∨ wideIndex = index ∧ widePlace ≤ place) := by
  refine ⟨verdict_of_settled, fun unsettled => ⟨fun diagnostics told => ?_,
    fun message cause untold => ?_, fun limit diagnostics => ?_,
    fun _ _ _ _ _ _ told wideTold => told.le_of_widens widens wideTold⟩⟩
  · rcases (verdict_eq_compileErrors_iff unsettled).mp told with ⟨diagnostic, rfl, recovered⟩
    have shown := recovered?_isSome_of_widens widens (Option.isSome_of_eq_some recovered)
    rcases Option.isSome_iff_exists.mp shown with ⟨other, wideRecovered⟩
    exact ⟨[other], (verdict_eq_compileErrors_iff unsettled).mpr ⟨other, rfl, wideRecovered⟩⟩
  · rcases not_settled_iff.mp unsettled with ⟨compiles, unlisted⟩
    have silent : failure.recovered? wide = none := by
      rw [← Option.not_isSome_iff_eq_none]
      intro shown
      rcases Option.isSome_iff_exists.mp shown with ⟨other, recovered⟩
      cases untold.symm.trans (verdict_of_recovered compiles unlisted recovered)
    have unshown : failure.recovered? narrow = none := by
      rw [← Option.not_isSome_iff_eq_none] at silent ⊢
      exact fun shown => silent (recovered?_isSome_of_widens widens shown)
    rw [← untold, verdict_of_silent compiles unlisted silent,
      verdict_of_silent compiles unlisted unshown]
  · simp only [verdict_eq_compileErrors_iff unsettled, recovered?_eq_some_iff_toldAt]

def twoErrors : Failure where
  logs := [
    { task := "compile"
      lines := ["[error] a.java:1: x", "[error] ^", "[error] total: 1", "failed"] },
    { task := "test", lines := ["[error] b.java:2: y", "[error] ^"] }]

/-- Two lines of each log show only the error of the second one, and four lines show another. -/
theorem verdict_of_widens_twoErrors :
    Log.Widens (some 2) (some 4) ∧ ¬ twoErrors.Settled ∧
      twoErrors.verdict (some 2) =
        .compileErrors [(Diagnostic.ofError "y").atLine "b.java" 2 |>.atColumn 0] ∧
      ∃ others, twoErrors.verdict (some 4) = .compileErrors others := by
  have widens : Log.Widens (some 2) (some 4) := by
    intro most read
    cases read
    exact ⟨2, rfl, by decide⟩
  have unsettled : ¬ twoErrors.Settled := not_settled_iff.mpr ⟨.inl rfl, rfl⟩
  have told : twoErrors.verdict (some 2) =
      .compileErrors [(Diagnostic.ofError "y").atLine "b.java" 2 |>.atColumn 0] := by
    decide
  exact ⟨widens, unsettled, told,
    ((verdict_of_widens widens twoErrors).2 unsettled).1 _ told⟩

end ReloadReport.Failure
