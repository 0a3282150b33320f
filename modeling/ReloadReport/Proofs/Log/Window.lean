import ReloadReport.Proofs.Log.Recovery

/-!
# Windows of a log

A limit lets the last lines of a log be read. A wider window may show an earlier error in place of
the one that a narrower window shows, so what is told differs, but whatever completes an error in
the narrower window also completes one in the wider.
-/

namespace ReloadReport.Log

/-- The wide limit lets no fewer lines be read than the narrow one. Without a limit all are read. -/
def Widens (narrow wide : Option UInt64) : Prop :=
  ∀ most ∈ wide, ∃ count ∈ narrow, count ≤ most

/-- Under a limit, the line at the place in the whole log is the caret that completes the error that
the log tells. -/
def CompletedBy (limit : Option UInt64) (lines : List String) (place : Nat) : Prop :=
  ∃ start caret, FirstCompleted (lastLines limit lines) start caret ∧
    place + windowSize limit lines.length = lines.length + caret

variable {limit narrow wide : Option UInt64} {lines : List String} {index : Nat}

section windows

theorem windowSize_le (limit : Option UInt64) (count : Nat) : windowSize limit count ≤ count := by
  cases limit with
  | none => exact Nat.le_refl count
  | some most => exact Nat.min_le_right most.toNat count

theorem windowSize_mono (widens : Widens narrow wide) (count : Nat) :
    windowSize narrow count ≤ windowSize wide count := by
  cases wide with
  | none => exact windowSize_le narrow count
  | some most =>
      rcases widens most rfl with ⟨fewer, rfl, within⟩
      have within : fewer.toNat ≤ most.toNat := within
      simp only [windowSize]
      omega

theorem exists_lastLines_eq_append (widens : Widens narrow wide) (lines : List String) :
    ∃ front, lastLines wide lines = front ++ lastLines narrow lines := by
  have shorter : (lastLines narrow lines).length ≤ (lastLines wide lines).length := by
    rw [length_lastLines, length_lastLines]
    exact windowSize_mono widens lines.length
  rcases List.suffix_of_suffix_length_le (lastLines_suffix narrow lines)
    (lastLines_suffix wide lines) shorter with ⟨front, parts⟩
  exact ⟨front, parts.symm⟩

end windows

section lines

theorem getElem?_behind (front lines : List String) (index : Nat) :
    (front ++ lines)[front.length + index]? = lines[index]? := by
  rw [List.getElem?_append_right (by omega), Nat.add_sub_cancel_left]

theorem StartsAt.behind (front : List String) (starts : StartsAt lines index) :
    StartsAt (front ++ lines) (front.length + index) := by
  rcases starts with ⟨raw, stands, starts⟩
  exact ⟨raw, (getElem?_behind front lines index).trans stands, starts⟩

/-- Lines in front do not undo that a caret completes an error, though it may then not be the first
one that does. -/
theorem CompletesAt.behind (front : List String) (completes : CompletesAt lines index) :
    CompletesAt (front ++ lines) (front.length + index) := by
  rcases completes with ⟨⟨raw, stands, points⟩, start, before, starts⟩
  exact ⟨⟨raw, (getElem?_behind front lines index).trans stands, points⟩, front.length + start,
    by omega, starts.behind front⟩

end lines

section carets

theorem recover?_isSome_iff :
    (recover? limit lines).isSome ↔ ∃ caret, CompletesAt (lastLines limit lines) caret := by
  rw [← recover?_lastLines, recover?_none_isSome]

theorem exists_completedBy (told : (recover? limit lines).isSome) :
    ∃ place, CompletedBy limit lines place := by
  rcases recover?_isSome_iff.mp told with ⟨_, completes⟩
  rcases exists_firstCompleted completes with ⟨start, caret, first⟩
  have within := windowSize_le limit lines.length
  exact ⟨lines.length - windowSize limit lines.length + caret, start, caret, first, by omega⟩

theorem recover?_isSome_of_widens (widens : Widens narrow wide)
    (told : (recover? narrow lines).isSome) : (recover? wide lines).isSome := by
  rcases recover?_isSome_iff.mp told with ⟨caret, completes⟩
  rcases exists_lastLines_eq_append widens lines with ⟨front, parts⟩
  exact recover?_isSome_iff.mpr ⟨front.length + caret, parts ▸ completes.behind front⟩

theorem CompletedBy.le_of_widens {place widePlace : Nat} (widens : Widens narrow wide)
    (completed : CompletedBy narrow lines place)
    (wideCompleted : CompletedBy wide lines widePlace) : widePlace ≤ place := by
  rcases completed with ⟨start, caret, first, placed⟩
  rcases wideCompleted with ⟨wideStart, wideCaret, wideFirst, widePlaced⟩
  rcases exists_lastLines_eq_append widens lines with ⟨front, parts⟩
  -- The caret completes an error in the wide window as well, where it may not be the first to.
  have noLater : wideCaret ≤ front.length + caret := Nat.not_lt.mp fun earlier =>
    wideFirst.least _ earlier (parts ▸ first.completes.behind front)
  have lengths := congrArg List.length parts
  rw [List.length_append, length_lastLines, length_lastLines] at lengths
  omega

end carets

end ReloadReport.Log
