import ReloadReport.Text.Search

/-!
# First and last places in texts

A cut at the first place of a mark is the shortest way to part a text around the mark, and a cut
at the last place on a line that a reader accepts is the longest such way.
-/

namespace ReloadReport.Text

theorem after?_append_singleton {label : List Char} {c : Char} (other : label.getLast? ≠ some c)
    (text : List Char) : after? label (text ++ [c]) = (after? label text).map (· ++ [c]) := by
  apply Option.ext
  intro rest
  simp only [Option.map_eq_some_iff, after?_eq_some_iff]
  constructor
  · intro parts
    rcases List.eq_nil_or_concat rest with rfl | ⟨front, last, rfl⟩
    · rw [← List.append_nil label, ← parts, List.getLast?_concat] at other
      exact absurd rfl other
    · rw [List.concat_eq_append, ← List.append_assoc] at parts
      rcases List.append_inj' parts rfl with ⟨same, sameLast⟩
      exact ⟨front, same, by simp [sameLast]⟩
  · rintro ⟨front, rfl, rfl⟩
    exact List.append_assoc label front [c]

/-- The mark stands between two parts of the text, and nowhere before. -/
structure FirstAt (mark text before rest : List Char) : Prop where
  parts : text = before ++ mark ++ rest
  least : ∀ other otherRest, text = other ++ mark ++ otherRest → before.length ≤ other.length

namespace FirstAt

variable {mark text before rest otherBefore otherRest : List Char}

theorem unique (first : FirstAt mark text before rest)
    (other : FirstAt mark text otherBefore otherRest) :
    otherBefore = before ∧ otherRest = rest := by
  have sameLength : otherBefore.length = before.length :=
    Nat.le_antisymm (other.least before rest first.parts)
      (first.least otherBefore otherRest other.parts)
  have parts := other.parts.symm.trans first.parts
  rw [List.append_assoc, List.append_assoc] at parts
  rcases List.append_inj parts sameLength with ⟨sameBefore, sameRest⟩
  exact ⟨sameBefore, List.append_cancel_left sameRest⟩

theorem of_notMem {c : Char} (notMember : c ∉ before) (mark rest : List Char) :
    FirstAt (c :: mark) (before ++ (c :: mark) ++ rest) before rest where
  parts := rfl
  least := by
    intro other otherRest parts
    apply Nat.not_lt.mp
    intro shorter
    rw [List.append_assoc, List.append_assoc] at parts
    have standsThere := congrArg (·[other.length]?) parts
    simp only [List.cons_append, List.getElem?_append_left shorter,
      List.getElem?_append_right (Nat.le_refl _), Nat.sub_self, List.getElem?_cons_zero]
      at standsThere
    exact notMember (List.mem_of_getElem? standsThere)

theorem append (first : FirstAt mark text before rest) (tail : List Char) :
    FirstAt mark (text ++ tail) before (rest ++ tail) where
  parts := by simp [first.parts]
  least := by
    intro other otherRest parts
    -- An earlier place would lie in the text as well.
    apply Nat.not_lt.mp
    intro shorter
    have within : (other ++ mark).length ≤ text.length := by
      simp only [first.parts, List.length_append]
      omega
    rcases List.prefix_of_prefix_length_le (parts ▸ List.prefix_append (other ++ mark) otherRest)
      (List.prefix_append text tail) within with ⟨earlierRest, earlier⟩
    exact Nat.not_le.mpr shorter (first.least other earlierRest earlier.symm)

theorem notMem {c : Char} (first : FirstAt [c] text before rest) : c ∉ before := by
  intro member
  rcases List.append_of_mem member with ⟨front, back, rfl⟩
  have shorter := first.least front (back ++ [c] ++ rest) (by simp [first.parts])
  simp only [List.length_append, List.length_cons] at shorter
  omega

end FirstAt

section cutAtFirst?

variable {mark text before rest : List Char}

theorem cutAtFirst?_append (mark before rest : List Char) :
    ∃ least found, cutAtFirst? mark (before ++ mark ++ rest) = some (least, found) ∧
      least.length ≤ before.length := by
  induction before with
  | nil =>
      have found : after? mark (mark ++ rest) = some rest := after?_eq_some_iff.mpr rfl
      refine ⟨[], rest, ?_, Nat.le_refl _⟩
      cases marked : mark ++ rest with
      | nil => simp_all [cutAtFirst?]
      | cons c text => simp_all [cutAtFirst?]
  | cons c before induction =>
      rcases induction with ⟨least, found, cut, shorter⟩
      rw [List.append_assoc, List.cons_append, ← List.append_assoc, cutAtFirst?, cut]
      split
      next here _ => exact ⟨[], here, rfl, Nat.zero_le _⟩
      next => exact ⟨c :: least, found, rfl, Nat.succ_le_succ shorter⟩

theorem cutAtFirst?_eq_some_iff :
    cutAtFirst? mark text = some (before, rest) ↔ FirstAt mark text before rest := by
  constructor
  · intro cut
    refine ⟨eq_of_cutAtFirst? cut, fun other otherRest parts => ?_⟩
    rcases cutAtFirst?_append mark other otherRest with ⟨least, found, otherCut, shorter⟩
    rw [← parts, cut] at otherCut
    obtain ⟨rfl, rfl⟩ := by simpa using otherCut
    exact shorter
  · intro first
    rcases cutAtFirst?_append mark before rest with ⟨least, found, cut, shorter⟩
    rw [← first.parts] at cut
    have foundParts := eq_of_cutAtFirst? cut
    have leastFirst : FirstAt mark text least found :=
      ⟨foundParts, fun other otherRest parts =>
        Nat.le_trans shorter (first.least other otherRest parts)⟩
    rcases first.unique leastFirst with ⟨rfl, rfl⟩
    exact cut

theorem cutAtFirst?_eq_none_iff : cutAtFirst? mark text = none ↔ ¬ mark <:+: text := by
  rw [Option.eq_none_iff_forall_not_mem]
  constructor
  · intro missing stands
    rcases stands with ⟨before, rest, parts⟩
    rcases cutAtFirst?_append mark before rest with ⟨least, found, cut, _⟩
    exact missing (least, found) (parts ▸ cut)
  · intro missing parts cut
    rcases parts with ⟨before, rest⟩
    exact missing ⟨before, rest, (eq_of_cutAtFirst? cut).symm⟩

/-- Two places of a mark are its only ones where it is met first at the one, and behind the first
character of that place first at the other. -/
theorem eq_or_eq_of_firstAt {c : Char} {between : List Char}
    (opens : FirstAt (c :: mark) (before ++ (c :: mark) ++ between ++ (c :: mark)) before
      (between ++ (c :: mark)))
    (closes : FirstAt (c :: mark) (mark ++ between ++ (c :: mark)) (mark ++ between) [])
    {other : List Char}
    (parts : before ++ (c :: mark) ++ between ++ (c :: mark) = other ++ (c :: mark) ++ rest) :
    other = before ∨ other = before ++ (c :: mark) ++ between := by
  have reached := opens.least other rest parts
  have inFront : before <+: other ++ (c :: mark) ++ rest :=
    ⟨(c :: mark) ++ between ++ (c :: mark), by simp [← parts]⟩
  have otherInFront : other <+: other ++ (c :: mark) ++ rest := ⟨(c :: mark) ++ rest, by simp⟩
  rcases List.prefix_of_prefix_length_le inFront otherInFront reached with ⟨more, rfl⟩
  cases more with
  | nil => exact .inl (List.append_nil before)
  | cons d more =>
      simp only [List.append_assoc, List.cons_append, List.append_cancel_left_eq,
        List.cons.injEq] at parts
      rcases parts with ⟨rfl, parts⟩
      have later : mark ++ between ++ (c :: mark) = more ++ (c :: mark) ++ rest := by
        simpa using parts
      have farther := closes.least more rest later
      have lengths := congrArg List.length later
      simp only [List.length_append] at farther lengths
      obtain rfl : rest = [] := List.eq_nil_of_length_eq_zero (by omega)
      rw [List.append_nil] at later
      rw [← List.append_cancel_right later]
      exact .inr (by simp)

theorem exists_firstAt_append {head : List Char} (stands : mark <:+: head) :
    ∃ before rest, ∀ text, FirstAt mark (head ++ text) before (rest ++ text) := by
  cases cut : cutAtFirst? mark head with
  | none => exact absurd stands (cutAtFirst?_eq_none_iff.mp cut)
  | some parts => exact ⟨parts.1, parts.2, (cutAtFirst?_eq_some_iff.mp cut).append⟩

end cutAtFirst?

section cutAtLast?

variable {accept : List Char → Option α} {text before rest : List Char} {found : α}

theorem eq_of_cutAtLast? (cut : cutAtLast? accept text = some (before, found)) :
    ∃ rest, text = before ++ rest ∧ '\n' ∉ before ∧ accept rest = some found := by
  induction text generalizing before with
  | nil =>
      simp only [cutAtLast?, Option.map_eq_some_iff, Prod.mk.injEq] at cut
      rcases cut with ⟨_, accepted, rfl, rfl⟩
      exact ⟨[], rfl, List.not_mem_nil, accepted⟩
  | cons c text induction =>
      rw [cutAtLast?] at cut
      split at cut
      next longer value later =>
        obtain ⟨rfl, rfl⟩ := by simpa using cut
        obtain ⟨notEnd, later⟩ := by simpa using later
        rcases induction later with ⟨rest, rfl, oneLine, accepted⟩
        exact ⟨rest, rfl, by simpa using ⟨Ne.symm notEnd, oneLine⟩, accepted⟩
      next =>
        simp only [Option.map_eq_some_iff, Prod.mk.injEq] at cut
        rcases cut with ⟨_, accepted, rfl, rfl⟩
        exact ⟨c :: text, rfl, List.not_mem_nil, accepted⟩

theorem cutAtLast?_append (oneLine : '\n' ∉ before) (accepted : accept rest = some found) :
    ∃ longest last, cutAtLast? accept (before ++ rest) = some (longest, last) ∧
      before.length ≤ longest.length := by
  induction before with
  | nil =>
      cases rest with
      | nil => exact ⟨[], found, by simp [cutAtLast?, accepted], Nat.le_refl _⟩
      | cons c rest =>
          rw [List.nil_append, cutAtLast?]
          split
          next longer value _ => exact ⟨c :: longer, value, rfl, Nat.zero_le _⟩
          next => exact ⟨[], found, by rw [accepted]; rfl, Nat.le_refl _⟩
  | cons c before induction =>
      rcases induction fun member => oneLine (List.mem_cons_of_mem c member) with
        ⟨longest, last, cut, longer⟩
      have notEnd : c ≠ '\n' := fun same => oneLine (same ▸ List.mem_cons_self)
      refine ⟨c :: longest, last, ?_, Nat.succ_le_succ longer⟩
      rw [List.cons_append, cutAtLast?, if_neg notEnd, cut]

theorem cutAtLast?_eq_none_iff (oneLine : '\n' ∉ text) :
    cutAtLast? accept text = none ↔ ∀ before rest, text = before ++ rest → accept rest = none := by
  constructor
  · intro uncut before rest parts
    apply Option.eq_none_iff_forall_not_mem.mpr
    intro found accepted
    have beforeOneLine : '\n' ∉ before := fun member =>
      oneLine (parts ▸ List.mem_append_left rest member)
    rcases cutAtLast?_append beforeOneLine accepted with ⟨longest, last, cut, _⟩
    cases (parts ▸ uncut).symm.trans cut
  · intro refused
    apply Option.eq_none_iff_forall_not_mem.mpr
    intro parts cut
    rcases parts with ⟨before, found⟩
    rcases eq_of_cutAtLast? cut with ⟨rest, split, _, accepted⟩
    cases (refused before rest split).symm.trans accepted

theorem cutAtLast?_of_longest (oneLine : '\n' ∉ before) (accepted : accept rest = some found)
    (longest : ∀ other otherRest, before ++ rest = other ++ otherRest →
      accept otherRest ≠ none → other.length ≤ before.length) :
    cutAtLast? accept (before ++ rest) = some (before, found) := by
  rcases cutAtLast?_append oneLine accepted with ⟨other, last, cut, longer⟩
  rcases eq_of_cutAtLast? cut with ⟨otherRest, split, _, otherAccepted⟩
  have refusedBeyond := longest other otherRest split (by simp [otherAccepted])
  have sameLength := Nat.le_antisymm longer refusedBeyond
  rcases List.append_inj split sameLength with ⟨rfl, rfl⟩
  rw [cut, Option.some.inj (accepted.symm.trans otherAccepted)]

/-- A text is cut in front of its first character where no later place is accepted. -/
theorem cutAtLast?_cons_of_uncut {c : Char} (uncut : cutAtLast? accept text = none)
    (accepted : accept (c :: text) = some found) :
    cutAtLast? accept (c :: text) = some ([], found) := by
  simp [cutAtLast?, uncut, accepted]

theorem cutAtLast?_append_of_cut {front : List Char} (oneLine : '\n' ∉ front)
    (cut : cutAtLast? accept text = some (before, found)) :
    cutAtLast? accept (front ++ text) = some (front ++ before, found) := by
  induction front with
  | nil => exact cut
  | cons c front induction =>
      rw [List.mem_cons, not_or] at oneLine
      rw [List.cons_append, cutAtLast?, if_neg (Ne.symm oneLine.1), induction oneLine.2]
      rfl

/-- Where the reader refuses every text that starts with one of some characters, a run of them
makes no cut of its own. -/
theorem cutAtLast?_append_of_refused {front : List Char} (oneLine : '\n' ∉ front)
    (refused : ∀ c ∈ front, ∀ rest, accept (c :: rest) = none)
    (uncut : cutAtLast? accept text = none) : cutAtLast? accept (front ++ text) = none := by
  induction front with
  | nil => exact uncut
  | cons c front induction =>
      rw [List.mem_cons, not_or] at oneLine
      rw [List.forall_mem_cons] at refused
      rw [List.cons_append, cutAtLast?, if_neg (Ne.symm oneLine.1),
        induction oneLine.2 refused.2, refused.1]
      rfl

end cutAtLast?

end ReloadReport.Text
