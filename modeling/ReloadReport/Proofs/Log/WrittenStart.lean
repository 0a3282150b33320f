import Mathlib.Data.List.Basic
import ReloadReport.Proofs.Log.LineGrammar

/-!
# Written starts of errors

The start of an error as a compiler writes it, with its file, line number and message. The file is
read up to the last source position that the line mentions, so all three are found again exactly
where the message mentions no source position itself.
-/

namespace ReloadReport.Log.Line

open Text

def startText (file : String) (line : UInt32) (message : String) : String :=
  "[error] " ++ file ++ ":" ++ line.toNat.repr ++ ": " ++ message

structure IsSourceFile (file : List Char) : Prop where
  oneLine : '\n' ∉ file
  noEscape : '\x1b' ∉ file
  headSolid : ∀ c ∈ file.head?, isBlank c = false
  ends : ∃ extension, IsExtension extension ∧ extension <:+ file

structure IsMessage (message : List Char) : Prop where
  oneLine : '\n' ∉ message
  noEscape : '\x1b' ∉ message
  headSolid : ∀ c ∈ message.head?, isBlank c = false

/-- A place in a text where a source position stands: the end of a file name with a line number
behind it, in the digits of any script. -/
structure Mention (text : List Char) where
  before : List Char
  extension : List Char
  digits : List Char
  rest : List Char
  parts : text = before ++ (extension ++ ':' :: (digits ++ ':' :: rest))
  isExtension : IsExtension extension
  digitsNonempty : digits ≠ []
  digitsDecimal : ∀ c ∈ digits, isDecimalDigit c

def Mention.Last {text : List Char} (mention : Mention text) : Prop :=
  ∀ other : Mention text, other.before.length ≤ mention.before.length

section locate?

variable {text : List Char}

theorem locate?_cons_of_ne {c : Char} (noDot : c ≠ '.') (rest : List Char) :
    locate? (c :: rest) = none := by
  apply Option.eq_none_iff_forall_not_mem.mpr
  rintro ⟨extension, digits, message⟩ located
  rcases eq_of_locate? located with ⟨isExtension, _, _, _, gap, parts, _⟩
  have head := congrArg List.head? parts
  rw [List.head?_append, isExtension.head?_eq] at head
  exact noDot (Option.some.inj head)

theorem Mention.locate?_eq (mention : Mention text) (oneLine : '\n' ∉ text) :
    locate? (mention.extension ++ ':' :: (mention.digits ++ ':' :: mention.rest)) =
      some (mention.extension, mention.digits, mention.rest.dropWhile isBlank) := by
  have restOneLine : '\n' ∉ mention.rest := by
    intro member
    rw [mention.parts] at oneLine
    exact oneLine (by simp [member])
  have noGap : ∀ c ∈ ([] : List Char), isBlank c := by simp
  exact locate?_append mention.isExtension mention.digitsNonempty mention.digitsDecimal noGap
    restOneLine

theorem exists_mention {before rest : List Char} (parts : text = before ++ rest)
    (located : locate? rest ≠ none) : ∃ mention : Mention text, mention.before = before := by
  rcases Option.ne_none_iff_exists'.mp located with ⟨⟨extension, digits, message⟩, found⟩
  rcases eq_of_locate? found with ⟨isExtension, nonempty, decimal, _, gap, rfl, _⟩
  exact ⟨⟨before, extension, digits, gap ++ message, parts, isExtension, nonempty, decimal⟩, rfl⟩

theorem cutAtLast?_locate?_eq_none_iff (oneLine : '\n' ∉ text) :
    cutAtLast? locate? text = none ↔ ¬ Nonempty (Mention text) := by
  rw [cutAtLast?_eq_none_iff oneLine]
  constructor
  · rintro refused ⟨mention⟩
    cases (refused _ _ mention.parts).symm.trans (mention.locate?_eq oneLine)
  · intro unmentioned before rest parts
    apply Classical.byContradiction
    intro located
    rcases exists_mention parts located with ⟨mention, _⟩
    exact unmentioned ⟨mention⟩

theorem Mention.Last.cutAtLast?_eq {mention : Mention text} (last : mention.Last)
    (oneLine : '\n' ∉ text) : cutAtLast? locate? text =
      some (mention.before, mention.extension, mention.digits,
        mention.rest.dropWhile isBlank) := by
  have beforeOneLine : '\n' ∉ mention.before := fun member =>
    oneLine (mention.parts ▸ List.mem_append_left _ member)
  have longest : ∀ other otherRest,
      mention.before ++ (mention.extension ++ ':' :: (mention.digits ++ ':' :: mention.rest)) =
        other ++ otherRest → locate? otherRest ≠ none →
      other.length ≤ mention.before.length := by
    intro other otherRest split located
    rcases exists_mention (mention.parts.trans split) located with ⟨otherMention, rfl⟩
    exact last otherMention
  have cut := cutAtLast?_of_longest beforeOneLine (mention.locate?_eq oneLine) longest
  rwa [← mention.parts] at cut

theorem Mention.last_of_cut {mention : Mention text} (oneLine : '\n' ∉ text)
    {found : List Char × List Char × List Char}
    (cut : cutAtLast? locate? text = some (mention.before, found)) : mention.Last := by
  intro other
  have otherOneLine : '\n' ∉ other.before := fun member =>
    oneLine (other.parts ▸ List.mem_append_left _ member)
  rcases cutAtLast?_append otherOneLine (other.locate?_eq oneLine) with
    ⟨longest, last, otherCut, longer⟩
  rw [← other.parts, cut] at otherCut
  rwa [(Prod.mk.inj (Option.some.inj otherCut)).1]

theorem Mention.exists_last (mention : Mention text) (oneLine : '\n' ∉ text) :
    ∃ last : Mention text, last.Last := by
  cases cut : cutAtLast? locate? text with
  | none => exact absurd ⟨mention⟩ ((cutAtLast?_locate?_eq_none_iff oneLine).mp cut)
  | some found =>
      rcases eq_of_cutAtLast? cut with ⟨rest, parts, _, located⟩
      rcases exists_mention parts (by simp [located]) with ⟨last, here⟩
      exact ⟨last, last_of_cut oneLine (by rw [cut, here])⟩

end locate?

section startParts?

variable {file message : List Char} {line : UInt32}

def numberText (line : UInt32) : List Char :=
  ':' :: (Nat.toDigits 10 line.toNat ++ [':', ' '])

theorem toList_startText (file : String) (line : UInt32) (message : String) :
    (startText file line message).toList =
      errorTag ++ ' ' :: (file.toList ++ (numberText line ++ message.toList)) := by
  simp [startText, errorTag, numberText, Nat.toList_repr]

theorem mem_numberText {c : Char} (member : c ∈ numberText line) : c ≠ '.' ∧ c ≠ '\n' := by
  have digit : ∀ d ∈ Nat.toDigits 10 line.toNat, d.isDigit := (spells_toDigits line.toNat).ascii
  simp only [numberText, List.mem_cons, List.mem_append, List.not_mem_nil, or_false] at member
  rcases member with rfl | inDigits | rfl | rfl
  · decide
  · constructor <;> rintro rfl <;> exact absurd (digit _ inDigits) (by decide)
  · decide
  · decide

/-- Without a later source position the file ends where it was written to end. -/
theorem cutAtLast?_written {stem extension : List Char} (isExtension : IsExtension extension)
    (stemOneLine : '\n' ∉ stem) (plain : IsMessage message)
    (uncut : cutAtLast? locate? message = none) :
    cutAtLast? locate? (stem ++ (extension ++ (numberText line ++ message))) =
      some (stem, extension, Nat.toDigits 10 line.toNat, message) := by
  have digits := spells_toDigits line.toNat
  have decimal : ∀ c ∈ Nat.toDigits 10 line.toNat, isDecimalDigit c := fun c member =>
    isDecimalDigit_of_isDigit (digits.ascii c member)
  have located : locate? (extension ++ (numberText line ++ message)) =
      some (extension, Nat.toDigits 10 line.toNat, message) := by
    have space : ∀ c ∈ [' '], isBlank c := List.forall_mem_singleton.mpr rfl
    have here := locate?_append isExtension digits.nonempty decimal space plain.oneLine
    rw [dropWhile_eq_self plain.headSolid] at here
    simpa [numberText] using here
  -- Behind the dot of the extension there is none up to the message.
  have behindDot : ∃ tail, extension = '.' :: tail ∧ ∀ c ∈ tail, c ≠ '.' ∧ c ≠ '\n' := by
    rcases isExtension with rfl | rfl <;> exact ⟨_, rfl, by simp⟩
  rcases behindDot with ⟨tail, rfl, tailPlain⟩
  have noneBehind : cutAtLast? locate? (tail ++ (numberText line ++ message)) = none := by
    have apart : ∀ c ∈ tail ++ numberText line, c ≠ '.' ∧ c ≠ '\n' := fun c member =>
      (List.mem_append.mp member).elim (tailPlain c) mem_numberText
    rw [← List.append_assoc]
    exact cutAtLast?_append_of_refused (fun member => (apart _ member).2 rfl)
      (fun c member => locate?_cons_of_ne (apart c member).1) uncut
  have cut := cutAtLast?_append_of_cut stemOneLine (cutAtLast?_cons_of_uncut noneBehind located)
  rwa [List.append_nil] at cut

theorem startParts?_written (named : IsSourceFile file) :
    startParts? (' ' :: (file ++ (numberText line ++ message))) =
      (cutAtLast? locate? (file ++ (numberText line ++ message))).map
        fun (before, extension, digits, message) => (before ++ extension, digits, message) := by
  have blank : ∀ c ∈ [' '], isBlank c := List.forall_mem_singleton.mpr rfl
  rcases named.ends with ⟨extension, isExtension, suffix⟩
  have nonempty : file ≠ [] := by
    rintro rfl
    rcases isExtension with rfl | rfl <;> simp at suffix
  have stops : ∀ c ∈ (file ++ (numberText line ++ message)).head?, isBlank c = false := by
    rw [List.head?_append_of_ne_nil _ nonempty]
    exact named.headSolid
  rw [startParts?, ← List.singleton_append, dropWhile_run blank stops]

end startParts?

section ofString?

variable {file message : String} {line : UInt32}

theorem withoutColour_startText (named : IsSourceFile file.toList)
    (plain : IsMessage message.toList) :
    withoutColour (startText file line message).toList =
      errorTag ++ ' ' :: (file.toList ++ (numberText line ++ message.toList)) := by
  have inNumber : '\x1b' ∉ numberText line := by
    intro member
    simp only [numberText, List.mem_cons, List.mem_append, List.not_mem_nil, or_false] at member
    rcases member with colon | inDigits | colon | space
    · exact absurd colon (by decide)
    · exact absurd ((spells_toDigits line.toNat).ascii _ inDigits) (by decide)
    · exact absurd colon (by decide)
    · exact absurd space (by decide)
  rw [toList_startText, withoutColour_of_notMem]
  simp [errorTag, named.noEscape, inNumber, plain.noEscape]

theorem ofString?_startText (named : IsSourceFile file.toList) (plain : IsMessage message.toList)
    {before extension digits told : List Char}
    (cut : cutAtLast? locate? (file.toList ++ (numberText line ++ message.toList)) =
      some (before, extension, digits, told)) :
    ofString? (startText file line message) = (numeral32? digits).map fun number =>
      .start (String.ofList (before ++ extension)) number (String.ofList told) := by
  have behindTag : body? (startText file line message).toList =
      some (' ' :: (file.toList ++ (numberText line ++ message.toList))) :=
    after?_eq_some_iff.mpr (withoutColour_startText named plain)
  rw [ofString?, ofText?, behindTag, Option.bind_some, startParts?_written named, cut,
    Option.map_some]

theorem ofString?_of_unmentioned (named : IsSourceFile file.toList)
    (plain : IsMessage message.toList) (unmentioned : ¬ Nonempty (Mention message.toList)) :
    ofString? (startText file line message) = some (.start file line message) := by
  rcases named.ends with ⟨extension, isExtension, stem, parts⟩
  have stemOneLine : '\n' ∉ stem := fun member =>
    named.oneLine (parts ▸ List.mem_append_left extension member)
  have cut : cutAtLast? locate? (file.toList ++ (numberText line ++ message.toList)) =
      some (stem, extension, Nat.toDigits 10 line.toNat, message.toList) := by
    rw [← parts, List.append_assoc]
    exact cutAtLast?_written isExtension stemOneLine plain
      ((cutAtLast?_locate?_eq_none_iff plain.oneLine).mpr unmentioned)
  have number : numeral32? (Nat.toDigits 10 line.toNat) = some line :=
    numeral32?_eq_some_iff.mpr ⟨_, .inl rfl, spells_toDigits line.toNat⟩
  rw [ofString?_startText named plain cut, number, parts]
  simp

/-- The last source position in a message is taken for that of the error, and all of the line in
front of it for the file. -/
theorem ofString?_of_last (named : IsSourceFile file.toList) (plain : IsMessage message.toList)
    {mention : Mention message.toList} (last : mention.Last) :
    ofString? (startText file line message) = (numeral32? mention.digits).map fun number =>
      .start (file ++ ":" ++ line.toNat.repr ++ ": " ++ String.ofList mention.before ++
        String.ofList mention.extension) number
          (String.ofList (mention.rest.dropWhile isBlank)) := by
  have frontOneLine : '\n' ∉ file.toList ++ numberText line := by
    intro member
    rcases List.mem_append.mp member with inFile | inNumber
    · exact named.oneLine inFile
    · exact (mem_numberText inNumber).2 rfl
  have cut := cutAtLast?_append_of_cut frontOneLine (last.cutAtLast?_eq plain.oneLine)
  rw [List.append_assoc] at cut
  have reached : String.ofList (file.toList ++ numberText line ++ mention.before ++
      mention.extension) = file ++ ":" ++ line.toNat.repr ++ ": " ++ String.ofList mention.before ++
        String.ofList mention.extension := by
    apply String.toList_injective
    simp [numberText, Nat.toList_repr]
  rw [ofString?_startText named plain cut, reached]

/-- A written start is read as it was written unless its message mentions a source position. Then
the last one in the message is taken for that of the error, with all that stands in front of it for
the file, and a position without a line number of 32 bits in ASCII digits makes the line tell
nothing. -/
theorem ofString?_startText_eq_iff (named : IsSourceFile file.toList)
    (plain : IsMessage message.toList) :
    (ofString? (startText file line message) = some (.start file line message) ↔
        ¬ Nonempty (Mention message.toList)) ∧
      ∀ mention : Mention message.toList, mention.Last →
        (∀ number : UInt32, Spells mention.digits number.toNat →
          ofString? (startText file line message) = some (.start
            (file ++ ":" ++ line.toNat.repr ++ ": " ++ String.ofList mention.before ++
              String.ofList mention.extension) number
            (String.ofList (mention.rest.dropWhile isBlank)))) ∧
        ((∀ number : UInt32, ¬ Spells mention.digits number.toNat) →
          ofString? (startText file line message) = none) := by
  refine ⟨⟨fun same mentioned => ?_, ofString?_of_unmentioned named plain⟩,
    fun mention last => ⟨fun number spells => ?_, fun unfit => ?_⟩⟩
  · rcases mentioned with ⟨anyMention⟩
    rcases anyMention.exists_last plain.oneLine with ⟨mention, last⟩
    rw [ofString?_of_last named plain last, Option.map_eq_some_iff] at same
    rcases same with ⟨number, _, told⟩
    -- The file that is read has more characters than the one that was written.
    have sameFile := congrArg String.length (Line.start.inj told).1
    simp only [String.length_append] at sameFile
    have colon : ":".length = 1 := rfl
    omega
  · rw [ofString?_of_last named plain last,
      (numeral32?_of_decimalDigits mention.digitsDecimal).mpr spells, Option.map_some]
  · have unread : numeral32? mention.digits = none := by
      apply Option.eq_none_iff_forall_not_mem.mpr
      exact fun number read =>
        unfit number ((numeral32?_of_decimalDigits mention.digitsDecimal).mp read)
    rw [ofString?_of_last named plain last, unread, Option.map_none]

theorem isSourceFile_viewFile : IsSourceFile "a view.scala".toList where
  oneLine := by decide
  noEscape := by decide
  headSolid := by simp [isBlank]
  ends := ⟨".scala".toList, .inr rfl, by decide⟩

/-- A message that only comes near to a source position is read as a message, and of two positions
in a message the second counts. -/
theorem ofString?_startText_viewFile :
    ofString? (startText "a view.scala" 7 "b.javac:8: c.java:9") =
        some (.start "a view.scala" 7 "b.javac:8: c.java:9") ∧
      ofString? (startText "a view.scala" 7 "b.java:8: c.java:9:x") =
        some (.start "a view.scala:7: b.java:8: c.java" 9 "x") := by
  have near : IsMessage "b.javac:8: c.java:9".toList := ⟨by decide, by decide, by simp [isBlank]⟩
  have telling : IsMessage "b.java:8: c.java:9:x".toList :=
    ⟨by decide, by decide, by simp [isBlank]⟩
  have unmentioned : ¬ Nonempty (Mention "b.javac:8: c.java:9".toList) :=
    (cutAtLast?_locate?_eq_none_iff near.oneLine).mp (by decide)
  let second : Mention "b.java:8: c.java:9:x".toList :=
    ⟨"b.java:8: c".toList, ".java".toList, "9".toList, "x".toList, by decide, .inl rfl, by decide,
      List.forall_mem_singleton.mpr rfl⟩
  have cut : cutAtLast? locate? "b.java:8: c.java:9:x".toList =
      some ("b.java:8: c".toList, ".java".toList, "9".toList, "x".toList) := by
    decide
  have last : second.Last := Mention.last_of_cut telling.oneLine cut
  have spells : Spells second.digits (9 : UInt32).toNat :=
    ⟨by decide, List.forall_mem_singleton.mpr rfl, by decide⟩
  exact ⟨(ofString?_startText_eq_iff isSourceFile_viewFile near).1.mpr unmentioned,
    ((ofString?_startText_eq_iff isSourceFile_viewFile telling).2 second last).1 9 spells⟩

/-- A start is not always read as it was written. -/
theorem ofString?_startText_secondPosition :
    IsSourceFile "a.java".toList ∧ IsMessage "see b.scala:2: x".toList ∧
      ofString? (startText "a.java" 1 "see b.scala:2: x") ≠
        some (.start "a.java" 1 "see b.scala:2: x") :=
  ⟨⟨by decide, by decide, by simp [isBlank], ".java".toList, .inl rfl, by decide⟩,
    ⟨by decide, by decide, by simp [isBlank]⟩, by decide⟩

end ofString?

end ReloadReport.Log.Line
