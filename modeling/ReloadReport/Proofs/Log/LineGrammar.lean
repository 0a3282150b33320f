import ReloadReport.Log.Line
import ReloadReport.Proofs.Log.Colour
import ReloadReport.Proofs.Text.Numeral
import ReloadReport.Proofs.Text.Search
import ReloadReport.Proofs.Text.Span

/-!
# The grammar of error lines

The shapes of error lines as ways to part a text into pieces, and the line that each shape tells.
A start can often be parted in several ways; of these the one with the longest pieces counts, in
their order. Reading a line agrees with the grammar.
-/

namespace ReloadReport.Log.Line

open Text

def errorTag : List Char :=
  ['[', 'e', 'r', 'r', 'o', 'r', ']']

def IsExtension (text : List Char) : Prop :=
  text = ['.', 'j', 'a', 'v', 'a'] ∨ text = ['.', 's', 'c', 'a', 'l', 'a']

/-- A way to part the text behind the word error into the start of an error. -/
structure StartSplit (body : List Char) where
  blanks : List Char
  file : List Char
  digits : List Char
  gap : List Char
  message : List Char
  parts : body = blanks ++ file ++ [':'] ++ digits ++ [':'] ++ gap ++ message
  blanksBlank : ∀ c ∈ blanks, isBlank c
  fileOneLine : '\n' ∉ file
  fileExtension : ∃ extension, IsExtension extension ∧ extension <:+ file
  digitsNonempty : digits ≠ []
  digitsDecimal : ∀ c ∈ digits, isDecimalDigit c
  gapBlank : ∀ c ∈ gap, isBlank c
  messageOneLine : '\n' ∉ message

/-- No other way has a longer white space in front, a longer file behind that white space, or a
longer white space before the message behind that file. -/
def StartSplit.Preferred {body : List Char} (split : StartSplit body) : Prop :=
  ∀ other : StartSplit body, other.blanks.length ≤ split.blanks.length ∧
    (other.blanks = split.blanks → other.file.length ≤ split.file.length ∧
      (other.file = split.file → other.gap.length ≤ split.gap.length))

/-- The text behind the word error is a key, its first colon and a detail. The key has lower-case
letters and spaces, and any white space in front of them. -/
structure InfoSplit (body key detail : List Char) : Prop where
  parts : body = key ++ [':'] ++ detail
  noColon : ':' ∉ key
  oneLine : '\n' ∉ detail
  word : ∃ blanks word, key = blanks ++ word ∧ (∀ c ∈ blanks, isBlank c) ∧ word ≠ [] ∧
    ∀ c ∈ word, c = ' ' ∨ 'a' ≤ c ∧ c ≤ 'z'

def PointerSplit (body blanks : List Char) : Prop :=
  ∃ rest, body = blanks ++ ['^'] ++ rest ∧ (∀ c ∈ blanks, isBlank c) ∧ ∀ c ∈ rest, isBlank c

/-- What a text without colours tells about an error. The shapes are tried in order, and the start
of an error whose line number cannot be read has no other shape. -/
inductive Tells : List Char → Option Line → Prop
  | start (split : StartSplit body) (preferred : split.Preferred) (number : UInt32)
      (spells : Spells split.digits number.toNat) :
      Tells (errorTag ++ body)
        (some (.start (String.ofList split.file) number (String.ofList split.message)))
  | unreadable (split : StartSplit body) (preferred : split.Preferred)
      (unfit : ∀ number : UInt32, ¬ Spells split.digits number.toNat) :
      Tells (errorTag ++ body) none
  | info (noStart : ¬ Nonempty (StartSplit body)) (split : InfoSplit body key detail) :
      Tells (errorTag ++ body)
        (some (.info (String.ofList (trim key)) (String.ofList (trim detail))))
  | pointer (noStart : ¬ Nonempty (StartSplit body))
      (noInfo : ∀ key detail, ¬ InfoSplit body key detail) (split : PointerSplit body blanks) :
      Tells (errorTag ++ body) (some (.pointer (byteWidth blanks)))
  | nothing (unlike : ∀ body, text = errorTag ++ body → ¬ Nonempty (StartSplit body) ∧
      (∀ key detail, ¬ InfoSplit body key detail) ∧ ∀ blanks, ¬ PointerSplit body blanks) :
      Tells text none

namespace IsExtension

variable {extension : List Char}

theorem head?_eq (isExtension : IsExtension extension) : extension.head? = some '.' := by
  rcases isExtension with rfl | rfl <;> rfl

theorem length_bounds (isExtension : IsExtension extension) :
    5 ≤ extension.length ∧ extension.length ≤ 6 := by
  rcases isExtension with rfl | rfl <;> decide

theorem extension?_append (isExtension : IsExtension extension) (rest : List Char) :
    extension? (extension ++ rest) = some (extension, rest) := by
  rcases isExtension with rfl | rfl <;> simp [extension?, after?]

end IsExtension

theorem eq_of_extension? {text extension rest : List Char}
    (found : extension? text = some (extension, rest)) :
    IsExtension extension ∧ text = extension ++ rest := by
  rw [extension?] at found
  split at found
  next java =>
    obtain ⟨rfl, rfl⟩ := by simpa using found
    exact ⟨.inl rfl, after?_eq_some_iff.mp java⟩
  next =>
    simp only [Option.map_eq_some_iff, Prod.mk.injEq] at found
    rcases found with ⟨_, scala, rfl, rfl⟩
    exact ⟨.inr rfl, after?_eq_some_iff.mp scala⟩

theorem locate?_append {extension digits gap message : List Char}
    (isExtension : IsExtension extension) (nonempty : digits ≠ [])
    (decimal : ∀ c ∈ digits, isDecimalDigit c) (blank : ∀ c ∈ gap, isBlank c)
    (oneLine : '\n' ∉ message) :
    locate? (extension ++ ':' :: (digits ++ ':' :: (gap ++ message))) =
      some (extension, digits, message.dropWhile isBlank) := by
  have stops : ∀ c ∈ (':' :: (gap ++ message)).head?, isDecimalDigit c = false := by
    intro c head
    obtain rfl : ':' = c := by simpa using head
    decide
  have messageOneLine : '\n' ∉ message.dropWhile isBlank := notMem_dropWhile oneLine
  have accepted : ¬ (digits = [] ∨ '\n' ∈ message.dropWhile isBlank) :=
    fun refused => refused.elim nonempty messageOneLine
  simp only [locate?, isExtension.extension?_append, after?, if_true, Option.bind_eq_bind,
    Option.bind_some, takeWhile_run decimal stops, dropWhile_run decimal stops,
    List.dropWhile_append_of_pos blank, if_neg accepted]

theorem eq_of_locate? {text extension digits message : List Char}
    (found : locate? text = some (extension, digits, message)) :
    IsExtension extension ∧ digits ≠ [] ∧ (∀ c ∈ digits, isDecimalDigit c) ∧ '\n' ∉ message ∧
      ∃ gap, text = extension ++ ':' :: (digits ++ ':' :: (gap ++ message)) ∧
        (∀ c ∈ gap, isBlank c) ∧ ∀ c ∈ message.head?, isBlank c = false := by
  simp only [locate?, Option.bind_eq_bind, Option.bind_eq_some_iff, Prod.exists,
    Option.ite_none_left_eq_some, Option.some.injEq, Prod.mk.injEq, not_or] at found
  rcases found with ⟨_, behind, ends, numbered, colon, told, secondColon, ⟨nonempty, oneLine⟩,
    rfl, rfl, rfl⟩
  rcases eq_of_extension? ends with ⟨isExtension, rfl⟩
  refine ⟨isExtension, nonempty, fun c member => mem_of_mem_takeWhile member, oneLine,
    told.takeWhile isBlank, ?_, fun c member => mem_of_mem_takeWhile member,
    head?_dropWhile_false⟩
  have behindEq := after?_eq_some_iff.mp colon
  have restEq := after?_eq_some_iff.mp secondColon
  rw [List.takeWhile_append_dropWhile, ← List.singleton_append (x := ':') (l := told), ← restEq,
    List.takeWhile_append_dropWhile, behindEq]
  rfl

namespace StartSplit

variable {body : List Char}

def behindFile (split : StartSplit body) : List Char :=
  ':' :: (split.digits ++ ':' :: (split.gap ++ split.message))

theorem eq_append_behindFile (split : StartSplit body) :
    body = split.blanks ++ (split.file ++ split.behindFile) :=
  split.parts.trans (by simp [behindFile])

theorem stops_digits (split : StartSplit body) :
    ∀ c ∈ (':' :: (split.gap ++ split.message)).head?, isDecimalDigit c = false := by
  intro c head
  obtain rfl : ':' = c := by simpa using head
  decide

theorem behindBlanks_unique {left right : StartSplit body} (same : left.blanks = right.blanks) :
    left.file ++ left.behindFile = right.file ++ right.behindFile := by
  have parts := left.eq_append_behindFile.symm.trans right.eq_append_behindFile
  rw [same] at parts
  exact List.append_cancel_left parts

theorem behindFile_unique {left right : StartSplit body}
    (same : left.behindFile = right.behindFile) :
    left.digits = right.digits ∧ left.gap ++ left.message = right.gap ++ right.message := by
  rcases run_unique (List.cons.inj same).2 left.digitsDecimal left.stops_digits
    right.digitsDecimal right.stops_digits with ⟨sameDigits, sameRest⟩
  exact ⟨sameDigits, (List.cons.inj sameRest).2⟩

theorem Preferred.unique {left right : StartSplit body} (leftPreferred : left.Preferred)
    (rightPreferred : right.Preferred) : left = right := by
  have parts := left.eq_append_behindFile.symm.trans right.eq_append_behindFile
  have blanksLength : left.blanks.length = right.blanks.length :=
    Nat.le_antisymm (rightPreferred left).1 (leftPreferred right).1
  rcases List.append_inj parts blanksLength with ⟨sameBlanks, fileParts⟩
  have fileLength : left.file.length = right.file.length :=
    Nat.le_antisymm ((rightPreferred left).2 sameBlanks).1
      ((leftPreferred right).2 sameBlanks.symm).1
  rcases List.append_inj fileParts fileLength with ⟨sameFile, behind⟩
  rcases behindFile_unique behind with ⟨sameDigits, gapParts⟩
  have gapLength : left.gap.length = right.gap.length :=
    Nat.le_antisymm (((rightPreferred left).2 sameBlanks).2 sameFile)
      (((leftPreferred right).2 sameBlanks.symm).2 sameFile.symm)
  rcases List.append_inj gapParts gapLength with ⟨sameGap, sameMessage⟩
  cases left
  cases right
  simp only at sameBlanks sameFile sameDigits sameGap sameMessage
  subst sameBlanks sameFile sameDigits sameGap sameMessage
  rfl

theorem exists_stem (split : StartSplit body) :
    ∃ stem extension, IsExtension extension ∧ split.file = stem ++ extension ∧ '\n' ∉ stem ∧
      locate? (extension ++ split.behindFile) =
        some (extension, split.digits, split.message.dropWhile isBlank) := by
  rcases split.fileExtension with ⟨extension, isExtension, stem, parts⟩
  have stemOneLine : '\n' ∉ stem := fun member =>
    split.fileOneLine (parts ▸ List.mem_append_left extension member)
  exact ⟨stem, extension, isExtension, parts.symm, stemOneLine,
    locate?_append isExtension split.digitsNonempty split.digitsDecimal split.gapBlank
      split.messageOneLine⟩

theorem exists_startParts? (split : StartSplit body) : ∃ told, startParts? body = some told := by
  rcases split.exists_stem with ⟨stem, extension, isExtension, fileParts, oneLine, located⟩
  have stops : ∀ c ∈ (extension ++ split.behindFile).head?, isBlank c = false := by
    intro c head
    rw [List.head?_append, isExtension.head?_eq] at head
    obtain rfl : '.' = c := by simpa using head
    decide
  -- White space in front of the file is taken away with the blanks, up to the extension at most.
  have solid : body.dropWhile isBlank =
      stem.dropWhile isBlank ++ (extension ++ split.behindFile) := by
    calc body.dropWhile isBlank
        = (split.blanks ++ (split.file ++ split.behindFile)).dropWhile isBlank :=
          congrArg _ split.eq_append_behindFile
      _ = (stem ++ (extension ++ split.behindFile)).dropWhile isBlank := by
          rw [List.dropWhile_append_of_pos split.blanksBlank, fileParts, List.append_assoc]
      _ = stem.dropWhile isBlank ++ (extension ++ split.behindFile) := by
          rw [List.dropWhile_append]
          split
          next gone => rw [dropWhile_eq_self stops, List.isEmpty_iff.mp gone, List.nil_append]
          next => rfl
  rcases cutAtLast?_append (notMem_dropWhile oneLine) located with ⟨longest, last, cut, _⟩
  exact ⟨_, by rw [startParts?, solid, cut]; rfl⟩

theorem length_blanks_le (other : StartSplit body) :
    other.blanks.length ≤ (body.takeWhile isBlank).length := by
  have longest := length_le_length_takeWhile (other.file ++ other.behindFile) other.blanksBlank
  rwa [← other.eq_append_behindFile] at longest

/-- A file name ends where the reader accepts the rest, so not behind the last such place. -/
theorem length_file_le {split other : StartSplit body} {stem extension digits message : List Char}
    (isExtension : IsExtension extension) (fileParts : split.file = stem ++ extension)
    (cut : cutAtLast? locate? (split.file ++ split.behindFile) =
      some (stem, extension, digits, message))
    (located : locate? (extension ++ split.behindFile) = some (extension, digits, message))
    (sameBlanks : other.blanks = split.blanks) : other.file.length ≤ split.file.length := by
  rcases other.exists_stem with
    ⟨otherStem, otherExtension, otherIs, otherParts, otherOneLine, otherLocated⟩
  have same := behindBlanks_unique sameBlanks
  rcases cutAtLast?_append otherOneLine otherLocated with ⟨longest, last, otherCut, longer⟩
  rw [← List.append_assoc, ← otherParts, same, cut] at otherCut
  rcases Prod.mk.inj (Option.some.inj otherCut) with ⟨rfl, _⟩
  rw [otherParts, fileParts, List.append_assoc, List.append_assoc] at same
  rw [otherParts, fileParts, List.length_append, List.length_append]
  rcases Nat.lt_or_eq_of_le longer with shorter | sameLength
  · have := isExtension.length_bounds
    have := otherIs.length_bounds
    omega
  · rcases List.append_inj same sameLength with ⟨_, sameRest⟩
    rw [sameRest, located] at otherLocated
    have sameExtension := (Prod.mk.inj (Option.some.inj otherLocated)).1
    exact Nat.le_of_eq (by rw [sameLength, sameExtension])

theorem length_gap_le {split other : StartSplit body}
    (messageSolid : ∀ c ∈ split.message.head?, isBlank c = false)
    (sameBlanks : other.blanks = split.blanks) (sameFile : other.file = split.file) :
    other.gap.length ≤ split.gap.length := by
  have behind : other.behindFile = split.behindFile := by
    have same := behindBlanks_unique sameBlanks
    rw [sameFile] at same
    exact List.append_cancel_left same
  have longest := length_le_length_takeWhile other.message other.gapBlank
  have taken : (split.gap ++ split.message).takeWhile isBlank = split.gap :=
    takeWhile_run split.gapBlank messageSolid
  rwa [(behindFile_unique behind).2, taken] at longest

end StartSplit

theorem exists_preferred {body file digits message : List Char}
    (found : startParts? body = some (file, digits, message)) :
    ∃ split : StartSplit body, split.Preferred ∧ split.file = file ∧ split.digits = digits ∧
      split.message = message := by
  simp only [startParts?, Option.map_eq_some_iff, Prod.exists, Prod.mk.injEq] at found
  rcases found with ⟨stem, extension, digits, message, cut, rfl, rfl, rfl⟩
  rcases eq_of_cutAtLast? cut with ⟨rest, solid, stemOneLine, located⟩
  rcases eq_of_locate? located with
    ⟨isExtension, nonempty, decimal, messageOneLine, gap, rfl, gapBlank, messageSolid⟩
  have extensionOneLine : '\n' ∉ extension := by
    rcases isExtension with rfl | rfl <;> decide
  have parts : body = body.takeWhile isBlank ++ (stem ++ (extension ++
      ':' :: (digits ++ ':' :: (gap ++ message)))) := by
    rw [← solid, List.takeWhile_append_dropWhile]
  let split : StartSplit body := {
    blanks := body.takeWhile isBlank
    file := stem ++ extension
    digits := digits
    gap := gap
    message := message
    parts := parts.trans (by simp)
    blanksBlank := fun c member => mem_of_mem_takeWhile member
    fileOneLine := by simp [stemOneLine, extensionOneLine]
    fileExtension := ⟨extension, isExtension, List.suffix_append stem extension⟩
    digitsNonempty := nonempty
    digitsDecimal := decimal
    gapBlank := gapBlank
    messageOneLine := messageOneLine }
  have cutBehind : cutAtLast? locate? (split.file ++ split.behindFile) =
      some (stem, extension, digits, message) := by
    rw [solid, ← List.append_assoc] at cut
    exact cut
  refine ⟨split, fun other => ⟨other.length_blanks_le, fun sameBlanks =>
    ⟨StartSplit.length_file_le isExtension rfl cutBehind located sameBlanks, fun sameFile =>
      StartSplit.length_gap_le messageSolid sameBlanks sameFile⟩⟩, rfl, rfl, rfl⟩

theorem isKeyChar_iff {c : Char} : isKeyChar c ↔ c = ' ' ∨ 'a' ≤ c ∧ c ≤ 'z' := by
  simp [isKeyChar]

theorem keyWord_iff {key : List Char} :
    ((key.dropWhile isBlank).all isKeyChar ∧ key.getLast?.any isKeyChar) ↔
      ∃ blanks word, key = blanks ++ word ∧ (∀ c ∈ blanks, isBlank c) ∧ word ≠ [] ∧
        ∀ c ∈ word, c = ' ' ∨ 'a' ≤ c ∧ c ≤ 'z' := by
  simp only [← isKeyChar_iff, List.all_eq_true]
  constructor
  · intro spelled
    rcases spelled with ⟨inside, last⟩
    rcases List.eq_nil_or_concat key with rfl | ⟨front, c, rfl⟩
    · simp at last
    · rw [List.concat_eq_append] at inside last ⊢
      have lastKey : isKeyChar c := by simpa using last
      have blank : ∀ d ∈ (front ++ [c]).takeWhile isBlank, isBlank d :=
        fun d member => mem_of_mem_takeWhile member
      by_cases gone : (front ++ [c]).dropWhile isBlank = []
      · -- The key is all white space, and its last character, a space, can be taken for the word.
        have whole := List.takeWhile_append_dropWhile (p := isBlank) (l := front ++ [c])
        rw [gone, List.append_nil] at whole
        rw [whole] at blank
        refine ⟨front, [c], rfl, fun d member => blank d (List.mem_append_left _ member), by simp,
          by simpa using lastKey⟩
      · exact ⟨_, _, List.takeWhile_append_dropWhile.symm, blank, gone, inside⟩
  · intro spelled
    rcases spelled with ⟨blanks, word, rfl, blank, nonempty, keyed⟩
    constructor
    · rw [List.dropWhile_append_of_pos blank]
      exact fun c member => keyed c ((List.dropWhile_subset _) member)
    · rcases List.eq_nil_or_concat word with rfl | ⟨front, c, rfl⟩
      · exact absurd rfl nonempty
      · simpa using keyed c (by simp)

theorem info?_eq_some_iff {body : List Char} {line : Line} :
    info? body = some line ↔ ∃ key detail, InfoSplit body key detail ∧
      line = .info (String.ofList (trim key)) (String.ofList (trim detail)) := by
  rw [info?]
  constructor
  · intro told
    split at told
    next => cases told
    next key detail cut =>
      rw [cutAtFirst?_eq_some_iff] at cut
      simp only [Option.ite_none_right_eq_some, Option.some.injEq] at told
      rcases told with ⟨⟨inside, last, oneLine⟩, rfl⟩
      exact ⟨key, detail, ⟨cut.parts, cut.notMem, oneLine, keyWord_iff.mp ⟨inside, last⟩⟩, rfl⟩
  · intro parted
    rcases parted with ⟨key, detail, split, rfl⟩
    have first := FirstAt.of_notMem split.noColon [] detail
    rw [← split.parts, ← cutAtFirst?_eq_some_iff] at first
    rw [first]
    have keyed := keyWord_iff.mpr split.word
    exact if_pos ⟨keyed.1, keyed.2, split.oneLine⟩

theorem pointer?_eq_some_iff {body : List Char} {line : Line} :
    pointer? body = some line ↔ ∃ blanks, PointerSplit body blanks ∧
      line = .pointer (byteWidth blanks) := by
  rw [pointer?]
  constructor
  · intro told
    split at told
    next => cases told
    next rest caret =>
      simp only [Option.ite_none_right_eq_some, Option.some.injEq, List.all_eq_true] at told
      rcases told with ⟨restBlank, rfl⟩
      refine ⟨body.takeWhile isBlank, ⟨rest, ?_, fun c member => mem_of_mem_takeWhile member,
        restBlank⟩, rfl⟩
      rw [List.append_assoc, ← after?_eq_some_iff.mp caret, List.takeWhile_append_dropWhile]
  · intro parted
    rcases parted with ⟨blanks, ⟨rest, rfl, blank, restBlank⟩, rfl⟩
    have stops : ∀ c ∈ (['^'] ++ rest).head?, isBlank c = false := by
      intro c head
      obtain rfl : '^' = c := by simpa using head
      decide
    rw [List.append_assoc, dropWhile_run blank stops, takeWhile_run blank stops,
      after?_eq_some_iff.mpr rfl]
    exact if_pos (List.all_eq_true.mpr restBlank)

/-- The white space around a caret has no colon, which the other shapes need. -/
theorem PointerSplit.noColon {body blanks : List Char} (split : PointerSplit body blanks) :
    ':' ∉ body := by
  rcases split with ⟨rest, rfl, blank, restBlank⟩
  intro colon
  rcases List.mem_append.mp colon with front | back
  · rcases List.mem_append.mp front with member | member
    · exact absurd (blank ':' member) (by decide)
    · exact absurd member (by decide)
  · exact absurd (restBlank ':' back) (by decide)

theorem StartSplit.colon_mem {body : List Char} (split : StartSplit body) : ':' ∈ body := by
  rw [split.parts]
  simp

theorem InfoSplit.colon_mem {body key detail : List Char} (split : InfoSplit body key detail) :
    ':' ∈ body := by
  rw [split.parts]
  simp

theorem startParts?_of_preferred {body : List Char} {split : StartSplit body}
    (preferred : split.Preferred) :
    startParts? body = some (split.file, split.digits, split.message) := by
  rcases split.exists_startParts? with ⟨⟨file, digits, message⟩, found⟩
  rcases exists_preferred found with ⟨other, otherPreferred, rfl, rfl, rfl⟩
  rw [found, preferred.unique otherPreferred]

theorem startParts?_eq_none_iff {body : List Char} :
    startParts? body = none ↔ ¬ Nonempty (StartSplit body) := by
  constructor
  · intro missing start
    rcases start with ⟨split⟩
    rcases split.exists_startParts? with ⟨told, found⟩
    cases missing.symm.trans found
  · intro noStart
    rw [Option.eq_none_iff_forall_not_mem]
    intro told found
    rcases told with ⟨file, digits, message⟩
    rcases exists_preferred found with ⟨split, _⟩
    exact noStart ⟨split⟩

theorem info?_eq_none_iff {body : List Char} :
    info? body = none ↔ ∀ key detail, ¬ InfoSplit body key detail := by
  constructor
  · intro missing key detail split
    cases missing.symm.trans (info?_eq_some_iff.mpr ⟨key, detail, split, rfl⟩)
  · intro noInfo
    rw [Option.eq_none_iff_forall_not_mem]
    intro line told
    rcases info?_eq_some_iff.mp told with ⟨key, detail, split, _⟩
    exact noInfo key detail split

theorem pointer?_eq_none_iff {body : List Char} :
    pointer? body = none ↔ ∀ blanks, ¬ PointerSplit body blanks := by
  constructor
  · intro missing blanks split
    cases missing.symm.trans (pointer?_eq_some_iff.mpr ⟨blanks, split, rfl⟩)
  · intro noPointer
    rw [Option.eq_none_iff_forall_not_mem]
    intro line told
    rcases pointer?_eq_some_iff.mp told with ⟨blanks, split, _⟩
    exact noPointer blanks split

section ofText?

variable {raw body : List Char}

theorem ofText?_of_start (tagged : withoutColour raw = errorTag ++ body) {split : StartSplit body}
    (preferred : split.Preferred) :
    ofText? raw = (numeral32? split.digits).map fun number =>
      .start (String.ofList split.file) number (String.ofList split.message) := by
  have behindTag : body? raw = some body := after?_eq_some_iff.mpr tagged
  rw [ofText?, behindTag, Option.bind_some, startParts?_of_preferred preferred]

theorem ofText?_of_noStart (tagged : withoutColour raw = errorTag ++ body)
    (noStart : ¬ Nonempty (StartSplit body)) :
    ofText? raw = (info? body).or (pointer? body) := by
  have behindTag : body? raw = some body := after?_eq_some_iff.mpr tagged
  rw [ofText?, behindTag, Option.bind_some, startParts?_eq_none_iff.mpr noStart]

theorem tells_ofText? (raw : List Char) : Tells (withoutColour raw) (ofText? raw) := by
  cases tagged : body? raw with
  | none =>
      rw [ofText?, tagged]
      apply Tells.nothing
      intro body parts
      rw [body?, parts] at tagged
      cases tagged.symm.trans (after?_eq_some_iff.mpr rfl)
  | some body =>
      have parts : withoutColour raw = errorTag ++ body := after?_eq_some_iff.mp tagged
      by_cases start : Nonempty (StartSplit body)
      · rcases start with ⟨anySplit⟩
        -- What is read is the preferred way to part the text, which may be another one.
        rcases anySplit.exists_startParts? with ⟨_, found⟩
        rcases exists_preferred found with ⟨split, preferred, _⟩
        rw [ofText?_of_start parts preferred, parts]
        cases number : numeral32? split.digits with
        | none =>
            apply Tells.unreadable split preferred
            intro word spells
            cases number.symm.trans ((numeral32?_of_decimalDigits split.digitsDecimal).mpr spells)
        | some word =>
            exact .start split preferred word
              ((numeral32?_of_decimalDigits split.digitsDecimal).mp number)
      · rw [ofText?_of_noStart parts start, parts]
        cases info : info? body with
        | some line =>
            rcases info?_eq_some_iff.mp info with ⟨key, detail, split, rfl⟩
            exact .info start split
        | none =>
            have noInfo := info?_eq_none_iff.mp info
            cases pointer : pointer? body with
            | some line =>
                rcases pointer?_eq_some_iff.mp pointer with ⟨blanks, split, rfl⟩
                exact .pointer start noInfo split
            | none =>
                apply Tells.nothing
                intro other same
                cases List.append_cancel_left same
                exact ⟨start, noInfo, pointer?_eq_none_iff.mp pointer⟩

theorem ofText?_of_tells {told : Option Line} (tells : Tells (withoutColour raw) told) :
    ofText? raw = told := by
  generalize plain : withoutColour raw = text at tells
  cases tells with
  | start split preferred number spells =>
      rw [ofText?_of_start plain preferred,
        (numeral32?_of_decimalDigits split.digitsDecimal).mpr spells]
      rfl
  | unreadable split preferred unfit =>
      have unread : numeral32? split.digits = none := by
        rw [Option.eq_none_iff_forall_not_mem]
        intro word read
        exact unfit word ((numeral32?_of_decimalDigits split.digitsDecimal).mp read)
      rw [ofText?_of_start plain preferred, unread]
      rfl
  | info noStart split =>
      rw [ofText?_of_noStart plain noStart, info?_eq_some_iff.mpr ⟨_, _, split, rfl⟩]
      rfl
  | pointer noStart noInfo split =>
      rw [ofText?_of_noStart plain noStart, info?_eq_none_iff.mpr noInfo,
        pointer?_eq_some_iff.mpr ⟨_, split, rfl⟩]
      rfl
  | nothing unlike =>
      cases tagged : body? raw with
      | none => rw [ofText?, tagged]; rfl
      | some body =>
          have parts : withoutColour raw = errorTag ++ body := after?_eq_some_iff.mp tagged
          rcases unlike body (plain.symm.trans parts) with ⟨noStart, noInfo, noPointer⟩
          rw [ofText?_of_noStart parts noStart, info?_eq_none_iff.mpr noInfo,
            pointer?_eq_none_iff.mpr noPointer]
          rfl

end ofText?

/-- A line is read as the grammar tells it from the text without its colours. The shape of a
caret is never that of a detail or of a start, so the order of the shapes matters only between the
latter two. -/
theorem ofString?_eq_iff_tells (raw : String) (told : Option Line) :
    (ofString? raw = told ↔ ∃ text, Colourless raw.toList text ∧ Tells text told) ∧
      ∀ body blanks, PointerSplit body blanks →
        (∀ key detail, ¬ InfoSplit body key detail) ∧ ¬ Nonempty (StartSplit body) := by
  refine ⟨?_, fun body blanks pointer => ⟨fun key detail info => pointer.noColon info.colon_mem,
    fun start => start.elim fun split => pointer.noColon split.colon_mem⟩⟩
  constructor
  · rintro rfl
    exact ⟨withoutColour raw.toList, colourless_iff.mpr rfl, tells_ofText? raw.toList⟩
  · intro read
    rcases read with ⟨text, colourless, tells⟩
    cases colourless_iff.mp colourless
    exact ofText?_of_tells tells

end ReloadReport.Log.Line
