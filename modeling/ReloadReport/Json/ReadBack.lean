import ReloadReport.Json.Limits
import ReloadReport.Json.Writer

/-!
# Reading back what was written

The text of a value, on one line or on many, spells the value. The machine that finds the tokens
is followed through the text piece by piece, with any text after it.
-/

namespace ReloadReport.Json

namespace Token

def prepend (tokens : List Token) (more : Option (List Token)) : Option (List Token) :=
  more.map (tokens ++ ·)

theorem prepend_prepend (first second : List Token) (more : Option (List Token)) :
    prepend first (prepend second more) = prepend (first ++ second) more := by
  cases more <;> simp [prepend]

theorem scan?_cons_of_silent {mode next : Mode} {c : Char} (step : step? mode c = some ([], next))
    (rest : List Char) : scan? mode (c :: rest) = scan? next rest := by
  cases more : scan? next rest <;> simp [scan?, step, more]

theorem scan?_cons_of_punctuation {c : Char} {token : Token}
    (begins : beginWith? c = some ([token], .between)) (rest : List Char) :
    scan? .between (c :: rest) = prepend [token] (scan? .between rest) := by
  cases more : scan? .between rest <;> simp [scan?, step?, begins, more, prepend]

/-! ## Words -/

def EndsWord (rest : List Char) : Prop :=
  ∀ c ∈ rest.head?, isWordChar c = false

theorem scan?_word_append {word : List Char} (wordChars : ∀ c ∈ word, isWordChar c = true)
    (read rest : List Char) :
    scan? (.word read) (word ++ rest) = scan? (.word (word.reverse ++ read)) rest := by
  induction word generalizing read with
  | nil => rfl
  | cons c word induction =>
      have step : step? (.word read) c = some ([], .word (c :: read)) := by
        simp [step?, wordChars c List.mem_cons_self]
      rw [List.cons_append, scan?_cons_of_silent step,
        induction fun c member => wordChars c (List.mem_cons_of_mem _ member)]
      simp

theorem scan?_word_of_endsWord {read rest : List Char} {token : Token}
    (meaning : ofWord? read.reverse = some token) (ends : EndsWord rest) :
    scan? (.word read) rest = prepend [token] (scan? .between rest) := by
  cases rest with
  | nil => simp [scan?, finish?, meaning, prepend]
  | cons c rest =>
      have notWordChar : isWordChar c = false := ends c rfl
      cases begins : beginWith? c with
      | none => simp [scan?, step?, notWordChar, meaning, begins, prepend]
      | some next =>
          obtain ⟨tokens, mode⟩ := next
          cases more : scan? mode rest <;>
            simp [scan?, step?, notWordChar, meaning, begins, more, prepend]

theorem not_isSpace_of_isWordChar {c : Char} (wordChar : isWordChar c = true) :
    isSpace c = false := by
  cases space : isSpace c with
  | false => rfl
  | true =>
      simp only [isSpace, Bool.or_eq_true, beq_iff_eq] at space
      rcases space with ((rfl | rfl) | rfl) | rfl <;> exact absurd wordChar (by decide)

theorem scan?_between_append {word : List Char} (notEmpty : word ≠ [])
    (wordChars : ∀ c ∈ word, isWordChar c = true) (rest : List Char) :
    scan? .between (word ++ rest) = scan? (.word word.reverse) rest := by
  cases word with
  | nil => exact absurd rfl notEmpty
  | cons c word =>
      have wordChar := wordChars c List.mem_cons_self
      have notSpace := not_isSpace_of_isWordChar wordChar
      have notQuote : c ≠ '"' := by
        rintro rfl
        exact absurd wordChar (by decide)
      have step : step? .between c = some ([], .word [c]) := by
        simp [step?, beginWith?, notSpace, notQuote, wordChar]
      rw [List.cons_append, scan?_cons_of_silent step,
        scan?_word_append (fun c member => wordChars c (List.mem_cons_of_mem _ member)),
        List.reverse_cons]

theorem scan?_between_word {word rest : List Char} {token : Token} (notEmpty : word ≠ [])
    (wordChars : ∀ c ∈ word, isWordChar c = true) (meaning : ofWord? word = some token)
    (ends : EndsWord rest) :
    scan? .between (word ++ rest) = prepend [token] (scan? .between rest) := by
  rw [← word.reverse_reverse] at meaning
  rw [scan?_between_append notEmpty wordChars, scan?_word_of_endsWord meaning ends]

/-! ## Natural numbers -/

theorem isWordChar_of_isDigit {c : Char} (digit : c.isDigit = true) : isWordChar c = true := by
  simp [isWordChar, Char.isAlphanum, digit]

theorem head?_toDigits {n : Nat} (positive : 0 < n) : (Nat.toDigits 10 n).head? ≠ some '0' := by
  induction n using Nat.strongRecOn with
  | ind n induction =>
      rw [Nat.toDigits_eq_if (by decide)]
      split
      next small =>
        simp only [List.head?_cons, ne_eq, Option.some.injEq, Nat.digitChar_eq_zero]
        omega
      next large =>
        have shorter := induction (n / 10) (by omega) (by omega)
        cases digits : Nat.toDigits 10 (n / 10) with
        | nil => exact absurd digits Nat.toDigits_ne_nil
        | cons c more => simpa [digits] using shorter

theorem isWhole_toDigits (n : Nat) : isWhole (Nat.toDigits 10 n) = true := by
  have digits : ∀ c ∈ Nat.toDigits 10 n, c.isDigit = true := fun c member =>
    Nat.isDigit_of_mem_toDigits (by decide) (by decide) member
  cases n with
  | zero => decide
  | succ n =>
      have leading := head?_toDigits (Nat.succ_pos n)
      simp [isWhole, Nat.toDigits_ne_nil, leading]
      exact digits

theorem ofWord?_toDigits (n : Nat) : ofWord? (Nat.toDigits 10 n) = some (.natural n) := by
  have digits : ∀ c ∈ Nat.toDigits 10 n, c.isDigit = true := fun c member =>
    Nat.isDigit_of_mem_toDigits (by decide) (by decide) member
  have different : ∀ {c : Char} {word : List Char}, c.isDigit = false →
      Nat.toDigits 10 n ≠ c :: word := by
    intro c word notDigit equal
    have digit := digits c (equal ▸ List.mem_cons_self)
    rw [notDigit] at digit
    exact Bool.noConfusion digit
  rw [ofWord?, if_neg (different rfl), if_neg (different rfl), if_neg (different rfl),
    if_pos (isWhole_toDigits n), Nat.ofDigitChars_ten_toDigits]

/-! ## Strings -/

theorem hexDigit?_hexDigit (value : Nat) (small : value < 16) :
    hexDigit? (hexDigit value) = some value := by
  have all : ∀ value < 16, hexDigit? (hexDigit value) = some value := by decide
  exact all value small

theorem scan?_text_writeChar (c : Char) (read rest : List Char) :
    scan? (.text read) (writeChar c ++ rest) = scan? (.text (c :: read)) rest := by
  have escape : ∀ {mark meant : Char}, mark ≠ 'u' → ofEscape? mark = some meant →
      scan? (.text read) (['\\', mark] ++ rest) = scan? (.text (meant :: read)) rest := by
    intro mark meant notUnit meaning
    have opens : step? (.text read) '\\' = some ([], .escape read) := rfl
    have closes : step? (.escape read) mark = some ([], .text (meant :: read)) := by
      simp [step?, notUnit, meaning]
    rw [List.cons_append, scan?_cons_of_silent opens, List.singleton_append,
      scan?_cons_of_silent closes]
  rw [writeChar]
  split
  next equal =>
    subst equal
    exact escape (by decide) rfl
  split
  next equal =>
    subst equal
    exact escape (by decide) rfl
  split
  next equal =>
    subst equal
    exact escape (by decide) rfl
  split
  next equal =>
    subst equal
    exact escape (by decide) rfl
  split
  next equal =>
    subst equal
    exact escape (by decide) rfl
  split
  next equal =>
    subst equal
    exact escape (by decide) rfl
  split
  next equal =>
    subst equal
    exact escape (by decide) rfl
  split
  next control =>
    have high := hexDigit?_hexDigit (c.toNat / 16) (by omega)
    have low := hexDigit?_hexDigit (c.toNat % 16) (by omega)
    have notHigh : isHighSurrogate c.toNat = false := by
      simp [isHighSurrogate]
      omega
    have notLow : isLowSurrogate c.toNat = false := by
      simp [isLowSurrogate]
      omega
    have unit : afterUnit read none c.toNat = .text (c :: read) := by
      simp [afterUnit, notHigh, notLow, Char.ofNat_toNat]
    have opens : step? (.text read) '\\' = some ([], .escape read) := rfl
    have marks : step? (.escape read) 'u' = some ([], .unit read none 0 0) := rfl
    have first : step? (.unit read none 0 0) '0' = some ([], .unit read none 1 0) := rfl
    have second : step? (.unit read none 1 0) '0' = some ([], .unit read none 2 0) := rfl
    have third : step? (.unit read none 2 0) (hexDigit (c.toNat / 16)) =
        some ([], .unit read none 3 (c.toNat / 16)) := by
      simp [step?, high]
    have fourth : step? (.unit read none 3 (c.toNat / 16)) (hexDigit (c.toNat % 16)) =
        some ([], .text (c :: read)) := by
      have whole : 16 * (c.toNat / 16) + c.toNat % 16 = c.toNat := by omega
      simp [step?, low, whole, unit]
    simp only [List.cons_append, List.nil_append]
    rw [scan?_cons_of_silent opens, scan?_cons_of_silent marks, scan?_cons_of_silent first,
      scan?_cons_of_silent second, scan?_cons_of_silent third, scan?_cons_of_silent fourth]
  next plain =>
    have step : step? (.text read) c = some ([], .text (c :: read)) := by
      simp_all [step?]
    rw [List.singleton_append, scan?_cons_of_silent step]

theorem scan?_text_flatMap (text read rest : List Char) :
    scan? (.text read) (text.flatMap writeChar ++ rest) =
      scan? (.text (text.reverse ++ read)) rest := by
  induction text generalizing read with
  | nil => rfl
  | cons c text induction =>
      rw [List.flatMap_cons, List.append_assoc, scan?_text_writeChar, induction]
      simp

theorem scan?_writeString (text : String) (rest : List Char) :
    scan? .between (writeString text ++ rest) =
      prepend [.string text] (scan? .between rest) := by
  have opens : step? .between '"' = some ([], .text []) := rfl
  have closes : step? (.text text.toList.reverse) '"' = some ([.string text], .between) := by
    simp [step?, String.ofList_toList]
  rw [writeString, List.cons_append, scan?_cons_of_silent opens, List.append_assoc,
    scan?_text_flatMap, List.append_nil, List.singleton_append]
  cases more : scan? .between rest <;> simp [scan?, closes, more, prepend]

theorem scan?_garbled (rest : List Char) :
    scan? .between (['"', '\\', 'u', 'd', '8', '0', '0', '"'] ++ rest) =
      prepend [.garbled] (scan? .between rest) := by
  have opens : step? .between '"' = some ([], .text []) := rfl
  have escapes : step? (.text []) '\\' = some ([], .escape []) := rfl
  have marks : step? (.escape []) 'u' = some ([], .unit [] none 0 0) := rfl
  have first : step? (.unit [] none 0 0) 'd' = some ([], .unit [] none 1 0xD) := rfl
  have second : step? (.unit [] none 1 0xD) '8' = some ([], .unit [] none 2 0xD8) := rfl
  have third : step? (.unit [] none 2 0xD8) '0' = some ([], .unit [] none 3 0xD80) := rfl
  have fourth : step? (.unit [] none 3 0xD80) '0' = some ([], .half [] 0xD800) := rfl
  have closes : step? (.half [] 0xD800) '"' = some ([.garbled], .between) := rfl
  simp only [List.cons_append, List.nil_append]
  rw [scan?_cons_of_silent opens, scan?_cons_of_silent escapes, scan?_cons_of_silent marks,
    scan?_cons_of_silent first, scan?_cons_of_silent second, scan?_cons_of_silent third,
    scan?_cons_of_silent fourth]
  cases more : scan? .between rest <;> simp [scan?, closes, more, prepend]

end Token

/-! ## Values -/

mutual

/-- A value is well spelled if its numbers that are no natural numbers are written as such. -/
def WellSpelled : Json → Prop
  | .real literal => literal ≠ "" ∧ (∀ c ∈ literal.toList, Token.isWordChar c = true) ∧
      Token.ofWord? literal.toList = some (.real literal)
  | .array items => AllWellSpelled items
  | .object members => MembersWellSpelled members
  | _ => True

def AllWellSpelled : List Json → Prop
  | [] => True
  | item :: items => WellSpelled item ∧ AllWellSpelled items

def MembersWellSpelled : List (String × Json) → Prop
  | [] => True
  | member :: members => MemberWellSpelled member ∧ MembersWellSpelled members

def MemberWellSpelled : String × Json → Prop
  | (_, value) => WellSpelled value

end

open Token

theorem scan?_space {c : Char} (space : isSpace c = true) (rest : List Char) :
    scan? .between (c :: rest) = scan? .between rest :=
  scan?_cons_of_silent (by simp [step?, beginWith?, space]) rest

theorem scan?_lineBreak (depth : Option Nat) (rest : List Char) :
    scan? .between (lineBreak depth ++ rest) = scan? .between rest := by
  have spaces : ∀ count : Nat,
      scan? .between (List.replicate count ' ' ++ rest) = scan? .between rest := by
    intro count
    induction count with
    | zero => rfl
    | succ count induction =>
        rw [List.replicate_succ, List.cons_append, scan?_space rfl, induction]
  cases depth with
  | none => rfl
  | some depth => rw [lineBreak, List.cons_append, scan?_space rfl, spaces]

theorem scan?_afterName (depth : Option Nat) (rest : List Char) :
    scan? .between (afterName depth ++ rest) = prepend [.colon] (scan? .between rest) := by
  cases depth with
  | none => exact scan?_cons_of_punctuation rfl rest
  | some depth =>
      rw [afterName, List.cons_append, scan?_cons_of_punctuation rfl, List.singleton_append,
        scan?_space rfl]

theorem endsWord_cons {c : Char} (notWordChar : isWordChar c = false) (rest : List Char) :
    EndsWord (c :: rest) := by
  intro first member
  obtain rfl : c = first := by simpa using member
  exact notWordChar

theorem endsWord_lineBreak (depth : Option Nat) {c : Char} (notWordChar : isWordChar c = false)
    (rest : List Char) : EndsWord (lineBreak depth ++ c :: rest) := by
  cases depth with
  | none => exact endsWord_cons notWordChar rest
  | some depth => exact endsWord_cons rfl _

mutual

theorem scan?_write (depth : Option Nat) (value : Json) :
    WellSpelled value → ∀ rest, EndsWord rest →
      scan? .between (write depth value ++ rest) =
        prepend value.tokens (scan? .between rest) := by
  cases value with
  | null =>
      intro _ rest ends
      rw [write]
      exact scan?_between_word (by simp) (List.all_eq_true.mp (by decide)) rfl ends
  | bool value =>
      intro _ rest ends
      cases value with
      | false =>
          rw [write]
          exact scan?_between_word (by simp) (List.all_eq_true.mp (by decide)) rfl ends
      | true =>
          rw [write]
          exact scan?_between_word (by simp) (List.all_eq_true.mp (by decide)) rfl ends
  | natural value =>
      intro _ rest ends
      rw [write]
      exact scan?_between_word Nat.toDigits_ne_nil
        (fun c member => isWordChar_of_isDigit
          (Nat.isDigit_of_mem_toDigits (by decide) (by decide) member))
        (ofWord?_toDigits value) ends
  | real literal =>
      intro wellSpelled rest ends
      obtain ⟨notEmpty, wordChars, meaning⟩ := wellSpelled
      rw [write]
      exact scan?_between_word (by simpa using notEmpty) wordChars meaning ends
  | string text =>
      intro _ rest _
      exact scan?_writeString text rest
  | illegible =>
      intro _ rest _
      exact scan?_garbled rest
  | array items =>
      intro wellSpelled rest _
      cases items with
      | nil =>
          rw [write, List.cons_append, scan?_cons_of_punctuation rfl, List.singleton_append,
            scan?_cons_of_punctuation rfl, prepend_prepend]
          rfl
      | cons item items =>
          have inner := scan?_writeItems (deeper depth) item items wellSpelled
            (lineBreak depth ++ ']' :: rest) (endsWord_lineBreak depth rfl rest)
          rw [write, List.cons_append, scan?_cons_of_punctuation rfl, List.append_assoc,
            List.append_assoc, List.singleton_append, inner, scan?_lineBreak,
            scan?_cons_of_punctuation rfl, prepend_prepend, prepend_prepend]
          simp [tokens]
  | object members =>
      intro wellSpelled rest _
      cases members with
      | nil =>
          rw [write, List.cons_append, scan?_cons_of_punctuation rfl, List.singleton_append,
            scan?_cons_of_punctuation rfl, prepend_prepend]
          rfl
      | cons member members =>
          have inner := scan?_writeMembers (deeper depth) member members wellSpelled
            (lineBreak depth ++ '\x7d' :: rest) (endsWord_lineBreak depth rfl rest)
          rw [write, List.cons_append, scan?_cons_of_punctuation rfl, List.append_assoc,
            List.append_assoc, List.singleton_append, inner, scan?_lineBreak,
            scan?_cons_of_punctuation rfl, prepend_prepend, prepend_prepend]
          simp [tokens]
termination_by sizeOf value

theorem scan?_writeItems (depth : Option Nat) (item : Json) (items : List Json) :
    AllWellSpelled (item :: items) → ∀ rest, EndsWord rest →
      scan? .between (writeItems depth (item :: items) ++ rest) =
        prepend (itemTokens (item :: items)) (scan? .between rest) := by
  intro wellSpelled rest ends
  obtain ⟨itemWellSpelled, itemsWellSpelled⟩ := wellSpelled
  have complete := scan?_write depth item itemWellSpelled
  cases items with
  | nil =>
      rw [writeItems, List.append_assoc, scan?_lineBreak, complete rest ends]
      rfl
  | cons next items =>
      have following := scan?_writeItems depth next items itemsWellSpelled rest ends
      rw [writeItems, List.append_assoc, List.append_assoc, scan?_lineBreak, List.cons_append,
        complete _ (endsWord_cons rfl _), scan?_cons_of_punctuation rfl, following,
        prepend_prepend, prepend_prepend]
      simp [itemTokens]
termination_by sizeOf (item :: items)

theorem scan?_writeMembers (depth : Option Nat) (member : String × Json)
    (members : List (String × Json)) :
    MembersWellSpelled (member :: members) → ∀ rest, EndsWord rest →
      scan? .between (writeMembers depth (member :: members) ++ rest) =
        prepend (membersTokens (member :: members)) (scan? .between rest) := by
  intro wellSpelled rest ends
  obtain ⟨memberWellSpelled, membersWellSpelled⟩ := wellSpelled
  have complete := scan?_writeMember depth member memberWellSpelled
  cases members with
  | nil =>
      rw [writeMembers, List.append_assoc, scan?_lineBreak, complete rest ends]
      rfl
  | cons next members =>
      have following := scan?_writeMembers depth next members membersWellSpelled rest ends
      rw [writeMembers, List.append_assoc, List.append_assoc, scan?_lineBreak, List.cons_append,
        complete _ (endsWord_cons rfl _), scan?_cons_of_punctuation rfl, following,
        prepend_prepend, prepend_prepend]
      simp [membersTokens]
termination_by sizeOf (member :: members)

theorem scan?_writeMember (depth : Option Nat) (member : String × Json) :
    MemberWellSpelled member → ∀ rest, EndsWord rest →
      scan? .between (writeMember depth member ++ rest) =
        prepend (memberTokens member) (scan? .between rest) := by
  cases member with
  | mk name value =>
      intro wellSpelled rest ends
      have complete := scan?_write depth value wellSpelled rest ends
      rw [writeMember, List.append_assoc, List.append_assoc, scan?_writeString, scan?_afterName,
        complete, prepend_prepend, prepend_prepend]
      rfl
termination_by sizeOf member

end

/-- The text of a well-spelled value, on one line or on many, spells the value. -/
theorem ofText?_write (depth : Option Nat) {value : Json} (wellSpelled : WellSpelled value) :
    ofText? (write depth value) = some value := by
  have endsWord : EndsWord [] := fun c member => nomatch member
  have tokens := scan?_write depth value wellSpelled [] endsWord
  rw [List.append_nil] at tokens
  have complete := ofTokens?_tokens value
  simp [ofText?, Token.ofText?, tokens, scan?, finish?, prepend, complete]

theorem parse?_compact {value : Json} (wellSpelled : WellSpelled value)
    (within : limited maxDepth value = value) : parse? value.compact = some value := by
  simp [parse?, compact, ofText?_write none wellSpelled, within]

theorem parse?_pretty {value : Json} (wellSpelled : WellSpelled value)
    (within : limited maxDepth value = value) : parse? value.pretty = some value := by
  simp [parse?, pretty, ofText?_write (some 0) wellSpelled, within]

end ReloadReport.Json
