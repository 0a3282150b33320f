import ReloadReport.Json.Limits
import ReloadReport.Json.ReadBack

/-!
# White space between tokens

White space that is added between the tokens of a text changes nothing in what the text spells. The
tokens are marked off by a grammar of their own, which knows words, strings and punctuation but not
what they mean.
-/

namespace ReloadReport.Json

namespace Token

/-- What stands between the quotes of a string. A backslash takes the character behind it along. -/
inductive Quoted : List Char → Prop
  | nil : Quoted []
  | plain {c : Char} (noQuote : c ≠ '"') (noEscape : c ≠ '\\') (more : Quoted body) :
      Quoted (c :: body)
  | escaped {c : Char} (more : Quoted body) : Quoted ('\\' :: c :: body)

/-- A text with white space added between its tokens. -/
inductive Spaced : List Char → List Char → Prop
  | nil : Spaced [] []
  | added {c : Char} (space : isSpace c) (more : Spaced text spaced) : Spaced text (c :: spaced)
  | kept {c : Char} (space : isSpace c) (more : Spaced text spaced) :
      Spaced (c :: text) (c :: spaced)
  | punctuation {c : Char} (known : c ∈ ['[', ']', '\x7b', '\x7d', ',', ':'])
      (more : Spaced text spaced) : Spaced (c :: text) (c :: spaced)
  | string {body : List Char} (quoted : Quoted body) (more : Spaced text spaced) :
      Spaced ('"' :: body ++ '"' :: text) ('"' :: body ++ '"' :: spaced)
  | word {word : List Char} (notEmpty : word ≠ []) (wordChars : ∀ c ∈ word, isWordChar c)
      (ends : EndsWord text) (more : Spaced text spaced) : Spaced (word ++ text) (word ++ spaced)

/-! ## Strings -/

def Mode.InString : Mode → Prop
  | .text _ | .unit _ _ _ _ | .half _ _ | .garbled | .garbledUnit _ => True
  | _ => False

def Mode.Escaping : Mode → Prop
  | .escape _ | .halfEscape _ _ | .garbledEscape => True
  | _ => False

section strings

variable {mode : Mode} {c : Char} {body : List Char}

theorem inString_afterUnit (read : List Char) (high : Option Nat) (unit : Nat) :
    (afterUnit read high unit).InString := by
  unfold afterUnit
  split <;> split <;> first | trivial | split <;> trivial

theorem step?_plain (inString : mode.InString) (noQuote : c ≠ '"') (noEscape : c ≠ '\\') :
    step? mode c = none ∨ ∃ next, step? mode c = some ([], next) ∧ next.InString := by
  have garbled : stepGarbled? c = none ∨ ∃ next, stepGarbled? c = some ([], next) ∧
      next.InString := by
    by_cases control : c.toNat < 0x20
    · simp [stepGarbled?, noQuote, noEscape, control]
    · exact .inr ⟨.garbled, by simp [stepGarbled?, noQuote, noEscape, control], trivial⟩
  cases mode with
  | text read =>
      by_cases control : c.toNat < 0x20
      · simp [step?, noQuote, noEscape, control]
      · exact .inr ⟨.text (c :: read), by simp [step?, noQuote, noEscape, control], trivial⟩
  | unit read high count value =>
      cases digit : hexDigit? c with
      | none => simp [step?, digit]
      | some four =>
          by_cases more : count < 3
          · exact .inr ⟨.unit read high (count + 1) (16 * value + four),
              by simp [step?, digit, more], trivial⟩
          · exact .inr ⟨afterUnit read high (16 * value + four), by simp [step?, digit, more],
              inString_afterUnit _ _ _⟩
  | half read high => simpa [step?, noEscape] using garbled
  | garbled => exact garbled
  | garbledUnit count =>
      cases digit : hexDigit? c with
      | none => simp [step?, digit]
      | some four =>
          refine .inr ⟨if count < 3 then .garbledUnit (count + 1) else .garbled,
            by simp [step?, digit], ?_⟩
          split <;> trivial
  | between | word | escape | halfEscape | garbledEscape => exact inString.elim

theorem step?_backslash (inString : mode.InString) :
    step? mode '\\' = none ∨ ∃ next, step? mode '\\' = some ([], next) ∧ next.Escaping := by
  cases mode with
  | text | half | garbled => exact .inr ⟨_, rfl, trivial⟩
  | unit | garbledUnit => exact .inl rfl
  | between | word | escape | halfEscape | garbledEscape => exact inString.elim

theorem step?_escaped (escaping : mode.Escaping) (c : Char) :
    step? mode c = none ∨ ∃ next, step? mode c = some ([], next) ∧ next.InString := by
  have garbled : stepGarbledEscape? c = none ∨ ∃ next, stepGarbledEscape? c = some ([], next) ∧
      next.InString := by
    by_cases unit : c = 'u'
    · exact .inr ⟨.garbledUnit 0, by simp [stepGarbledEscape?, unit], trivial⟩
    · cases meaning : ofEscape? c with
      | none => simp [stepGarbledEscape?, unit, meaning]
      | some meant => exact .inr ⟨.garbled, by simp [stepGarbledEscape?, unit, meaning], trivial⟩
  cases mode with
  | escape read =>
      by_cases unit : c = 'u'
      · exact .inr ⟨.unit read none 0 0, by simp [step?, unit], trivial⟩
      · cases meaning : ofEscape? c with
        | none => simp [step?, unit, meaning]
        | some meant => exact .inr ⟨.text (meant :: read), by simp [step?, unit, meaning], trivial⟩
  | halfEscape read high =>
      by_cases unit : c = 'u'
      · exact .inr ⟨.unit read (some high) 0 0, by simp [step?, unit], trivial⟩
      · simpa [step?, unit] using garbled
  | garbledEscape => exact garbled
  | between | word | text | unit | half | garbled | garbledUnit => exact escaping.elim

theorem step?_quote (inString : mode.InString) :
    step? mode '"' = none ∨ ∃ token, step? mode '"' = some ([token], .between) := by
  cases mode with
  | text | half | garbled => exact .inr ⟨_, rfl⟩
  | unit | garbledUnit => exact .inl rfl
  | between | word | escape | halfEscape | garbledEscape => exact inString.elim

theorem scan?_cons_of_none (step : step? mode c = none) (rest : List Char) :
    scan? mode (c :: rest) = none := by
  simp [scan?, step]

/-- A string is one token or none, whatever comes behind it. -/
theorem scan?_quoted (quoted : Quoted body) (inString : mode.InString) :
    (∀ rest, scan? mode (body ++ '"' :: rest) = none) ∨
      ∃ token, ∀ rest, scan? mode (body ++ '"' :: rest) = prepend [token] (scan? .between rest) := by
  induction quoted generalizing mode with
  | nil =>
      rcases step?_quote inString with stuck | ⟨token, step⟩
      · exact .inl (scan?_cons_of_none stuck)
      · refine .inr ⟨token, fun rest => ?_⟩
        cases more : scan? .between rest <;> simp [scan?, step, more, prepend]
  | plain noQuote noEscape _ induction =>
      rcases step?_plain inString noQuote noEscape with stuck | ⟨next, step, still⟩
      · exact .inl fun rest => scan?_cons_of_none stuck _
      · simpa only [List.cons_append, scan?_cons_of_silent step] using induction still
  | @escaped _ c _ induction =>
      rcases step?_backslash inString with stuck | ⟨escape, step, escaping⟩
      · exact .inl fun rest => scan?_cons_of_none stuck _
      rcases step?_escaped escaping c with stuck | ⟨next, behind, still⟩
      · refine .inl fun rest => ?_
        rw [List.cons_append, scan?_cons_of_silent step, List.cons_append,
          scan?_cons_of_none stuck]
      · simpa only [List.cons_append, scan?_cons_of_silent step, scan?_cons_of_silent behind] using
          induction still

end strings

/-! ## Texts -/

section texts

variable {text spaced word : List Char}

theorem isWordChar_of_isSpace {c : Char} (space : isSpace c) : isWordChar c = false := by
  cases wordChar : isWordChar c with
  | false => rfl
  | true => rw [not_isSpace_of_isWordChar wordChar] at space; cases space

theorem Spaced.endsWord (isSpaced : Spaced text spaced) (ends : EndsWord text) :
    EndsWord spaced := by
  cases isSpaced with
  | nil => exact ends
  | added space | kept space => exact endsWord_cons (isWordChar_of_isSpace space) _
  | punctuation | string => exact endsWord_cons (ends _ rfl) _
  | @word _ _ word notEmpty wordChars =>
      cases word with
      | nil => exact absurd rfl notEmpty
      | cons c word =>
          have wordChar := wordChars c List.mem_cons_self
          rw [ends c rfl] at wordChar
          cases wordChar

theorem scan?_between_word_cases (notEmpty : word ≠ []) (wordChars : ∀ c ∈ word, isWordChar c) :
    (∀ rest, EndsWord rest → scan? .between (word ++ rest) = none) ∨
      ∃ token, ∀ rest, EndsWord rest →
        scan? .between (word ++ rest) = prepend [token] (scan? .between rest) := by
  cases meaning : ofWord? word with
  | some token => exact .inr ⟨token, fun rest => scan?_between_word notEmpty wordChars meaning⟩
  | none =>
      refine .inl fun rest ends => ?_
      rw [scan?_between_append notEmpty wordChars]
      cases rest with
      | nil => simp [scan?, finish?, meaning]
      | cons c rest => exact scan?_cons_of_none (by simp [step?, ends c rfl, meaning]) rest

theorem scan?_spaced (isSpaced : Spaced text spaced) :
    scan? .between spaced = scan? .between text := by
  induction isSpaced with
  | nil => rfl
  | added space _ induction => rw [scan?_space space, induction]
  | kept space _ induction => rw [scan?_space space, scan?_space space, induction]
  | @punctuation _ _ c known _ induction =>
      have begins : ∃ token, beginWith? c = some ([token], .between) := by
        simp only [List.mem_cons, List.not_mem_nil, or_false] at known
        rcases known with rfl | rfl | rfl | rfl | rfl | rfl <;> exact ⟨_, rfl⟩
      rcases begins with ⟨token, begins⟩
      rw [scan?_cons_of_punctuation begins, scan?_cons_of_punctuation begins, induction]
  | string quoted _ induction =>
      have opens : step? .between '"' = some ([], .text []) := rfl
      have inString : (Mode.text []).InString := trivial
      rw [List.cons_append, List.cons_append, scan?_cons_of_silent opens,
        scan?_cons_of_silent opens]
      rcases scan?_quoted quoted inString with stuck | ⟨token, complete⟩
      · rw [stuck, stuck]
      · rw [complete, complete, induction]
  | word notEmpty wordChars ends isSpaced induction =>
      -- The word ends in both texts, if not at the same character.
      have otherEnds := isSpaced.endsWord ends
      rcases scan?_between_word_cases notEmpty wordChars with stuck | ⟨token, complete⟩
      · rw [stuck _ ends, stuck _ otherEnds]
      · rw [complete _ ends, complete _ otherEnds, induction]

end texts
end Token

theorem parse?_spaced {text spaced : String} (isSpaced : Token.Spaced text.toList spaced.toList) :
    parse? spaced = parse? text := by
  rw [parse?, parse?, ofText?, ofText?, Token.ofText?, Token.ofText?, Token.scan?_spaced isSpaced]

end ReloadReport.Json
