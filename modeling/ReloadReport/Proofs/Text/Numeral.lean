import ReloadReport.Text.Blank
import ReloadReport.Text.DecimalDigit
import ReloadReport.Text.Numeral

/-!
# Numerals and their values

Reading a numeral succeeds exactly where its ASCII digits spell a number that the word can hold.
-/

namespace ReloadReport.Text

structure Spells (digits : List Char) (n : Nat) : Prop where
  nonempty : digits ≠ []
  ascii : ∀ c ∈ digits, c.isDigit
  value : Nat.ofDigitChars 10 digits 0 = n

def SpellsSigned (text : List Char) (n : Nat) : Prop :=
  ∃ digits, (text = digits ∨ text = '+' :: digits) ∧ Spells digits n

variable {text : List Char} {n : Nat} {word : UInt32}

theorem not_isDecimalDigit_of_isBlank {c : Char} (blank : isBlank c) :
    isDecimalDigit c = false := by
  -- The ten digits from a zero on lie between two neighbours among the blank characters.
  have apart : ∀ first ∈ digitZeros, first = 0x30 ∨ 0x660 ≤ first ∧ first + 10 ≤ 0x1680 ∨
      0x1681 ≤ first ∧ first + 10 ≤ 0x2000 ∨ 0x3001 ≤ first := by
    decide
  simp only [isBlank, Bool.or_eq_true, Bool.and_eq_true, decide_eq_true_eq, beq_iff_eq] at blank
  apply List.any_eq_false.mpr
  intro first member inside
  have place := apart first member
  simp only [Bool.and_eq_true, decide_eq_true_eq] at inside
  omega

theorem not_isBlank_of_isDigit {c : Char} (digit : c.isDigit) : isBlank c = false := by
  apply Bool.eq_false_iff.mpr
  intro blank
  have decimal := isDecimalDigit_of_isDigit digit
  rw [not_isDecimalDigit_of_isBlank blank] at decimal
  cases decimal

theorem digits?_eq_some_iff : digits? text = some n ↔ Spells text n := by
  simp only [digits?, Option.ite_none_right_eq_some, Option.some.injEq, List.all_eq_true]
  exact ⟨fun ⟨⟨nonempty, ascii⟩, value⟩ => ⟨nonempty, ascii, value⟩,
    fun ⟨nonempty, ascii, value⟩ => ⟨⟨nonempty, ascii⟩, value⟩⟩

theorem spells_toDigits (n : Nat) : Spells (Nat.toDigits 10 n) n where
  nonempty := Nat.toDigits_ne_nil
  ascii _ member := Nat.isDigit_of_mem_toDigits (by decide) (by decide) member
  value := Nat.ofDigitChars_ten_toDigits

theorem not_spells_plus : ¬ Spells ('+' :: text) n := by
  intro spells
  exact absurd (spells.ascii '+' List.mem_cons_self) (by decide)

theorem numeral?_eq_some_iff : numeral? text = some n ↔ SpellsSigned text n := by
  constructor
  · intro read
    rw [numeral?.eq_def] at read
    split at read
    next digits => exact ⟨digits, .inr rfl, digits?_eq_some_iff.mp read⟩
    next => exact ⟨text, .inl rfl, digits?_eq_some_iff.mp read⟩
  · intro signed
    rcases signed with ⟨digits, rfl | rfl, spells⟩
    · rw [numeral?.eq_def]
      split
      next => exact absurd spells not_spells_plus
      next => exact digits?_eq_some_iff.mpr spells
    · exact digits?_eq_some_iff.mpr spells

theorem numeral32?_eq_some_iff : numeral32? text = some word ↔ SpellsSigned text word.toNat := by
  simp only [numeral32?, Option.bind_eq_some_iff, numeral?_eq_some_iff, word32?_eq_some_iff]
  exact ⟨fun ⟨_, spells, value⟩ => value ▸ spells, fun spells => ⟨_, spells, rfl⟩⟩

/-- A run of decimal digits has no sign. -/
theorem numeral32?_of_decimalDigits (decimal : ∀ c ∈ text, isDecimalDigit c) :
    numeral32? text = some word ↔ Spells text word.toNat := by
  rw [numeral32?_eq_some_iff]
  constructor
  · intro signed
    rcases signed with ⟨digits, rfl | rfl, spells⟩
    · exact spells
    · exact absurd (decimal '+' List.mem_cons_self) (by decide)
  · intro spells
    exact ⟨text, .inl rfl, spells⟩

end ReloadReport.Text
