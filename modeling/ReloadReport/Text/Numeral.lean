/-!
# Numerals

Decimal numerals as they are written in logs, markers and settings: ASCII digits after at most one
plus sign. Leading zeros are allowed; a minus sign, white space and digits of other scripts are
not.
-/

namespace ReloadReport.Text

def digits? (text : List Char) : Option Nat :=
  if text ≠ [] ∧ text.all Char.isDigit then some (Nat.ofDigitChars 10 text 0) else none

def numeral? : List Char → Option Nat
  | '+' :: text => digits? text
  | text => digits? text

def word32? (n : Nat) : Option UInt32 :=
  if n < UInt32.size then some (UInt32.ofNat n) else none

def word64? (n : Nat) : Option UInt64 :=
  if n < UInt64.size then some (UInt64.ofNat n) else none

def numeral32? (text : List Char) : Option UInt32 :=
  (numeral? text).bind word32?

def numeral64? (text : List Char) : Option UInt64 :=
  (numeral? text).bind word64?

@[simp] theorem word32?_toNat (word : UInt32) : word32? word.toNat = some word := by
  rw [word32?, if_pos word.toNat_lt_size, UInt32.ofNat_toNat]

@[simp] theorem word64?_toNat (word : UInt64) : word64? word.toNat = some word := by
  rw [word64?, if_pos word.toNat_lt_size, UInt64.ofNat_toNat]

theorem word32?_eq_some_iff {n : Nat} {word : UInt32} :
    word32? n = some word ↔ word.toNat = n := by
  constructor
  · intro narrowed
    simp only [word32?, Option.ite_none_right_eq_some, Option.some.injEq] at narrowed
    obtain ⟨fits, rfl⟩ := narrowed
    exact UInt32.toNat_ofNat_of_lt' fits
  · rintro rfl
    exact word32?_toNat word

/-- Signs and zeros in front do not change the value; one past the largest word is refused. -/
example : numeral32? "+0012".toList = some 12 ∧ numeral32? "4294967295".toList = some 4294967295 ∧
    numeral32? "4294967296".toList = none ∧ numeral32? "-0".toList = none ∧
    numeral32? "+".toList = none ∧ numeral32? "++1".toList = none ∧ numeral32? [] = none := by
  decide

end ReloadReport.Text
