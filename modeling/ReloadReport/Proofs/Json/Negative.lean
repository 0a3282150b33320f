import Mathlib.Data.List.TakeWhile
import ReloadReport.Json.ReadBack

/-!
# Negative integers

The negative integers of 64 bits are numbers that are well spelled, and far from the greatest
doubles.
-/

namespace ReloadReport.Json

/-- The integer below zero, or zero with a sign, of an absolute value. -/
def negative (value : Nat) : Json :=
  .real (String.ofList ('-' :: Nat.toDigits 10 value))

section digits

variable {n : Nat}

theorem takeWhile_toDigits : (Nat.toDigits 10 n).takeWhile Char.isDigit = Nat.toDigits 10 n :=
  List.takeWhile_eq_self_iff.mpr fun _ member =>
    Nat.isDigit_of_mem_toDigits (by decide) (by decide) member

theorem dropWhile_toDigits : (Nat.toDigits 10 n).dropWhile Char.isDigit = [] :=
  List.dropWhile_eq_nil_iff.mpr fun _ member =>
    Nat.isDigit_of_mem_toDigits (by decide) (by decide) member

theorem le_ofDigitChars (digits : List Char) (n : Nat) : n ≤ Nat.ofDigitChars 10 digits n := by
  induction digits generalizing n with
  | nil => exact Nat.le_refl n
  | cons c digits induction =>
      rw [Nat.ofDigitChars_cons]
      refine Nat.le_trans ?_ (induction _)
      omega

theorem appendDigits_of_lt {digits : List Char}
    (fits : Nat.ofDigitChars 10 digits n < UInt64.size) :
    appendDigits n digits = (Nat.ofDigitChars 10 digits n, []) := by
  induction digits generalizing n with
  | nil => rfl
  | cons c digits induction =>
      rw [Nat.ofDigitChars_cons] at fits ⊢
      have longer := Nat.lt_of_le_of_lt (le_ofDigitChars digits _) fits
      rw [appendDigits, if_pos longer, induction fits]

end digits

theorem wellSpelled_negative (value : Nat) : WellSpelled (negative value) := by
  have notWhole : Token.isWhole ('-' :: Nat.toDigits 10 value) = false := by
    simp [Token.isWhole, Char.isDigit]
  have number : Token.isNumber ('-' :: Nat.toDigits 10 value) = true := by
    simp [Token.isNumber, takeWhile_toDigits, dropWhile_toDigits, Token.isWhole_toDigits,
      Token.afterFraction?, Token.afterExponent?]
  refine ⟨by simp, fun c member => ?_, ?_⟩
  · rw [String.toList_ofList] at member
    rcases List.mem_cons.mp member with rfl | digit
    · rfl
    · exact Token.isWordChar_of_isDigit (Nat.isDigit_of_mem_toDigits (by decide) (by decide) digit)
  · simp [Token.ofWord?, notWhole, number]

section doubles

variable {n : Nat}

theorem roundToDouble_le (n : Nat) : roundToDouble n ≤ 2 * n := by
  rcases Nat.eq_zero_or_pos n with rfl | positive
  · decide
  · have unit : Nat.pow 2 (n.log2 + 1 - 53) ≤ n := by
      refine Nat.le_trans (Nat.pow_le_pow_right (by decide) ?_)
        (Nat.log2_self_le (Nat.ne_of_gt positive))
      omega
    have below := Nat.div_mul_le_self n (Nat.pow 2 (n.log2 + 1 - 53))
    simp only [roundToDouble]
    split
    · rw [Nat.add_mul]
      omega
    · omega

theorem fitsDouble_of_lt (fits : n < UInt64.size) : fitsDouble n 0 = true := by
  have one : roundToDouble 1 = 1 := by decide
  have rounded := roundToDouble_le n
  have product := roundToDouble_le (roundToDouble n)
  have bound : 4 * UInt64.size ≤ doubleBound := by decide +kernel
  have below : roundToDouble (roundToDouble n) < doubleBound := by omega
  simp [fitsDouble, one, below]

theorem limited_negative (depth : Nat) (fits : n < UInt64.size) :
    limited depth (negative n) = negative n := by
  have read : appendDigits 0 (Nat.toDigits 10 n) = (n, []) := by
    have spelled : Nat.ofDigitChars 10 (Nat.toDigits 10 n) 0 = n := Nat.ofDigitChars_ten_toDigits
    rw [appendDigits_of_lt (by rwa [spelled]), spelled]
  have within : isWithinDoubles ('-' :: Nat.toDigits 10 n) = true := by
    simpa [isWithinDoubles, takeWhile_toDigits, dropWhile_toDigits, read, fractionDigits,
      appendDigits, Token.afterFraction?, exponentValue] using fitsDouble_of_lt fits
  rw [negative, limited, String.toList_ofList, if_pos within]

end doubles
end ReloadReport.Json
