import ReloadReport.Json.Token

/-!
# Magnitudes of JSON numbers

A number that is no natural number of 64 bits is taken for a double: its leading digits, as far as
they fit 64 bits, times a power of ten, each factor and the product rounded to a double. A number
may be as small as it likes, but not so great that the product is no double any more.
-/

namespace ReloadReport.Json

/-- The next whole double: the nearest number with 53 binary digits before its zeros, of two
equally near ones that with the even digits. -/
def roundToDouble (n : Nat) : Nat :=
  let unit := Nat.pow 2 (n.log2 + 1 - 53)
  let quotient := n / unit
  let remainder := 2 * (n % unit)
  if unit < remainder ∨ (remainder = unit ∧ quotient % 2 = 1) then (quotient + 1) * unit
  else quotient * unit

def doubleBound : Nat :=
  Nat.pow 2 1024

def fitsDouble (significand : Nat) (exponent : Int) : Bool :=
  significand = 0 || exponent < 0 ||
    (exponent ≤ 308 &&
      roundToDouble (roundToDouble significand * roundToDouble (Nat.pow 10 exponent.toNat)) <
        doubleBound)

/-- Append digits to a number as long as it fits 64 bits. The digits from the first one that makes
it too great are left. -/
def appendDigits (n : Nat) : List Char → Nat × List Char
  | [] => (n, [])
  | c :: digits =>
      let longer := 10 * n + (c.toNat - '0'.toNat)
      if longer < UInt64.size then appendDigits longer digits else (n, c :: digits)

def fractionDigits : List Char → List Char
  | '.' :: word => word.takeWhile Char.isDigit
  | _ => []

def exponentValue : List Char → Int
  | [] => 0
  | _ :: word =>
      let value : Int := Nat.ofDigitChars 10 (Token.dropSign word) 0
      if word.head? = some '-' then -value else value

/-- Whether a number is within the doubles. Digits that are left of the whole part raise the
exponent, and digits that are taken from the fraction lower it. -/
def isWithinDoubles (word : List Char) : Bool :=
  let unsigned := if word.head? = some '-' then word.tail else word
  let behind := unsigned.dropWhile Char.isDigit
  let fraction := fractionDigits behind
  let exponent := exponentValue ((Token.afterFraction? behind).getD [])
  let (whole, wholeLeft) := appendDigits 0 (unsigned.takeWhile Char.isDigit)
  let (significand, fractionLeft) := appendDigits whole fraction
  fitsDouble significand (exponent + wholeLeft.length + fractionLeft.length - fraction.length)

example : isWithinDoubles "-1.7976931348623157e308".toList = true ∧
    isWithinDoubles "1.8e308".toList = false ∧ isWithinDoubles "0e999".toList = true ∧
    isWithinDoubles "1e-999".toList = true ∧ isWithinDoubles "0.001e311".toList = true := by
  decide +kernel

end ReloadReport.Json
