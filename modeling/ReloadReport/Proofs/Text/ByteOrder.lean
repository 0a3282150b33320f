import Mathlib.Data.List.Basic

/-!
# Byte order of names

Names are ordered by code points. UTF-8 keeps that order: of two characters the lower one has lower
bytes, whatever stands behind them.
-/

namespace ReloadReport.Text

def utf8 (name : String) : List UInt8 :=
  name.toUTF8.data.toList

theorem utf8_eq_flatMap (name : String) :
    utf8 name = name.toList.flatMap String.utf8EncodeChar := by
  rw [utf8, String.toUTF8_eq_toByteArray, ← String.utf8Encode_toList, List.utf8Encode,
    List.data_toByteArray]

/-- The digits of a code point in base 64, which its longest encoding spreads over four bytes. -/
structure CodeDigits (point a b c d : Nat) : Prop where
  value : point = 262144 * a + 4096 * b + 64 * c + d
  first : point / 262144 % 8 = a
  second : point / 4096 % 64 = b
  third : point / 64 % 64 = c
  last : point % 64 = d
  bounds : a < 8 ∧ b < 64 ∧ c < 64 ∧ d < 64

theorem exists_codeDigits {point : Nat} (bound : point < 0x110000) :
    ∃ a b c d, CodeDigits point a b c d := by
  refine ⟨_, _, _, _, ?_, rfl, rfl, rfl, rfl, ?_⟩ <;> omega

/-- The first byte in which two characters differ decides, since the number of bytes shows in the
first one. -/
theorem utf8EncodeChar_append_lt {low high : Char} (below : low < high) (rest other : List UInt8) :
    String.utf8EncodeChar low ++ rest < String.utf8EncodeChar high ++ other := by
  have points : low.val.toNat < high.val.toNat := below
  have bound : high.val.toNat < 0x110000 := by
    rcases high.valid with small | ⟨_, small⟩ <;> omega
  rw [String.utf8EncodeChar.eq_def, String.utf8EncodeChar.eq_def]
  generalize low.val.toNat = left at points
  generalize high.val.toNat = right at points bound
  rcases exists_codeDigits (Nat.lt_trans points bound) with ⟨a, b, c, d, leftDigits⟩
  rcases exists_codeDigits bound with ⟨e, f, g, h, rightDigits⟩
  have leftBounds := leftDigits.bounds
  have rightBounds := rightDigits.bounds
  simp only [leftDigits.first, leftDigits.second, leftDigits.third, leftDigits.last,
    rightDigits.first, rightDigits.second, rightDigits.third, rightDigits.last]
  have leftValue := leftDigits.value
  have rightValue := rightDigits.value
  split_ifs <;>
    simp only [List.cons_append, List.nil_append, List.cons_lt_cons_iff, UInt8.lt_iff_toNat_lt,
      UInt8.ext_iff, UInt8.toNat_ofNat'] <;>
    omega

theorem flatMap_utf8EncodeChar_lt {left right : List Char} (below : left < right) :
    left.flatMap String.utf8EncodeChar < right.flatMap String.utf8EncodeChar := by
  induction below with
  | @nil c rest =>
      have written : String.utf8EncodeChar c ≠ [] := String.utf8EncodeChar_ne_nil
      rcases List.exists_cons_of_ne_nil written with ⟨byte, more, bytes⟩
      simp [bytes]
  | cons _ induction => exact List.append_left_lt induction
  | rel lower => exact utf8EncodeChar_append_lt lower _ _

theorem utf8_lt_iff {left right : String} : utf8 left < utf8 right ↔ left < right := by
  have keeps : ∀ {left right : String}, left < right → utf8 left < utf8 right := by
    intro left right below
    rw [utf8_eq_flatMap, utf8_eq_flatMap]
    exact flatMap_utf8EncodeChar_lt below
  refine ⟨fun below => ?_, keeps⟩
  apply String.not_le.mp
  intro above
  rcases Std.le_iff_lt_or_eq.mp above with beyond | same
  · exact List.lt_asymm below (keeps beyond)
  · exact List.lt_irrefl _ (same ▸ below)

theorem utf8_le_iff {left right : String} : utf8 left ≤ utf8 right ↔ left ≤ right := by
  rw [← List.not_lt, utf8_lt_iff, String.not_lt]

end ReloadReport.Text
