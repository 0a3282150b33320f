/-!
# White space

The characters that count as blank wherever a text is trimmed or a run of white space may stand,
and the trimming of texts, which are lists of characters throughout.
-/

namespace ReloadReport.Text

/-- White space is what Unicode gives the property White_Space: the controls from tab to carriage
return, the space, the next line control, and the space separators beyond ASCII. Zero-width
characters are not among them. -/
def isBlank (c : Char) : Bool :=
  (9 ≤ c.toNat && c.toNat ≤ 13) || c.toNat == 0x20 || c.toNat == 0x85 || c.toNat == 0xA0 ||
    c.toNat == 0x1680 || (0x2000 ≤ c.toNat && c.toNat ≤ 0x200A) || c.toNat == 0x2028 ||
    c.toNat == 0x2029 || c.toNat == 0x202F || c.toNat == 0x205F || c.toNat == 0x3000

/-- The gaps inside a line of markers are spaces and tabs, and no other white space. -/
def isGap (c : Char) : Bool :=
  c == ' ' || c == '\t'

def dropEndWhile (drop : Char → Bool) (text : List Char) : List Char :=
  (text.reverse.dropWhile drop).reverse

def trimEnd (text : List Char) : List Char :=
  dropEndWhile isBlank text

def trim (text : List Char) : List Char :=
  trimEnd (text.dropWhile isBlank)

def byteWidth (text : List Char) : Nat :=
  (text.map Char.utf8Size).foldr (· + ·) 0

theorem isBlank_of_isGap {c : Char} (gap : isGap c = true) : isBlank c = true := by
  simp only [isGap, Bool.or_eq_true, beq_iff_eq] at gap
  rcases gap with rfl | rfl <;> rfl

example : trim ['\u3000', 'a', ' ', 'b', '\u2003', '\t'] = ['a', ' ', 'b'] ∧
    trim ['\u200B', 'a'] = ['\u200B', 'a'] := by
  decide

example : byteWidth [' ', '\u3000', '\u0085'] = 6 := by
  decide

end ReloadReport.Text
