import ReloadReport.Json.Basic

/-!
# JSON tokens

The words of the JSON grammar, and the machine that finds them in a text character by character.
The grammar is read strictly: white space is space, tab and the two line ends, numbers have no
leading zeros, and strings hold no raw control characters. A string in which half of a surrogate
pair stands alone is well formed, but spells no text.
-/

namespace ReloadReport.Json

inductive Token where
  | openArray
  | closeArray
  | openObject
  | closeObject
  | comma
  | colon
  | null
  | bool (value : Bool)
  | natural (value : Nat)
  | real (literal : String)
  | string (text : String)
  | garbled
  deriving DecidableEq, Repr

namespace Token

/-! ## Words and numbers -/

def isWordChar (c : Char) : Bool :=
  c.isAlphanum || c == '-' || c == '+' || c == '.'

def isSpace (c : Char) : Bool :=
  c == ' ' || c == '\t' || c == '\n' || c == '\r'

def isWhole (word : List Char) : Bool :=
  word ≠ [] && word.all Char.isDigit && (word.head? ≠ some '0' || word == ['0'])

def afterFraction? : List Char → Option (List Char)
  | '.' :: word =>
      if (word.takeWhile Char.isDigit).isEmpty then none else some (word.dropWhile Char.isDigit)
  | word => some word

def dropSign : List Char → List Char
  | '+' :: word => word
  | '-' :: word => word
  | word => word

def afterExponent? : List Char → Option (List Char)
  | [] => some []
  | c :: word =>
      if c == 'e' || c == 'E' then
        let exponent := dropSign word
        if (exponent.takeWhile Char.isDigit).isEmpty then none
        else some (exponent.dropWhile Char.isDigit)
      else some (c :: word)

def isNumber (word : List Char) : Bool :=
  let unsigned := if word.head? = some '-' then word.tail else word
  isWhole (unsigned.takeWhile Char.isDigit) &&
    ((afterFraction? (unsigned.dropWhile Char.isDigit)).bind afterExponent?) == some []

def ofWord? (word : List Char) : Option Token :=
  if word = ['n', 'u', 'l', 'l'] then some .null
  else if word = ['t', 'r', 'u', 'e'] then some (.bool true)
  else if word = ['f', 'a', 'l', 's', 'e'] then some (.bool false)
  else if isWhole word then some (.natural (Nat.ofDigitChars 10 word 0))
  else if isNumber word then some (.real (String.ofList word))
  else none

def ofPunctuation? (c : Char) : Option Token :=
  match c with
  | '[' => some .openArray
  | ']' => some .closeArray
  | '\x7b' => some .openObject
  | '\x7d' => some .closeObject
  | ',' => some .comma
  | ':' => some .colon
  | _ => none

/-! ## Strings -/

def ofEscape? (c : Char) : Option Char :=
  match c with
  | '"' => some '"'
  | '\\' => some '\\'
  | '/' => some '/'
  | 'b' => some '\x08'
  | 'f' => some '\x0c'
  | 'n' => some '\n'
  | 'r' => some '\r'
  | 't' => some '\t'
  | _ => none

def hexDigit? (c : Char) : Option Nat :=
  if c.isDigit then some (c.toNat - '0'.toNat)
  else if 'a' ≤ c ∧ c ≤ 'f' then some (c.toNat - 'a'.toNat + 10)
  else if 'A' ≤ c ∧ c ≤ 'F' then some (c.toNat - 'A'.toNat + 10)
  else none

def isHighSurrogate (unit : Nat) : Bool :=
  0xD800 ≤ unit && unit < 0xDC00

def isLowSurrogate (unit : Nat) : Bool :=
  0xDC00 ≤ unit && unit < 0xE000

def ofSurrogates (high low : Nat) : Char :=
  Char.ofNat (0x10000 + (high - 0xD800) * 0x400 + (low - 0xDC00))

/-! ## The machine -/

/-- What the characters read so far belong to. Characters of an unfinished token are kept with
the last one first. -/
inductive Mode where
  | between
  | word (read : List Char)
  | text (read : List Char)
  | escape (read : List Char)
  /-- In the four hexadecimal digits of an escape: how many have come, their value, and the first
  half of a surrogate pair if one came before. -/
  | unit (read : List Char) (high : Option Nat) (count value : Nat)
  | half (read : List Char) (high : Nat)
  | halfEscape (read : List Char) (high : Nat)
  | garbled
  | garbledEscape
  | garbledUnit (count : Nat)
  deriving DecidableEq, Repr

/-- The mode after a complete escape by code unit. Halves of surrogate pairs that do not come in
pairs spell nothing. -/
def afterUnit (read : List Char) (high : Option Nat) (unit : Nat) : Mode :=
  match high with
  | none =>
      if isHighSurrogate unit then .half read unit
      else if isLowSurrogate unit then .garbled
      else .text (Char.ofNat unit :: read)
  | some high =>
      if isLowSurrogate unit then .text (ofSurrogates high unit :: read) else .garbled

def stepGarbled? (c : Char) : Option (List Token × Mode) :=
  if c = '"' then some ([.garbled], .between)
  else if c = '\\' then some ([], .garbledEscape)
  else if c.toNat < 0x20 then none
  else some ([], .garbled)

def stepGarbledEscape? (c : Char) : Option (List Token × Mode) :=
  if c = 'u' then some ([], .garbledUnit 0)
  else (ofEscape? c).map fun _ => ([], .garbled)

def beginWith? (c : Char) : Option (List Token × Mode) :=
  if isSpace c then some ([], .between)
  else if c = '"' then some ([], .text [])
  else if isWordChar c then some ([], .word [c])
  else (ofPunctuation? c).map fun token => ([token], .between)

def step? : Mode → Char → Option (List Token × Mode)
  | .between, c => beginWith? c
  | .word read, c =>
      if isWordChar c then some ([], .word (c :: read))
      else do
        let token ← ofWord? read.reverse
        let (tokens, mode) ← beginWith? c
        some (token :: tokens, mode)
  | .text read, c =>
      if c = '"' then some ([.string (String.ofList read.reverse)], .between)
      else if c = '\\' then some ([], .escape read)
      else if c.toNat < 0x20 then none
      else some ([], .text (c :: read))
  | .escape read, c =>
      if c = 'u' then some ([], .unit read none 0 0)
      else (ofEscape? c).map fun meant => ([], .text (meant :: read))
  | .unit read high count value, c => do
      let digit ← hexDigit? c
      if count < 3 then some ([], .unit read high (count + 1) (16 * value + digit))
      else some ([], afterUnit read high (16 * value + digit))
  | .half read high, c =>
      if c = '\\' then some ([], .halfEscape read high) else stepGarbled? c
  | .halfEscape read high, c =>
      if c = 'u' then some ([], .unit read (some high) 0 0) else stepGarbledEscape? c
  | .garbled, c => stepGarbled? c
  | .garbledEscape, c => stepGarbledEscape? c
  | .garbledUnit count, c =>
      (hexDigit? c).map fun _ => ([], if count < 3 then .garbledUnit (count + 1) else .garbled)

/-- The tokens that the end of the text completes. It may not fall into a string. -/
def finish? : Mode → Option (List Token)
  | .between => some []
  | .word read => (ofWord? read.reverse).map fun token => [token]
  | _ => none

def scan? : Mode → List Char → Option (List Token)
  | mode, [] => finish? mode
  | mode, c :: text => do
      let (tokens, next) ← step? mode c
      let more ← scan? next text
      some (tokens ++ more)

def ofText? (text : List Char) : Option (List Token) :=
  scan? .between text

/-- An escaped surrogate pair is one character, and half a pair spells nothing. -/
example : ofText? "\"\\uD83D\\ude00\"".toList = some [.string "😀"] ∧
    ofText? "\"\\uD83Dx\"".toList = some [.garbled] ∧ ofText? "\"\\uD83\"".toList = none := by
  decide

/-- Numbers with leading zeros or without digits are errors; a minus zero is no natural number. -/
example : ofText? "[0, 10,-0,1.5e+3]".toList =
      some [.openArray, .natural 0, .comma, .natural 10, .comma, .real "-0", .comma,
        .real "1.5e+3", .closeArray] ∧
    ofText? "01".toList = none ∧ ofText? "1.".toList = none ∧ ofText? "+1".toList = none := by
  decide

end Token
end ReloadReport.Json
