import ReloadReport.Text.Unprintable

/-!
# Quoted texts

How a list of texts is shown inside a message: in brackets, each text in double quotes, with the
characters that would not be seen written as escapes.
-/

namespace ReloadReport.Text

def codePointEscape (c : Char) : List Char :=
  ['\\', 'u', '\x7b'] ++ Nat.toDigits 16 c.toNat ++ ['\x7d']

/-- How one character stands inside quotes. The single quote needs no escape there. -/
def quotedChar (c : Char) : List Char :=
  if c = '"' then ['\\', '"']
  else if c = '\\' then ['\\', '\\']
  else if c = '\t' then ['\\', 't']
  else if c = '\r' then ['\\', 'r']
  else if c = '\n' then ['\\', 'n']
  else if c = '\x00' then ['\\', '0']
  else if isUnprintable c then codePointEscape c
  else [c]

def quoted (text : List Char) : List Char :=
  '"' :: text.flatMap quotedChar ++ ['"']

def quotedList (texts : List String) : String :=
  String.ofList
    ('[' :: List.intercalate [',', ' '] (texts.map fun text => quoted text.toList) ++ [']'])

set_option maxRecDepth 4096 in
/-- A combining accent is written by its code point, a precomposed letter as it is. -/
example : quotedList ["a\"b", "e\u0301", "\u00E9"] = "[\"a\\\"b\", \"e\\u\x7b301\x7d\", \"\u00E9\"]" := by
  decide

example : quotedList [] = "[]" := rfl

end ReloadReport.Text
