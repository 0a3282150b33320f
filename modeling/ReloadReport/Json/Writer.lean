import ReloadReport.Json.Tree

/-!
# Writing JSON

A value is written either on one line without white space, or with every element on a line of its
own, two spaces deeper than what it is in.
-/

namespace ReloadReport.Json

def hexDigit (value : Nat) : Char :=
  Nat.digitChar value

def writeChar (c : Char) : List Char :=
  if c = '"' then ['\\', '"']
  else if c = '\\' then ['\\', '\\']
  else if c = '\x08' then ['\\', 'b']
  else if c = '\x0c' then ['\\', 'f']
  else if c = '\n' then ['\\', 'n']
  else if c = '\r' then ['\\', 'r']
  else if c = '\t' then ['\\', 't']
  else if c.toNat < 0x20 then
    ['\\', 'u', '0', '0', hexDigit (c.toNat / 16), hexDigit (c.toNat % 16)]
  else [c]

def writeString (text : String) : List Char :=
  '"' :: (text.toList.flatMap writeChar ++ ['"'])

def lineBreak : Option Nat → List Char
  | none => []
  | some depth => '\n' :: List.replicate (2 * depth) ' '

def afterName : Option Nat → List Char
  | none => [':']
  | some _ => [':', ' ']

def deeper (depth : Option Nat) : Option Nat :=
  depth.map (· + 1)

mutual

/-- The text of a value. A depth is given where every element gets a line of its own; the empty
array and the empty object stay on their line. An illegible value is written as half a surrogate
pair. -/
def write (depth : Option Nat) : Json → List Char
  | .null => ['n', 'u', 'l', 'l']
  | .bool true => ['t', 'r', 'u', 'e']
  | .bool false => ['f', 'a', 'l', 's', 'e']
  | .natural value => Nat.toDigits 10 value
  | .real literal => literal.toList
  | .string text => writeString text
  | .array [] => ['[', ']']
  | .array (item :: items) =>
      '[' :: (writeItems (deeper depth) (item :: items) ++ lineBreak depth ++ [']'])
  | .object [] => ['\x7b', '\x7d']
  | .object (member :: members) =>
      '\x7b' :: (writeMembers (deeper depth) (member :: members) ++ lineBreak depth ++ ['\x7d'])
  | .illegible => ['"', '\\', 'u', 'd', '8', '0', '0', '"']

def writeItems (depth : Option Nat) : List Json → List Char
  | [] => []
  | [item] => lineBreak depth ++ write depth item
  | item :: next :: items =>
      lineBreak depth ++ write depth item ++ ',' :: writeItems depth (next :: items)

def writeMembers (depth : Option Nat) : List (String × Json) → List Char
  | [] => []
  | [member] => lineBreak depth ++ writeMember depth member
  | member :: next :: members =>
      lineBreak depth ++ writeMember depth member ++ ',' :: writeMembers depth (next :: members)

def writeMember (depth : Option Nat) : String × Json → List Char
  | (name, value) => writeString name ++ afterName depth ++ write depth value

end

def compact (value : Json) : String :=
  String.ofList (write none value)

def pretty (value : Json) : String :=
  String.ofList (write (some 0) value)

example : compact (.object [("a", .natural 1), ("b", .array [.bool true, .null])]) =
    "\x7b\"a\":1,\"b\":[true,null]\x7d" := by
  decide

example : pretty (.object [("a", .array [.natural 1, .object []]), ("\x01", .array [])]) =
    "\x7b\n  \"a\": [\n    1,\n    \x7b\x7d\n  ],\n  \"\\u0001\": []\n\x7d" := by
  decide

end ReloadReport.Json
