import ReloadReport.Json.Token
import ReloadReport.Origin.AbsoluteId
import ReloadReport.Text.Blank
import ReloadReport.Text.Search

/-!
# File URIs

A file URI names a file by a host and a path, in which percent sequences stand for bytes. An
absolute id is put into one with its percent signs, number signs and question marks escaped. Parsing
it resolves the dots in the path and encodes what a URI cannot hold, and its path on this host is
decoded again.
-/

namespace ReloadReport

structure FileUri where
  host : List Char := []
  path : List Char
  deriving DecidableEq, Repr

namespace FileUri

open Text
open Json.Token (hexDigit?)

def scheme : List Char :=
  "file://".toList

def text (uri : FileUri) : String :=
  String.ofList (scheme ++ uri.host ++ uri.path)

/-! ## Percent sequences -/

def percentByte (byte : UInt8) : List Char :=
  ['%', (Nat.digitChar (byte.toNat / 16)).toUpper, (Nat.digitChar (byte.toNat % 16)).toUpper]

def isPlain (c : Char) : Bool :=
  0x20 < c.toNat && c.toNat < 0x7F && c ∉ ['"', '#', '<', '>', '?', '\x60', '\x7b', '\x7d']

def encodedChar (c : Char) : List Char :=
  if isPlain c then [c] else (String.utf8EncodeChar c).flatMap percentByte

/-- The bytes of a character that is not plain are percent sequences. A percent sign is plain. -/
def encoded (text : List Char) : List Char :=
  text.flatMap encodedChar

def byteOf? (high low : Char) : Option UInt8 := do
  let high ← hexDigit? high
  let low ← hexDigit? low
  some (UInt8.ofNat (16 * high + low))

/-- A percent sign without two digits behind it stands for itself. -/
def decoded : List Char → List UInt8
  | [] => []
  | '%' :: high :: low :: text =>
      match byteOf? high low with
      | some byte => byte :: decoded text
      | none => String.utf8EncodeChar '%' ++ decoded (high :: low :: text)
  | c :: text => String.utf8EncodeChar c ++ decoded text

def escapedChar (c : Char) : List Char :=
  if c = '%' then "%25".toList
  else if c = '#' then "%23".toList
  else if c = '?' then "%3F".toList
  else [c]

def escaped (id : List Char) : List Char :=
  id.flatMap escapedChar

/-! ## Parsing -/

/-- A piece of a path. Dots that alone make up a piece count as well where they are sequences. -/
def dotted (piece : List Char) : List Char :=
  let segment := (AbsoluteId.unbroken piece).map Char.toLower
  if segment = "%2e".toList then ['.']
  else if segment = ".%2e".toList ∨ segment = "%2e.".toList ∨ segment = "%2e%2e".toList then
    ['.', '.']
  else piece

/-- The path from the root that is left of a path when its dots are resolved. A backslash counts as
a slash, and the slashes in front are one. -/
def resolved (path : List Char) : List Char :=
  let pieces := (path.map fun c => if c = '\\' then '/' else c).splitOn '/'
  let (folders, name) := AbsoluteId.walk [] (pieces.map dotted)
  '/' :: (AbsoluteId.spelled (folders.map encoded) (encoded name)).dropWhile (· == '/')

/-- The URI that a text spells, without its query and its fragment. Controls and spaces around it
are left out. A text that does not start with the scheme is taken for a relative one, and a host is
kept as it stands. -/
def parse (text : List Char) : Except String FileUri :=
  match after? scheme (dropEndWhile (·.toNat ≤ 0x20) (text.dropWhile (·.toNat ≤ 0x20))) with
  | none => .error "relative URL without a base"
  | some rest =>
      let host := rest.takeWhile fun c => c ∉ ['/', '\\', '?', '#']
      let path := (rest.drop host.length).takeWhile fun c => c ∉ ['?', '#']
      .ok { host := if host = "localhost".toList then [] else host, path := resolved path }

/-- The path on this host, which has a slash at its end where a drive would stand there. Paths are
texts, so bytes that spell none make no path. -/
def localPath? (uri : FileUri) : Option Path :=
  if uri.host ≠ [] then none
  else
    (String.fromUTF8? (decoded uri.path).toByteArray).map fun text =>
      ⟨if AbsoluteId.endsInDrive text.toList then text ++ "/" else text⟩

def ofId (id : String) : List Char :=
  scheme ++ AbsoluteId.rooted (escaped id.toList)

example : parse "file:///a/%2E%2e/b c\\x?y".toList = .ok { path := "/b%20c/x".toList } ∧
    parse "file://host/a".toList = .ok { host := "host".toList, path := "/a".toList } ∧
    parse "/a".toList = .error "relative URL without a base" :=
  ⟨rfl, rfl, rfl⟩

example : (FileUri.mk [] "/a%20%C3%A9%".toList).localPath? = some ⟨"/a é%"⟩ ∧
    (FileUri.mk "host".toList "/a".toList).localPath? = none := by
  decide

end FileUri
end ReloadReport
