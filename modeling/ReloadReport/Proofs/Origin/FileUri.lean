import Mathlib.Data.List.Induction
import Mathlib.Data.List.TakeWhile
import ReloadReport.Origin
import ReloadReport.Proofs.Origin.Walk
import ReloadReport.Proofs.Text.Span

/-!
# Ids as file URIs

Every absolute id makes a file URI, and the path of the URI on this host is the one that the id
spells itself: the sequences for the characters that mean something in a URI are carried through
parsing as they are, and decoding cancels them together with what parsing encodes.
-/

namespace ReloadReport

namespace AbsoluteId

open Text

/-- Controls and spaces at the end are left out, and a backslash counts as a slash. -/
def cleaned (id : List Char) : List Char :=
  (dropEndWhile (·.toNat ≤ 0x20) (rooted id)).map fun c => if c = '\\' then '/' else c

/-- The characters of the path that an id stands for. The piece before the slash in front is entered
as a nameless folder, which a double dot leaves like any other; the slashes of nameless folders in
front are one slash in the path. -/
def pathText (id : List Char) : List Char :=
  let (folders, name) := walk [] ((cleaned id).splitOn '/')
  let path := '/' :: (spelled folders name).dropWhile (· == '/')
  if endsInDrive path then path ++ ['/'] else path

def path (id : String) : Path :=
  ⟨String.ofList (pathText id.toList)⟩

example : path "a/b%41#?.scala" = ⟨"/a/b%41#?.scala"⟩ := by
  decide

/-- Double dots leave folders, but not a drive. -/
example : path "/a/./b/../c" = ⟨"/a/c"⟩ ∧ path "C:/../x" = ⟨"/C:/x"⟩ ∧ path "/../.." = ⟨"/"⟩ ∧
    path "c|" = ⟨"/c|/"⟩ ∧ path "../c|" = ⟨"/c:/"⟩ := by
  decide

/-- A tab or a line end parts a drive right below the root from a name, and is nothing elsewhere. -/
example : path "../c:\tx" = ⟨"/c:/x"⟩ ∧ path "../c:\n.." = ⟨"/c:/.."⟩ ∧
    path "../c:\r../../y" = ⟨"/c:/y"⟩ ∧ path "../c|\tx" = ⟨"/c|x"⟩ ∧ path "../c:\t/x" = ⟨"/c:/x"⟩ ∧
    path "c:\tx" = ⟨"/c:x"⟩ ∧ path "a/.\t./b" = ⟨"/b"⟩ := by
  decide

def slashed (text : List Char) : List Char :=
  text.map fun c => if c = '\\' then '/' else c

theorem slashed_eq_self {text : List Char} (noBackslash : '\\' ∉ text) : slashed text = text := by
  have same : ∀ c ∈ text, (if c = '\\' then '/' else c) = c := by
    intro c member
    apply if_neg
    intro backslash
    exact noBackslash (backslash ▸ member)
  rw [slashed, List.map_congr_left same, List.map_id']

theorem exists_rooted (id : List Char) : ∃ tail, rooted id = '/' :: tail := by
  rw [rooted]
  split
  next slash => exact List.head?_eq_some_iff.mp slash
  next => exact ⟨id, rfl⟩

theorem exists_dropEndWhile_rooted (id : List Char) : ∃ tail, rooted id = '/' :: tail ∧
    dropEndWhile (·.toNat ≤ 0x20) (rooted id) =
      '/' :: dropEndWhile (·.toNat ≤ 0x20) tail := by
  rcases exists_rooted id with ⟨tail, slash⟩
  refine ⟨tail, slash, ?_⟩
  rw [slash]
  exact dropEndWhile_append_cons [] tail (by decide)

end AbsoluteId

namespace FileUri

open Text AbsoluteId
open Json.Token (hexDigit?)

def Literal (c : Char) : Prop :=
  c ≠ '%' ∧ c ≠ '#' ∧ c ≠ '?'

instance (c : Char) : Decidable (Literal c) :=
  inferInstanceAs (Decidable (c ≠ '%' ∧ c ≠ '#' ∧ c ≠ '?'))

inductive Escapes : Char → List Char → Prop
  | percent : Escapes '%' "%25".toList
  | number : Escapes '#' "%23".toList
  | question : Escapes '?' "%3F".toList
  | literal (literal : Literal c) : Escapes c [c]

variable {c : Char} {text rest segment piece : List Char} {folders : List (List Char)}

section escaped

theorem escapedChar_of_literal (literal : Literal c) : escapedChar c = [c] := by
  rw [escapedChar, if_neg literal.1, if_neg literal.2.1, if_neg literal.2.2]

theorem escapes (c : Char) : Escapes c (escapedChar c) := by
  by_cases percent : c = '%'
  · subst percent
    exact .percent
  by_cases number : c = '#'
  · subst number
    exact .number
  by_cases question : c = '?'
  · subst question
    exact .question
  have literal : Literal c := ⟨percent, number, question⟩
  rw [escapedChar_of_literal literal]
  exact .literal literal

theorem escaped_cons (c : Char) (text : List Char) :
    escaped (c :: text) = escapedChar c ++ escaped text :=
  List.flatMap_cons

theorem escaped_append (front back : List Char) :
    escaped (front ++ back) = escaped front ++ escaped back :=
  List.flatMap_append

@[simp] theorem escaped_eq_nil_iff : escaped text = [] ↔ text = [] := by
  cases text with
  | nil => simp [escaped]
  | cons c text =>
      have spells := escapes c
      rw [escaped_cons]
      generalize escapedChar c = spelled at spells
      cases spells <;> simp

/-- What starts with a literal character was not escaped there. -/
theorem escaped_eq_cons_iff (literal : Literal c) :
    escaped text = c :: rest ↔ ∃ unescaped, text = c :: unescaped ∧ escaped unescaped = rest := by
  constructor
  · intro starts
    cases text with
    | nil => cases starts
    | cons first text =>
        have spells := escapes first
        rw [escaped_cons] at starts
        generalize escapedChar first = spelled at spells starts
        cases spells with
        | percent | number | question => exact absurd (List.cons.inj starts).1.symm literal.1
        | literal =>
            rcases List.cons.inj starts with ⟨rfl, behind⟩
            exact ⟨text, rfl, behind⟩
  · intro starts
    rcases starts with ⟨unescaped, rfl, rfl⟩
    rw [escaped_cons, escapedChar_of_literal literal, List.singleton_append]

theorem escaped_eq_iff (literal : ∀ c ∈ rest, Literal c) : escaped text = rest ↔ text = rest := by
  induction rest generalizing text with
  | nil => exact escaped_eq_nil_iff
  | cons c rest induction =>
      rcases List.forall_mem_cons.mp literal with ⟨here, later⟩
      rw [escaped_eq_cons_iff here]
      constructor
      · intro starts
        rcases starts with ⟨unescaped, rfl, behind⟩
        rw [(induction later).mp behind]
      · intro same
        exact ⟨rest, same, (induction later).mpr rfl⟩

theorem escaped_eq_self (literal : ∀ c ∈ text, Literal c) : escaped text = text :=
  (escaped_eq_iff literal).mpr rfl

theorem escaped_eq_dot_iff : escaped text = ['.'] ↔ text = ['.'] :=
  escaped_eq_iff (by simp [Literal])

theorem escaped_eq_dots_iff : escaped text = ['.', '.'] ↔ text = ['.', '.'] :=
  escaped_eq_iff (by simp [Literal])

theorem mem_escaped (member : c ∈ escaped text) : c ≠ '?' ∧ c ≠ '#' := by
  rcases List.mem_flatMap.mp member with ⟨first, _, inside⟩
  have spells := escapes first
  generalize escapedChar first = spelled at spells inside
  have apart : '?' ∉ spelled ∧ '#' ∉ spelled := by
    cases spells with
    | percent | number | question => decide
    | literal literal => simpa [eq_comm] using ⟨literal.2.2, literal.2.1⟩
  exact ⟨fun same => apart.1 (same ▸ inside), fun same => apart.2 (same ▸ inside)⟩

theorem unbroken_escaped (text : List Char) :
    unbroken (escaped text) = escaped (unbroken text) := by
  induction text with
  | nil => rfl
  | cons c text induction =>
      have spells := escapes c
      simp only [unbroken] at induction ⊢
      rw [escaped_cons, List.filter_append, induction, List.filter_cons]
      generalize spelledAs : escapedChar c = spelled at spells
      cases spells with
      | percent | number | question => rfl
      | literal => cases breaks : isBreak c <;> simp [breaks, escaped_cons, spelledAs]

theorem dropWhile_isBreak_escaped (text : List Char) :
    (escaped text).dropWhile isBreak = escaped (text.dropWhile isBreak) := by
  induction text with
  | nil => rfl
  | cons c text induction =>
      have spells := escapes c
      rw [escaped_cons, List.dropWhile_cons]
      generalize spelledAs : escapedChar c = spelled at spells
      cases spells with
      | percent | number | question => rfl
      | literal => cases breaks : isBreak c <;> simp [breaks, escaped_cons, spelledAs, induction]

theorem dropEndWhile_escaped (text : List Char) :
    dropEndWhile (·.toNat ≤ 0x20) (escaped text) =
      escaped (dropEndWhile (·.toNat ≤ 0x20) text) := by
  -- From the end: a sequence ends in a character that stays, as what it stands for does.
  induction text using List.reverseRecOn with
  | nil => rfl
  | append_singleton text c induction =>
      have spells := escapes c
      have single : escaped [c] = escapedChar c := List.append_nil _
      rw [escaped_append, single, dropEndWhile_append_singleton]
      generalize spelledAs : escapedChar c = spelled at spells
      cases spells with
      | percent | number | question =>
          rw [if_neg (by decide), escaped_append, single, spelledAs]
          exact dropEndWhile_eq_self (by simp)
      | literal =>
          rw [dropEndWhile_append_singleton, induction, apply_ite escaped, escaped_append, single,
            spelledAs]

theorem slashed_escaped (text : List Char) : slashed (escaped text) = escaped (slashed text) := by
  induction text with
  | nil => rfl
  | cons c text induction =>
      have spells := escapes c
      simp only [slashed] at induction ⊢
      rw [escaped_cons, List.map_append, induction, List.map_cons, escaped_cons]
      generalize spelledAs : escapedChar c = spelled at spells
      cases spells with
      | percent | number | question => rfl
      | literal =>
          by_cases backslash : c = '\\'
          · subst backslash
            rfl
          · rw [if_neg backslash, spelledAs, List.map_singleton, if_neg backslash]

theorem splitOn_escaped (text : List Char) :
    (escaped text).splitOn '/' = (text.splitOn '/').map escaped := by
  induction text with
  | nil => rfl
  | cons c text induction =>
      have spells := escapes c
      rw [escaped_cons]
      by_cases slash : c = '/'
      · subst slash
        rw [splitOn_cons_self, List.map_cons, ← induction]
        exact splitOn_cons_self '/' (escaped text)
      · rcases List.exists_cons_of_ne_nil (List.splitOn_ne_nil '/' text) with ⟨piece, pieces, split⟩
        rw [split] at induction
        rw [List.splitOn_cons_eq_if_modifyHead, split]
        generalize spelledAs : escapedChar c = spelled at spells
        cases spells <;>
          simp [List.splitOn_cons_eq_if_modifyHead, slash, induction, escaped_cons, spelledAs]

end escaped

section dotted

theorem toLower_ne_percent (percent : c ≠ '%') : c.toLower ≠ '%' := by
  unfold Char.toLower
  split
  next upper =>
    intro same
    have value := congrArg (UInt32.toNat ∘ Char.val) same
    have above := UInt32.le_iff_toNat_le.mp upper.1
    have below := UInt32.le_iff_toNat_le.mp upper.2
    simp [UInt32.toNat_add] at value above below
    omega
  next => exact percent

/-- No percent sign of an escaped text starts the sequence of a dot. -/
theorem not_infix_escaped (text : List Char) :
    ¬ "%2e".toList <:+: (escaped text).map Char.toLower := by
  induction text with
  | nil => decide
  | cons c text induction =>
      have spells := escapes c
      rw [escaped_cons, List.map_append]
      generalize escapedChar c = spelled at spells
      cases spells with
      | percent | number | question =>
          simpa [List.infix_cons_iff, List.cons_prefix_cons] using induction
      | literal literal =>
          simpa [List.infix_cons_iff, List.cons_prefix_cons, (toLower_ne_percent literal.1).symm]
            using induction

theorem dotted_escaped (piece : List Char) : dotted (escaped piece) = escaped piece := by
  have noDot := not_infix_escaped (unbroken piece)
  have apart : ∀ segment, "%2e".toList <:+: segment →
      (escaped (unbroken piece)).map Char.toLower ≠ segment := by
    intro segment inside same
    exact noDot (same ▸ inside)
  rw [dotted, unbroken_escaped, if_neg (apart _ (by decide)), if_neg]
  simp only [not_or]
  exact ⟨apart _ (by decide), apart _ (by decide), apart _ (by decide)⟩

end dotted

section walk

theorem literal_of_isAlpha (isAlpha : c.isAlpha) : Literal c := by
  refine ⟨?_, ?_, ?_⟩ <;>
    · intro same
      subst same
      cases isAlpha

theorem literal_of_isBreak (broken : isBreak c) : Literal c := by
  refine ⟨?_, ?_, ?_⟩ <;>
    · intro same
      subst same
      cases broken

theorem literal_of_isDrive (drive : isDrive segment) : ∀ c ∈ segment, Literal c := by
  rcases isDrive_iff.mp drive with ⟨letter, mark, rfl, isAlpha, marked⟩
  refine List.forall_mem_cons.mpr ⟨literal_of_isAlpha isAlpha, List.forall_mem_singleton.mpr ?_⟩
  rcases marked with rfl | rfl <;> decide

theorem isDrive_escaped (segment : List Char) : isDrive (escaped segment) = isDrive segment := by
  rw [Bool.eq_iff_iff]
  constructor
  · intro drive
    have same : segment = escaped segment := (escaped_eq_iff (literal_of_isDrive drive)).mp rfl
    rwa [← same] at drive
  · intro drive
    rwa [escaped_eq_self (literal_of_isDrive drive)]

theorem named_escaped (folders : List (List Char)) (segment : List Char) :
    named (folders.map escaped) (escaped segment) = escaped (named folders segment) := by
  simp only [named, isDrive_escaped, List.map_eq_nil_iff]
  split
  next drives =>
    rcases isDrive_iff.mp drives.2 with ⟨letter, mark, same, isAlpha, _⟩
    have colon : isDrive (segment.take 1 ++ [':']) := by
      simp [same, isDrive, isAlpha]
    rw [escaped_eq_self (literal_of_isDrive drives.2), escaped_eq_self (literal_of_isDrive colon)]
  next => rfl

theorem enter_escaped (folders : List (List Char)) (segment : List Char) :
    enter (folders.map escaped) (escaped segment) = (enter folders segment).map escaped := by
  simp only [enter, escaped_eq_dot_iff, escaped_eq_dots_iff]
  split
  next => rfl
  next =>
    split
    next =>
      cases folders with
      | nil => rfl
      | cons inner outer => simp only [List.map_cons, isDrive_escaped, apply_ite (List.map escaped)]
    next => rw [named_escaped, List.map_cons]

theorem driveAndName?_escaped (folders : List (List Char)) (piece : List Char) :
    driveAndName? (folders.map escaped) (escaped piece) =
      (driveAndName? folders piece).map (Prod.map escaped escaped) := by
  have driveSame {letter : Char} (isAlpha : letter.isAlpha) :
      escaped [letter, ':'] = [letter, ':'] :=
    escaped_eq_self (literal_of_isDrive (by simp [isDrive, isAlpha]))
  apply Option.ext
  intro parted
  rcases parted with ⟨drive, name⟩
  -- The letter, the colon and the gap are literal, so both pieces have them in the same places.
  simp only [driveAndName?_eq_some_iff, Option.map_eq_some_iff, Prod.exists, List.map_eq_nil_iff,
    dropWhile_isBreak_escaped]
  constructor
  · intro parts
    rcases parts with ⟨letter, rest, gap, back, atRoot, letterAt, colonAt, ⟨isAlpha, broken, some⟩,
      rfl, rfl⟩
    rcases (escaped_eq_cons_iff (literal_of_isAlpha isAlpha)).mp letterAt with
      ⟨inner, innerAt, rfl⟩
    rw [dropWhile_isBreak_escaped, escaped_eq_cons_iff (by decide)] at colonAt
    rcases colonAt with ⟨behind, behindAt, gapAt⟩
    rcases (escaped_eq_cons_iff (literal_of_isBreak broken)).mp gapAt with ⟨last, rfl, rfl⟩
    rw [unbroken_escaped, ne_eq, escaped_eq_nil_iff] at some
    refine ⟨_, _, ⟨letter, inner, gap, last, atRoot, innerAt, behindAt, ⟨isAlpha, broken, some⟩,
      rfl, rfl⟩, ?_⟩
    rw [Prod.map, driveSame isAlpha, unbroken_escaped]
  · intro parts
    rcases parts with ⟨_, _, ⟨letter, rest, gap, back, atRoot, letterAt, colonAt,
      ⟨isAlpha, broken, some⟩, rfl, rfl⟩, same⟩
    rw [Prod.map, driveSame isAlpha, ← unbroken_escaped] at same
    cases same
    refine ⟨letter, escaped rest, gap, escaped back, atRoot, ?_, ?_, ⟨isAlpha, broken, ?_⟩, rfl,
      rfl⟩
    · exact (escaped_eq_cons_iff (literal_of_isAlpha isAlpha)).mpr ⟨rest, letterAt, rfl⟩
    · rw [dropWhile_isBreak_escaped, colonAt, escaped_eq_cons_iff (by decide)]
      exact ⟨_, rfl, (escaped_eq_cons_iff (literal_of_isBreak broken)).mpr ⟨back, rfl, rfl⟩⟩
    · rwa [unbroken_escaped, ne_eq, escaped_eq_nil_iff]

theorem pass_escaped (folders : List (List Char)) (piece : List Char) :
    pass (folders.map escaped) (escaped piece) = (pass folders piece).map escaped := by
  rw [AbsoluteId.pass, driveAndName?_escaped, AbsoluteId.pass]
  cases driveAndName? folders piece with
  | none => exact unbroken_escaped piece ▸ enter_escaped folders (unbroken piece)
  | some parted => rfl

theorem finish_escaped (folders : List (List Char)) (piece : List Char) :
    finish (folders.map escaped) (escaped piece) =
      Prod.map (List.map escaped) escaped (finish folders piece) := by
  rw [finish, driveAndName?_escaped, finish]
  cases driveAndName? folders piece with
  | some parted => rfl
  | none =>
      simp only [Option.map_none, unbroken_escaped, escaped_eq_dot_iff, escaped_eq_dots_iff,
        enter_escaped, named_escaped]
      split <;> rfl

theorem walk_escaped (folders pieces : List (List Char)) :
    walk (folders.map escaped) (pieces.map escaped) =
      Prod.map (List.map escaped) escaped (walk folders pieces) := by
  induction pieces generalizing folders with
  | nil => rfl
  | cons piece pieces induction =>
      cases pieces with
      | nil => exact finish_escaped folders piece
      | cons next pieces =>
          rw [List.map_cons, List.map_cons, walk, pass_escaped, walk, ← induction]
          rfl

end walk

section decoded

theorem hexDigit?_digitChar {value : Nat} (small : value < 16) :
    hexDigit? (Nat.digitChar value).toUpper = some value := by
  have all : ∀ value < 16, hexDigit? (Nat.digitChar value).toUpper = some value := by decide
  exact all value small

theorem decoded_percentByte (byte : UInt8) (rest : List Char) :
    decoded (percentByte byte ++ rest) = byte :: decoded rest := by
  have bound : byte.toNat < 256 := byte.toNat_lt
  have high : hexDigit? (Nat.digitChar (byte.toNat / 16)).toUpper = some (byte.toNat / 16) :=
    hexDigit?_digitChar (by omega)
  have low : hexDigit? (Nat.digitChar (byte.toNat % 16)).toUpper = some (byte.toNat % 16) :=
    hexDigit?_digitChar (by omega)
  have joined : UInt8.ofNat (16 * (byte.toNat / 16) + byte.toNat % 16) = byte := by
    rw [Nat.div_add_mod, UInt8.ofNat_toNat]
  have read : byteOf? (Nat.digitChar (byte.toNat / 16)).toUpper
      (Nat.digitChar (byte.toNat % 16)).toUpper = some byte := by
    simp only [byteOf?, high, low, Option.bind_eq_bind, Option.bind_some, joined]
  simp [percentByte, decoded, read]

theorem decoded_percentBytes (bytes : List UInt8) (rest : List Char) :
    decoded (bytes.flatMap percentByte ++ rest) = bytes ++ decoded rest := by
  induction bytes with
  | nil => rfl
  | cons byte bytes induction =>
      rw [List.flatMap_cons, List.append_assoc, decoded_percentByte, induction, List.cons_append]

theorem decoded_encodedChar (percent : c ≠ '%') (rest : List Char) :
    decoded (encodedChar c ++ rest) = String.utf8EncodeChar c ++ decoded rest := by
  rw [encodedChar]
  split
  next =>
    rw [List.singleton_append, decoded]
    exact fun _ _ _ same => absurd same percent
  next => exact decoded_percentBytes _ rest

theorem encoded_singleton (c : Char) : encoded [c] = encodedChar c :=
  List.append_nil (encodedChar c)

theorem encoded_append (front back : List Char) :
    encoded (front ++ back) = encoded front ++ encoded back :=
  List.flatMap_append

theorem encoded_escaped_cons (c : Char) (text : List Char) :
    encoded (escaped (c :: text)) = encoded (escapedChar c) ++ encoded (escaped text) := by
  rw [escaped_cons, encoded_append]

/-- Decoding takes back what escaping an id and encoding it have changed. -/
theorem decoded_encoded_escaped (text : List Char) :
    decoded (encoded (escaped text)) = text.flatMap String.utf8EncodeChar := by
  induction text with
  | nil => rfl
  | cons c text induction =>
      have spells := escapes c
      rw [encoded_escaped_cons, List.flatMap_cons, ← induction]
      generalize escapedChar c = spelled at spells
      cases spells with
      | percent | number | question => rfl
      | literal literal => rw [encoded_singleton, decoded_encodedChar literal.1]

end decoded

section resolved

variable {name path : List Char}

theorem exists_encodedChar (slash : c ≠ '/') :
    ∃ first rest, encodedChar c = first :: rest ∧ first ≠ '/' := by
  rw [encodedChar]
  split
  next => exact ⟨c, [], rfl, slash⟩
  next =>
    rcases List.exists_cons_of_ne_nil (String.utf8EncodeChar_ne_nil (c := c)) with
      ⟨byte, bytes, same⟩
    rw [same]
    exact ⟨'%', _, rfl, by decide⟩

theorem exists_encoded_escapedChar (slash : c ≠ '/') :
    ∃ first rest, encoded (escapedChar c) = first :: rest ∧ first ≠ '/' := by
  have spells := escapes c
  generalize escapedChar c = spelled at spells
  cases spells with
  | percent | number | question => exact ⟨'%', _, rfl, by decide⟩
  | literal =>
      rw [encoded_singleton]
      exact exists_encodedChar slash

theorem spelled_encoded_escaped (folders : List (List Char)) (name : List Char) :
    spelled ((folders.map escaped).map encoded) (encoded (escaped name)) =
      encoded (escaped (spelled folders name)) := by
  have slashed (folders : List (List Char)) :
      ((folders.map escaped).map encoded).flatMap (· ++ ['/']) =
        encoded (escaped (folders.flatMap (· ++ ['/']))) := by
    induction folders with
    | nil => rfl
    | cons folder folders induction =>
        simp only [List.map_cons, List.flatMap_cons, induction, escaped_append, encoded_append]
        rfl
  rw [spelled, spelled, ← List.map_reverse, ← List.map_reverse, slashed, escaped_append,
    encoded_append]

theorem dropWhile_encoded_escaped (text : List Char) :
    (encoded (escaped text)).dropWhile (· == '/') =
      encoded (escaped (text.dropWhile (· == '/'))) := by
  induction text with
  | nil => rfl
  | cons c text induction =>
      by_cases slash : c = '/'
      · subst slash
        exact induction
      · rcases exists_encoded_escapedChar slash with ⟨first, rest, starts, other⟩
        rw [encoded_escaped_cons, starts]
        simp [slash, other, encoded_escaped_cons, starts]

theorem resolved_escaped (walked : walk [] ((slashed path).splitOn '/') = (folders, name)) :
    resolved (escaped path) =
      encoded (escaped ('/' :: (spelled folders name).dropWhile (· == '/'))) := by
  have walkedEscaped := walk_escaped [] ((slashed path).splitOn '/')
  rw [walked, Prod.map, List.map_nil] at walkedEscaped
  have pieces : ((slashed (escaped path)).splitOn '/').map dotted =
      ((slashed path).splitOn '/').map escaped := by
    rw [slashed_escaped, splitOn_escaped, List.map_map]
    exact List.map_congr_left fun piece _ => dotted_escaped piece
  rw [slashed] at pieces
  rw [resolved, pieces]
  simp only [walkedEscaped, spelled_encoded_escaped, dropWhile_encoded_escaped]
  rfl

end resolved

section ids

theorem rooted_escaped (text : List Char) : rooted (escaped text) = escaped (rooted text) := by
  cases text with
  | nil => rfl
  | cons c text =>
      by_cases slash : c = '/'
      · subst slash
        rfl
      · have spells := escapes c
        have inFront : (c :: text).head? ≠ some '/' := by simpa using slash
        rw [rooted.eq_def (c :: text), if_neg inFront, rooted, if_neg]
        · rfl
        · rw [escaped_cons]
          generalize escapedChar c = spelled at spells
          cases spells with
          | percent | number | question => simp
          | literal => simpa using slash

theorem dropEndWhile_ofId (id : String) :
    dropEndWhile (·.toNat ≤ 0x20) (ofId id) =
      scheme ++ escaped (dropEndWhile (·.toNat ≤ 0x20) (rooted id.toList)) := by
  rcases exists_dropEndWhile_rooted id.toList with ⟨tail, slash, kept⟩
  rw [kept, ofId, rooted_escaped, slash, escaped_cons, escaped_cons, ← dropEndWhile_escaped]
  exact dropEndWhile_append_cons scheme (escaped tail) (by decide)

/-- An id always makes a URI, and no character of it is taken for the host, the query or the
fragment. -/
theorem parse_ofId (id : String) : parse (ofId id) =
    .ok { path := resolved (escaped (dropEndWhile (·.toNat ≤ 0x20) (rooted id.toList))) } := by
  have inFront : (ofId id).dropWhile (·.toNat ≤ 0x20) = ofId id := rfl
  rw [parse, inFront, dropEndWhile_ofId, after?_eq_some_iff.mpr rfl]
  rcases exists_dropEndWhile_rooted id.toList with ⟨tail, _, kept⟩
  have noHost : (escaped (dropEndWhile (·.toNat ≤ 0x20) (rooted id.toList))).takeWhile
      (fun c => c ∉ ['/', '\\', '?', '#']) = [] := by
    rw [kept]
    rfl
  have wholePath (text : List Char) :
      (escaped text).takeWhile (fun c => c ∉ ['?', '#']) = escaped text := by
    apply List.takeWhile_eq_self_iff.mpr
    intro c member
    simpa using mem_escaped member
  simp only [noHost, List.length_nil, List.drop_zero, wholePath, ite_self]

theorem fromUTF8?_flatMap_utf8EncodeChar (text : List Char) :
    String.fromUTF8? (text.flatMap String.utf8EncodeChar).toByteArray = some (String.ofList text) :=
  dif_pos (String.ofList text).isValidUTF8

theorem localPath?_encoded_escaped (text : List Char) :
    localPath? { path := encoded (escaped text) } =
      some ⟨String.ofList (if endsInDrive text then text ++ ['/'] else text)⟩ := by
  rw [localPath?, if_neg (by simp), decoded_encoded_escaped, fromUTF8?_flatMap_utf8EncodeChar,
    Option.map_some, String.toList_ofList]
  split
  next => rw [String.ofList_append]
  next => rfl

end ids
end FileUri

theorem Origin.path?_of_absoluteFile (id : String) :
    (Origin.absoluteFile id).path? = .ok (some (AbsoluteId.path id)) := by
  rw [Origin.path?, FileUri.parse_ofId, FileUri.resolved_escaped rfl]
  simp only [FileUri.localPath?_encoded_escaped]
  rfl

end ReloadReport
