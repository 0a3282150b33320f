import ReloadReport.Text.Numeral

/-!
# JSON values

The values that the reload tools exchange. Numbers that can be counts keep their value; all other
numbers are kept as they are written, since no field takes them.
-/

namespace ReloadReport

/-- A JSON value. The members of an object keep their order and their repetitions, which the
readers of records judge. -/
inductive Json where
  | null
  | bool (value : Bool)
  | natural (value : Nat)
  | real (literal : String)
  | string (text : String)
  | array (items : List Json)
  | object (members : List (String × Json))
  /-- A well-formed value that has no meaning. It can be passed over, and never be read. -/
  | illegible
  deriving Repr

namespace Json

def text? : Json → Option String
  | .string text => some text
  | _ => none

def truth? : Json → Option Bool
  | .bool value => some value
  | _ => none

def natural? : Json → Option Nat
  | .natural value => some value
  | _ => none

def word32? (value : Json) : Option UInt32 :=
  value.natural?.bind Text.word32?

def word64? (value : Json) : Option UInt64 :=
  value.natural?.bind Text.word64?

def ofWord32 (word : UInt32) : Json :=
  .natural word.toNat

def ofWord64 (word : UInt64) : Json :=
  .natural word.toNat

def items? : Json → Option (List Json)
  | .array items => some items
  | _ => none

def listOf? (read : Json → Option α) (value : Json) : Option (List α) :=
  value.items?.bind (List.mapM read)

def optional? (read : Json → Option α) : Json → Option (Option α)
  | .null => some none
  | value => (read value).map some

def ofList (write : α → Json) (values : List α) : Json :=
  .array (values.map write)

def ofOption (write : α → Json) : Option α → Json
  | none => .null
  | some value => write value

@[simp] theorem text?_string (text : String) : (Json.string text).text? = some text := rfl

@[simp] theorem truth?_bool (value : Bool) : (Json.bool value).truth? = some value := rfl

@[simp] theorem natural?_natural (value : Nat) : (Json.natural value).natural? = some value := rfl

@[simp] theorem word32?_ofWord32 (word : UInt32) : (ofWord32 word).word32? = some word :=
  Text.word32?_toNat word

@[simp] theorem word64?_ofWord64 (word : UInt64) : (ofWord64 word).word64? = some word :=
  Text.word64?_toNat word

@[simp] theorem items?_array (items : List Json) : (Json.array items).items? = some items := rfl

theorem listOf?_ofList {read : Json → Option α} {write : α → Json}
    (reads : ∀ value, read (write value) = some value) (values : List α) :
    listOf? read (ofList write values) = some values := by
  induction values with
  | nil => rfl
  | cons value values induction =>
      have rest : (values.map write).mapM read = some values := induction
      simp [listOf?, ofList, items?, reads, rest]

end Json
end ReloadReport
