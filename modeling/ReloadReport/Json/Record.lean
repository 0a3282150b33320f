import ReloadReport.ByName
import ReloadReport.Json.Limits

/-!
# Records in JSON

A record with known fields is an object, in which the order of the members does not matter and
unknown members are passed over, or an array of its fields in order. A tagged record has one more
member that says what it is, or an array with that word in front.

A tagged record is taken in as a whole before its tag tells how to read it. So nothing in it may be
illegible, not even what is passed over, and some of what stands inside it can be given in one more
way.
-/

namespace ReloadReport.Json

structure Field where
  name : String
  /-- Whether a record that is given as an array may end before this field. -/
  mayEnd : Bool := false
  deriving DecidableEq, Repr

structure Record where
  values : List (String × Json)
  deriving Repr

namespace Record

def ofMembers? (fields : List Field) (members : List (String × Json)) : Option Record :=
  let known := members.filter fun member => fields.any (·.name == member.1)
  if (known.map Prod.fst).Nodup then some ⟨known⟩ else none

def ofItems? (fields : List Field) (items : List Json) : Option Record :=
  if items.length ≤ fields.length ∧ (fields.drop items.length).all (·.mayEnd) then
    some ⟨(fields.map Field.name).zip items⟩
  else none

def ofJson? (fields : List Field) : Json → Option Record
  | .object members => ofMembers? fields members
  | .array items => ofItems? fields items
  | _ => none

def find? (record : Record) (name : String) : Option Json :=
  record.values.lookup name

def required (record : Record) (name : String) (read : Json → Option α) : Option α :=
  (record.find? name).bind read

def optional (record : Record) (name : String) (read : Json → Option α) : Option (Option α) :=
  match record.find? name with
  | none => some none
  | some value => value.optional? read

def defaulted (record : Record) (name : String) (default : α) (read : Json → Option α) :
    Option α :=
  match record.find? name with
  | none => some default
  | some value => read value

end Record

inductive Scope where
  | plain
  | tagged
  deriving DecidableEq, Repr

/-- The kind that a tag names. Inside another tagged record, the number of the kind may stand for
its word. -/
def kind? (kinds : List String) : Scope → Json → Option String
  | _, .string kind => if kind ∈ kinds then some kind else none
  | .tagged, .natural number => kinds[number]?
  | _, _ => none

/-- The tag of a record and the record without it. The tag is given once, anywhere in an object or
in front of an array. -/
def splitTag? (tag : String) : Json → Option (Json × Json)
  | .object members =>
      match members.filter (·.1 == tag) with
      | [(_, kind)] => some (kind, .object (members.filter (·.1 != tag)))
      | _ => none
  | .array (kind :: items) => some (kind, .array items)
  | _ => none

def tagged? (tag : String) (kinds : List String) (scope : Scope) (value : Json) :
    Option (String × Json) :=
  if value.isLegible then
    (splitTag? tag value).bind fun (kind, rest) =>
      (kind? kinds scope kind).map fun kind => (kind, rest)
  else none

def memberIfSome (name : String) (write : α → Json) : Option α → List (String × Json)
  | none => []
  | some value => [(name, write value)]

def withTag (tag kind : String) (members : List (String × Json)) : Json :=
  .object ((tag, .string kind) :: members)

def member? (read : Json → Option α) : String × Json → Option (String × α)
  | (name, value) => (read value).map fun value => (name, value)

/-- A map from names to values is an object, in which the last value of a name counts. All values
have to be readable. -/
def map? (read : Json → Option α) : Json → Option (ByName α)
  | .object members => (members.mapM (member? read)).map ByName.ofList
  | _ => none

def ofMap (write : α → Json) (values : ByName α) : Json :=
  .object (values.entries.map fun (name, value) => (name, write value))

end ReloadReport.Json
