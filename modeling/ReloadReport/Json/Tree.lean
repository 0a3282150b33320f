import ReloadReport.Json.Token

/-!
# JSON values from tokens

A machine builds the value from the tokens: on a stack it keeps the arrays and objects that are
still open. An object with a name that spells no text is illegible as a whole. Beside the machine
stands the list of the tokens of a value, and reading that list gives the value back.
-/

namespace ReloadReport.Json

/-! ## The tokens of a value -/

mutual
def tokens : Json → List Token
  | .null => [.null]
  | .bool value => [.bool value]
  | .natural value => [.natural value]
  | .real literal => [.real literal]
  | .string text => [.string text]
  | .array items => .openArray :: (itemTokens items ++ [.closeArray])
  | .object members => .openObject :: (membersTokens members ++ [.closeObject])
  | .illegible => [.garbled]

def itemTokens : List Json → List Token
  | [] => []
  | [item] => item.tokens
  | item :: next :: items => item.tokens ++ .comma :: itemTokens (next :: items)

def membersTokens : List (String × Json) → List Token
  | [] => []
  | [member] => memberTokens member
  | member :: next :: members => memberTokens member ++ .comma :: membersTokens (next :: members)

def memberTokens : String × Json → List Token
  | (name, value) => .string name :: .colon :: value.tokens
end

/-! ## Building a value -/

/-- An open array or object, whose complete elements stand with the last one first. -/
inductive Frame where
  | array (items : List Json)
  | object (members : List (String × Json)) (name : String)
  /-- An object of which a name spells no text. -/
  | illegible
  deriving Repr

inductive Stage where
  | value
  | firstItem
  | firstName
  | name (members : List (String × Json))
  | colon (members : List (String × Json)) (name : String)
  | illegibleName
  | illegibleColon
  | complete (value : Json)
  deriving Repr

def ofToken? : Token → Option Json
  | .null => some .null
  | .bool value => some (.bool value)
  | .natural value => some (.natural value)
  | .real literal => some (.real literal)
  | .string text => some (.string text)
  | .garbled => some .illegible
  | _ => none

def beginValue? (token : Token) (stack : List Frame) : Option (Stage × List Frame) :=
  match token with
  | .openArray => some (.firstItem, stack)
  | .openObject => some (.firstName, stack)
  | token => (ofToken? token).map fun value => (.complete value, stack)

def afterValue? (value : Json) : Token → List Frame → Option (Stage × List Frame)
  | .comma, .array items :: stack => some (.value, .array (value :: items) :: stack)
  | .closeArray, .array items :: stack => some (.complete (.array (value :: items).reverse), stack)
  | .comma, .object members name :: stack => some (.name ((name, value) :: members), stack)
  | .closeObject, .object members name :: stack =>
      some (.complete (.object ((name, value) :: members).reverse), stack)
  | .comma, .illegible :: stack => some (.illegibleName, stack)
  | .closeObject, .illegible :: stack => some (.complete .illegible, stack)
  | _, _ => none

def build? : Stage → List Frame → Token → Option (Stage × List Frame)
  | .value, stack, token => beginValue? token stack
  | .firstItem, stack, .closeArray => some (.complete (.array []), stack)
  | .firstItem, stack, token => beginValue? token (.array [] :: stack)
  | .firstName, stack, .closeObject => some (.complete (.object []), stack)
  | .firstName, stack, .string name => some (.colon [] name, stack)
  | .firstName, stack, .garbled => some (.illegibleColon, stack)
  | .name members, stack, .string name => some (.colon members name, stack)
  | .name _, stack, .garbled => some (.illegibleColon, stack)
  | .colon members name, stack, .colon => some (.value, .object members name :: stack)
  | .illegibleName, stack, .string _ => some (.illegibleColon, stack)
  | .illegibleName, stack, .garbled => some (.illegibleColon, stack)
  | .illegibleColon, stack, .colon => some (.value, .illegible :: stack)
  | .complete value, stack, token => afterValue? value token stack
  | _, _, _ => none

def valueFrom? : Stage → List Frame → List Token → Option Json
  | .complete value, [], [] => some value
  | _, _, [] => none
  | stage, stack, token :: tokens =>
      (build? stage stack token).bind fun (next, frames) => valueFrom? next frames tokens

def ofTokens? (tokens : List Token) : Option Json :=
  valueFrom? .value [] tokens

def ofText? (text : List Char) : Option Json :=
  (Token.ofText? text).bind ofTokens?

/-! ## Reading back -/

/-- The first token of a value never ends an array, so a first item stands where any item may. -/
theorem valueFrom?_firstItem (value : Json) (stack : List Frame) (rest : List Token) :
    valueFrom? .firstItem stack (value.tokens ++ rest) =
      valueFrom? .value (.array [] :: stack) (value.tokens ++ rest) := by
  cases value <;> rfl

mutual

theorem valueFrom?_tokens (value : Json) (stack : List Frame) (rest : List Token) :
    valueFrom? .value stack (value.tokens ++ rest) = valueFrom? (.complete value) stack rest := by
  cases value with
  | null => rfl
  | bool value => rfl
  | natural value => rfl
  | real literal => rfl
  | string text => rfl
  | illegible => rfl
  | array items =>
      cases items with
      | nil => rfl
      | cons item items =>
          change valueFrom? .firstItem stack
            (itemTokens (item :: items) ++ [.closeArray] ++ rest) = _
          have first : valueFrom? .firstItem stack
              (itemTokens (item :: items) ++ .closeArray :: rest) =
                valueFrom? .value (.array [] :: stack)
                  (itemTokens (item :: items) ++ .closeArray :: rest) := by
            cases items with
            | nil => exact valueFrom?_firstItem item stack _
            | cons next items =>
                simpa [itemTokens] using valueFrom?_firstItem item stack _
          rw [List.append_assoc, List.singleton_append, first,
            valueFrom?_itemTokens item items [] stack rest]
          rfl
  | object members =>
      cases members with
      | nil => rfl
      | cons member members =>
          change valueFrom? .firstName stack
            (membersTokens (member :: members) ++ [.closeObject] ++ rest) = _
          have first : valueFrom? .firstName stack
              (membersTokens (member :: members) ++ .closeObject :: rest) =
                valueFrom? (.name []) stack
                  (membersTokens (member :: members) ++ .closeObject :: rest) := by
            obtain ⟨name, value⟩ := member
            cases members <;> rfl
          rw [List.append_assoc, List.singleton_append, first,
            valueFrom?_membersTokens member members [] stack rest]
          rfl
termination_by sizeOf value

theorem valueFrom?_itemTokens (item : Json) (items done : List Json) (stack : List Frame)
    (rest : List Token) :
    valueFrom? .value (.array done :: stack)
        (itemTokens (item :: items) ++ .closeArray :: rest) =
      valueFrom? (.complete (.array (done.reverse ++ item :: items))) stack rest := by
  cases items with
  | nil =>
      have complete := valueFrom?_tokens item (.array done :: stack) (.closeArray :: rest)
      rw [itemTokens, complete]
      simp [valueFrom?, build?, afterValue?]
  | cons next items =>
      have complete := valueFrom?_tokens item (.array done :: stack)
        (.comma :: (itemTokens (next :: items) ++ .closeArray :: rest))
      rw [itemTokens, List.append_assoc, List.cons_append, complete]
      have following := valueFrom?_itemTokens next items (item :: done) stack rest
      simpa [valueFrom?, build?, afterValue?] using following
termination_by sizeOf (item :: items)

/-- Where a further name may stand, the tokens of the last members and the end of the object
complete it. -/
theorem valueFrom?_membersTokens (member : String × Json) (members done : List (String × Json))
    (stack : List Frame) (rest : List Token) :
    valueFrom? (.name done) stack
        (membersTokens (member :: members) ++ .closeObject :: rest) =
      valueFrom? (.complete (.object (done.reverse ++ member :: members))) stack rest := by
  obtain ⟨name, value⟩ := member
  cases members with
  | nil =>
      have complete := valueFrom?_tokens value (.object done name :: stack) (.closeObject :: rest)
      simpa [membersTokens, memberTokens, valueFrom?, build?, afterValue?] using complete
  | cons next members =>
      have complete := valueFrom?_tokens value (.object done name :: stack)
        (.comma :: (membersTokens (next :: members) ++ .closeObject :: rest))
      have following := valueFrom?_membersTokens next members ((name, value) :: done) stack rest
      simp only [membersTokens, memberTokens, valueFrom?, build?, afterValue?, List.append_assoc,
        List.cons_append, Option.bind_some]
      rw [complete]
      simpa [valueFrom?, build?, afterValue?] using following
termination_by sizeOf (member :: members)

end

theorem ofTokens?_tokens (value : Json) : ofTokens? value.tokens = some value := by
  have complete := valueFrom?_tokens value [] []
  rw [List.append_nil] at complete
  exact complete

end ReloadReport.Json
