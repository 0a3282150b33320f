import ReloadReport.Json.Magnitude
import ReloadReport.Json.Tree

/-!
# Limits on JSON values

Some well-formed values are beyond what can be read: arrays and objects at too great a depth, and
numbers beyond the doubles. They are illegible like strings that spell no text. A value is read as
long as nothing that is illegible has to be looked at.
-/

namespace ReloadReport.Json

def maxDepth : Nat := 127

mutual

/-- The value with everything beyond the limits made illegible, where arrays and objects may stand
in each other to a depth. -/
def limited (depth : Nat) : Json → Json
  | .natural value =>
      if value < UInt64.size ∨ isWithinDoubles (Nat.toDigits 10 value) then .natural value
      else .illegible
  | .real literal => if isWithinDoubles literal.toList then .real literal else .illegible
  | .array items =>
      match depth with
      | 0 => .illegible
      | depth + 1 => .array (limitedItems depth items)
  | .object members =>
      match depth with
      | 0 => .illegible
      | depth + 1 => .object (limitedMembers depth members)
  | value => value

def limitedItems (depth : Nat) : List Json → List Json
  | [] => []
  | item :: items => limited depth item :: limitedItems depth items

def limitedMembers (depth : Nat) : List (String × Json) → List (String × Json)
  | [] => []
  | member :: members => limitedMember depth member :: limitedMembers depth members

def limitedMember (depth : Nat) : String × Json → String × Json
  | (name, value) => (name, limited depth value)

end

def parse? (text : String) : Option Json :=
  (ofText? text.toList).map (limited maxDepth)

mutual

def isLegible : Json → Bool
  | .illegible => false
  | .array items => areLegible items
  | .object members => membersLegible members
  | _ => true

def areLegible : List Json → Bool
  | [] => true
  | item :: items => isLegible item && areLegible items

def membersLegible : List (String × Json) → Bool
  | [] => true
  | member :: members => memberLegible member && membersLegible members

def memberLegible : String × Json → Bool
  | (_, value) => isLegible value

end

theorem limitedItems_eq_map (depth : Nat) (items : List Json) :
    limitedItems depth items = items.map (limited depth) := by
  induction items with
  | nil => rfl
  | cons item items induction => simp [limitedItems, induction]

theorem areLegible_eq_all (items : List Json) : areLegible items = items.all isLegible := by
  induction items with
  | nil => rfl
  | cons item items induction => simp [areLegible, induction]

/-- A number that is too great, and an array that stands too deep. -/
example : limited 1 (.array [.real "1e309", .real "1e308", .array []]) =
    .array [.illegible, .real "1e308", .illegible] := by
  simp [limited, limitedItems]
  decide +kernel

end ReloadReport.Json
