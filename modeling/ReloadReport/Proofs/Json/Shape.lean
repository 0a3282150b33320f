import Mathlib.Data.List.Perm.Basic
import ReloadReport.Proofs.Json.Sound
import ReloadReport.Json.Record

/-!
# Shapes of JSON values

Which parts of a value are read as records, lists and maps. By its shape it is known which changes
of a value make no difference: another order of members, and members that no record knows. And it is
known which members may not be repeated.
-/

namespace ReloadReport.Json

/-- How the parts of a value are read. -/
inductive Shape where
  | whole
  | list (item : Shape)
  | map (value : Shape)
  | record (fields : List (String × Shape))
  | tagged (tag : String) (kinds : List (String × List (String × Shape)))

def tagOf? (tag : String) : Json → Option Json
  | .object members => members.lookup tag
  | .array items => items.head?
  | _ => none

namespace Shape

def fieldsOfKind (kinds : List (String × List (String × Shape))) (scope : Scope)
    (given : Option Json) : List (String × Shape) :=
  ((given.bind (kind? (kinds.map Prod.fst) scope)).bind fun kind => kinds.lookup kind).getD []

def fields (scope : Scope) (value : Json) : Shape → List (String × Shape)
  | .record fields => fields
  | .tagged tag kinds => (tag, .whole) :: fieldsOfKind kinds scope (tagOf? tag value)
  | _ => []

def IsRecord : Shape → Prop
  | .record _ | .tagged _ _ => True
  | _ => False

def within (scope : Scope) : Shape → Scope
  | .tagged _ _ => .tagged
  | _ => scope

/-- The shape of a member of a value. A member that is passed over is whole. -/
def ofMember (scope : Scope) (value : Json) (name : String) : Shape → Shape
  | .map held => held
  | shape => ((shape.fields scope value).lookup name).getD .whole

/-- The shape of an item of a value. A record that is an array has its fields in order. -/
def ofItem (scope : Scope) (value : Json) (index : Nat) : Shape → Shape
  | .list item => item
  | shape => (((shape.fields scope value).map Prod.snd)[index]?).getD .whole

section lookups

variable {scope : Scope} {value : Json} {members : List (String × Shape)} {name tag : String}
  {index : Nat} {kinds : List (String × List (String × Shape))}

theorem ofMember_record :
    (record members).ofMember scope value name = (members.lookup name).getD .whole := rfl

theorem ofItem_record :
    (record members).ofItem scope value index = ((members.map Prod.snd)[index]?).getD .whole := rfl

theorem ofMember_tagged : (tagged tag kinds).ofMember scope value name =
    (((tag, whole) :: fieldsOfKind kinds scope (tagOf? tag value)).lookup name).getD .whole := rfl

theorem ofItem_tagged : (tagged tag kinds).ofItem scope value index =
    ((((tag, whole) :: fieldsOfKind kinds scope (tagOf? tag value)).map Prod.snd)[index]?).getD
      .whole := rfl

end lookups

theorem within_tagged (shape : Shape) : shape.within .tagged = .tagged := by
  cases shape <;> rfl

end Shape

/-- A change of a value of some shape that readers of the shape do not notice. The names of a map
may come in another order if each comes once. Where a tagged record is around it, even a value that
is passed over has to be legible. -/
inductive Changed : Scope → Shape → Json → Json → Prop
  | permuted {members others : List (String × Json)} (same : members.Perm others)
      (distinct : ∀ held, shape = .map held → (members.map Prod.fst).Nodup) :
      Changed scope shape (.object members) (.object others)
  | inserted {front back : List (String × Json)} {name : String} {value : Json}
      (isRecord : shape.IsRecord)
      (unknown : name ∉ (shape.fields scope (.object (front ++ back))).map Prod.fst)
      (legible : shape.within scope = .tagged → value.isLegible) :
      Changed scope shape (.object (front ++ back)) (.object (front ++ (name, value) :: back))
  | member {front back : List (String × Json)} {name : String} {value other : Json}
      (inside : Changed (shape.within scope)
        (shape.ofMember scope (.object (front ++ (name, value) :: back)) name) value other) :
      Changed scope shape (.object (front ++ (name, value) :: back))
        (.object (front ++ (name, other) :: back))
  | item {front back : List Json} {value other : Json}
      (inside : Changed (shape.within scope)
        (shape.ofItem scope (.array (front ++ value :: back)) front.length) value other) :
      Changed scope shape (.array (front ++ value :: back)) (.array (front ++ other :: back))

/-- In a value of some shape, a record has a member twice that it knows. -/
inductive Repeats : Scope → Shape → Json → Prop
  | here {front middle back : List (String × Json)} {name : String} {value again : Json}
      (known : name ∈ (shape.fields scope
        (.object (front ++ (name, value) :: middle ++ (name, again) :: back))).map Prod.fst) :
      Repeats scope shape (.object (front ++ (name, value) :: middle ++ (name, again) :: back))
  | member {front back : List (String × Json)} {name : String} {value : Json}
      (inside : Repeats (shape.within scope)
        (shape.ofMember scope (.object (front ++ (name, value) :: back)) name) value) :
      Repeats scope shape (.object (front ++ (name, value) :: back))
  | item {front back : List Json} {value : Json}
      (inside : Repeats (shape.within scope)
        (shape.ofItem scope (.array (front ++ value :: back)) front.length) value) :
      Repeats scope shape (.array (front ++ value :: back))

section changes

variable {scope : Scope} {shape : Shape} {value other : Json}

theorem isLegible_object {members : List (String × Json)} :
    isLegible (.object members) ↔ ∀ member ∈ members, isLegible member.2 := by
  have here : ∀ member : String × Json, memberLegible member = isLegible member.2 := by
    rintro ⟨name, value⟩
    rw [memberLegible]
  simp only [isLegible, membersLegible_eq_all, List.all_eq_true, here]

theorem isLegible_array {items : List Json} :
    isLegible (.array items) ↔ ∀ item ∈ items, isLegible item := by
  rw [isLegible, areLegible_eq_all, List.all_eq_true]

theorem Changed.isLegible (changed : Changed scope shape value other)
    (inside : shape.within scope = .tagged) (legible : value.isLegible) : other.isLegible := by
  induction changed with
  | permuted same =>
      rw [isLegible_object] at legible ⊢
      exact fun member there => legible member (same.mem_iff.mpr there)
  | inserted _ _ legibleValue =>
      rw [isLegible_object, List.forall_mem_append] at legible ⊢
      exact ⟨legible.1, List.forall_mem_cons.mpr ⟨legibleValue inside, legible.2⟩⟩
  | member _ induction =>
      rw [isLegible_object, List.forall_mem_append, List.forall_mem_cons] at legible ⊢
      rcases legible with ⟨inFront, here, inBack⟩
      exact ⟨inFront, induction (inside ▸ Shape.within_tagged _) here, inBack⟩
  | item _ induction =>
      rw [isLegible_array, List.forall_mem_append, List.forall_mem_cons] at legible ⊢
      rcases legible with ⟨inFront, here, inBack⟩
      exact ⟨inFront, induction (inside ▸ Shape.within_tagged _) here, inBack⟩

theorem not_repeats_whole : ¬ Repeats scope .whole value := by
  intro repeats
  generalize same : Shape.whole = shape at repeats
  induction repeats with
  | here known =>
      subst same
      cases known
  | member _ induction =>
      subst same
      exact induction rfl
  | item _ induction =>
      subst same
      exact induction rfl

end changes
end ReloadReport.Json
