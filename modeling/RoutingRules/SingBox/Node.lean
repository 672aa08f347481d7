import RoutingRules.Json.Value
import RoutingRules.Number.Natural

/-!
# Rule trees of sing-box

A rule of sing-box is a leaf or a logical rule over others.  The values of one field of a leaf are
alternatives, and all its fields have to hold; references to rule sets count as one more field.
A logical rule joins its children by its mode.  All other fields are kept as they are; one of
them can turn the meaning of a rule around.
-/

namespace RoutingRules.SingBox

/-- How a logical rule joins its children. -/
inductive Mode where
  | and
  | or
deriving DecidableEq, Repr

/-- The name of a mode. -/
def Mode.name : Mode → String
  | .and => "and"
  | .or => "or"

/-- All modes. -/
def Mode.all : List Mode :=
  [.and, .or]

/-- The mode of a name. -/
def Mode.ofName? (name : String) : Option Mode :=
  Mode.all.find? fun mode => mode.name = name

/-! ## Leaves -/

/-- A rule that is not a logical one. -/
structure Leaf where
  /-- The fields with conditions, each with its alternatives. -/
  conditions : SortedMap (List Json)
  /-- The tags of rule sets. -/
  references : List String
  /-- The other fields. -/
  extra : SortedMap Json
deriving DecidableEq

namespace Leaf

/-- The leaf without fields. -/
def empty : Leaf :=
  ⟨.empty, [], .empty⟩

/-- The leaf with given conditions only. -/
def ofConditions (conditions : SortedMap (List Json)) : Leaf :=
  { empty with conditions }

/-- Add an alternative to a field. -/
def push (leaf : Leaf) (field : String) (value : Json) : Leaf :=
  let values := (leaf.conditions.get? field).getD []
  { leaf with conditions := leaf.conditions.insert field (values ++ [value]) }

/-- Add alternatives to fields one after another. -/
def pushAll (leaf : Leaf) (fields : List (String × Json)) : Leaf :=
  fields.foldl (fun leaf f => leaf.push f.1 f.2) leaf

/-- How many alternatives the fields with conditions have in all. -/
def cardinality (leaf : Leaf) : Nat :=
  Number.total (leaf.conditions.values.map List.length)

/-- Whether nothing is there but a single reference. -/
def isBareReference (leaf : Leaf) : Bool :=
  leaf.conditions.isEmpty && leaf.extra.isEmpty && leaf.references.length = 1

/-- Whether there are neither conditions nor references. -/
def isEmpty (leaf : Leaf) : Bool :=
  leaf.conditions.isEmpty && leaf.references.isEmpty

end Leaf

/-! ## Trees -/

/-- A rule without its action. -/
inductive Node where
  | leaf (leaf : Leaf)
  | logical (mode : Mode) (children : List Node) (extra : SortedMap Json)

namespace Node

mutual

/-- How many alternatives the leaves of a rule have in all. -/
def cardinality : Node → Nat
  | leaf l => l.cardinality
  | logical _ children _ => cardinalityOfAll children

/-- The alternatives of several rules. -/
def cardinalityOfAll : List Node → Nat
  | [] => 0
  | node :: nodes => cardinality node + cardinalityOfAll nodes

end

/-! ## Equality -/

mutual

/-- Equality of rules. -/
def same : Node → Node → Bool
  | leaf a, leaf b => a = b
  | logical m xs e, logical n ys f => m = n && sameAll xs ys && e = f
  | _, _ => false

/-- Equality of lists of rules. -/
def sameAll : List Node → List Node → Bool
  | [], [] => true
  | x :: xs, y :: ys => same x y && sameAll xs ys
  | _, _ => false

end

mutual

theorem eq_of_same : ∀ {a b : Node}, same a b = true → a = b
  | leaf _, b, h => by cases b <;> simp_all [same]
  | logical _ xs _, b, h => by
    cases b with
    | leaf _ => simp [same] at h
    | logical _ ys _ =>
      simp only [same, Bool.and_eq_true, decide_eq_true_eq] at h
      rw [h.1.1, eq_of_sameAll h.1.2, h.2]

theorem eq_of_sameAll : ∀ {xs ys : List Node}, sameAll xs ys = true → xs = ys
  | [], ys, h => by cases ys <;> simp_all [sameAll]
  | x :: xs, ys, h => by
    cases ys with
    | nil => simp [sameAll] at h
    | cons y ys =>
      simp only [sameAll, Bool.and_eq_true] at h
      rw [eq_of_same h.1, eq_of_sameAll h.2]

end

mutual

theorem same_self : ∀ a : Node, same a a = true
  | leaf _ => by simp [same]
  | logical _ xs _ => by simpa [same] using sameAll_self xs

theorem sameAll_self : ∀ xs : List Node, sameAll xs xs = true
  | [] => by simp [sameAll]
  | x :: xs => by simp [sameAll, same_self x, sameAll_self xs]

end

instance : DecidableEq Node := fun a b =>
  if h : same a b = true then .isTrue (eq_of_same h)
  else .isFalse fun heq => h (heq ▸ same_self a)

end Node

end RoutingRules.SingBox
