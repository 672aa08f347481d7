import RoutingRules.Yaml.Token

/-!
# Nodes of YAML documents

The structure of a document before scalars have been given their types: scalars as they are
written, collections, and references to nodes that carry an anchor.
-/

namespace RoutingRules.Yaml

/-- The marks in front of a node. -/
structure Marks where
  anchor : Option String
  /-- The tag with its handle replaced by what the handle stands for. -/
  tag : Option Tag
deriving DecidableEq, Repr

/-- A node without marks. -/
def Marks.none : Marks :=
  ⟨Option.none, Option.none⟩

/-- A node of a document.  How nodes with anchors are referred to is left open: by the name of the
anchor as written, by a number, or, once all references have been followed, not at all. -/
inductive Node (ρ : Type) where
  | reference (target : ρ)
  | scalar (marks : Marks) (style : ScalarStyle) (text : String)
  | seq (marks : Marks) (items : List (Node ρ))
  | map (marks : Marks) (entries : List (Node ρ × Node ρ))
deriving Inhabited

namespace Node

variable {ρ : Type}

/-- The scalar that stands where nothing is written. -/
def empty : Node ρ :=
  .scalar .none .plain ""

mutual

/-- How many steps it takes to read a node: one for a scalar or a reference, two for the ends of a
collection. -/
def steps : Node ρ → Nat
  | reference _ => 1
  | scalar _ _ _ => 1
  | seq _ items => 2 + stepsOfItems items
  | map _ entries => 2 + stepsOfEntries entries

/-- The steps of all items. -/
def stepsOfItems : List (Node ρ) → Nat
  | [] => 0
  | item :: items => item.steps + stepsOfItems items

/-- The steps of all keys and values. -/
def stepsOfEntries : List (Node ρ × Node ρ) → Nat
  | [] => 0
  | (key, value) :: entries => key.steps + value.steps + stepsOfEntries entries

end

end Node

end RoutingRules.Yaml
