import RoutingRules.Proofs.SortedMap
import RoutingRules.SingBox.Node

/-!
# What rules of sing-box match

This module says when a rule of sing-box holds of a connection.  A connection is an arbitrary
assignment of truth to the alternatives of condition fields, to the tags of rule sets and to all
other fields, so that a law over all connections is a law about the rules alone.

The condition fields of a leaf fall into groups: every group that is present has to hold, and it
holds when one alternative of one of its fields does.  Which fields share a group is a parameter;
with the identity every field is a group of its own.

Main results:

- Theorem {lit}`Node.ruleInduction`: induction over rules, with the children of a logical rule
  as a list.
-/

namespace RoutingRules.SingBox

/-! ## Connections -/

/-- What is known of a connection: the alternatives of condition fields that it meets, the rule
sets that it is in and the other fields that it passes. -/
structure Connection where
  meets : String → Json → Bool
  inSet : String → Bool
  passes : String → Json → Bool

/-- The field that turns the meaning of a rule around. -/
def invertKey : String :=
  "invert"

/-- Whether the meaning of a rule is turned around. -/
def isInverted (extra : SortedMap Json) : Bool :=
  extra.get? invertKey = some (.bool true)

/-- The verdict of a rule with the given other fields, when its conditions or its children
amount to `core`. -/
def Connection.judge (σ : Connection) (extra : SortedMap Json) (core : Bool) : Bool :=
  isInverted extra ^^ (core && extra.entries.all fun e => e.1 = invertKey || σ.passes e.1 e.2)

/-- A rule without other fields is judged by its conditions or its children alone. -/
@[simp] theorem Connection.judge_empty (σ : Connection) (core : Bool) :
    σ.judge .empty core = core := by
  have hplain : isInverted .empty = false := by decide
  rw [judge, hplain, Bool.false_xor]
  exact Bool.and_true core

/-- The truth of a logical rule from that of its children. -/
def Mode.join : Mode → List Bool → Bool
  | .and, truths => truths.all id
  | .or, truths => truths.any id

/-! ## Leaves -/

namespace Leaf

/-- Whether every group of condition fields has an alternative that holds. -/
def conditionsHold {γ : Type} [DecidableEq γ] (group : String → γ) (σ : Connection)
    (conditions : SortedMap (List Json)) : Bool :=
  conditions.entries.all fun e =>
    conditions.entries.any fun f => group f.1 = group e.1 && f.2.any (σ.meets f.1)

/-- Whether one of the rule sets that a leaf refers to has the connection. -/
def inSomeSet (σ : Connection) (leaf : Leaf) : Bool :=
  leaf.references.any σ.inSet

/-- Whether the references hold as a field of their own, which may be absent. -/
def referencesHold (σ : Connection) (leaf : Leaf) : Bool :=
  leaf.references.isEmpty || leaf.inSomeSet σ

/-- Whether a leaf holds of a connection. -/
def holds {γ : Type} [DecidableEq γ] (group : String → γ) (σ : Connection) (leaf : Leaf) : Bool :=
  σ.judge leaf.extra (conditionsHold group σ leaf.conditions && leaf.referencesHold σ)

end Leaf

/-! ## Rules -/

namespace Node

mutual

/-- Whether a rule holds of a connection, when the truth of its leaves is given. -/
def holdsBy (σ : Connection) (truth : Leaf → Bool) : Node → Bool
  | leaf l => truth l
  | logical mode children extra => σ.judge extra (mode.join (truthsBy σ truth children))

/-- Which of several rules hold of a connection. -/
def truthsBy (σ : Connection) (truth : Leaf → Bool) : List Node → List Bool
  | [] => []
  | node :: nodes => holdsBy σ truth node :: truthsBy σ truth nodes

end

/-- Whether a rule holds of a connection. -/
def holds {γ : Type} [DecidableEq γ] (group : String → γ) (σ : Connection) (node : Node) : Bool :=
  node.holdsBy σ (Leaf.holds group σ)

mutual

/-- The leaves of a rule from left to right. -/
def leaves : Node → List Leaf
  | leaf l => [l]
  | logical _ children _ => leavesOfAll children

/-- The leaves of several rules. -/
def leavesOfAll : List Node → List Leaf
  | [] => []
  | node :: nodes => leaves node ++ leavesOfAll nodes

end

/-- The tags that the leaves of a rule refer to. -/
def references (node : Node) : List String :=
  node.leaves.flatMap Leaf.references

/-! ## Induction over rules -/

/-- Induction over rules: a law holds of every rule when it holds of leaves and passes from the
children of a logical rule to the rule. -/
@[elab_as_elim]
theorem ruleInduction {motive : Node → Prop} (leaf : ∀ l, motive (leaf l))
    (logical : ∀ mode children extra, (∀ child ∈ children, motive child) →
      motive (logical mode children extra)) (node : Node) : motive node :=
  @Node.rec motive (fun nodes => ∀ child ∈ nodes, motive child) leaf logical
    (by simp) (fun _ _ hchild hothers => List.forall_mem_cons.2 ⟨hchild, hothers⟩) node

/-! ## Rules one after another -/

theorem truthsBy_eq_map (σ : Connection) (truth : Leaf → Bool) (nodes : List Node) :
    truthsBy σ truth nodes = nodes.map (holdsBy σ truth) := by
  induction nodes with
  | nil => rfl
  | cons node nodes ih => rw [truthsBy, ih, List.map_cons]

theorem leavesOfAll_eq_flatMap (nodes : List Node) : leavesOfAll nodes = nodes.flatMap leaves := by
  induction nodes with
  | nil => rfl
  | cons node nodes ih => rw [leavesOfAll, ih, List.flatMap_cons]

/-- The leaves of a child are leaves of the rule. -/
theorem mem_leaves_logical {mode : Mode} {children : List Node} {extra : SortedMap Json}
    {l : Leaf} :
    l ∈ (logical mode children extra).leaves ↔ ∃ child ∈ children, l ∈ child.leaves := by
  rw [leaves, leavesOfAll_eq_flatMap, List.mem_flatMap]

/-- The tags that a child refers to are among those of the rule. -/
theorem references_subset_logical {mode : Mode} {children : List Node} {extra : SortedMap Json}
    {child : Node} (hchild : child ∈ children) :
    child.references ⊆ (logical mode children extra).references := by
  intro tag htag
  obtain ⟨l, hl, htag⟩ := List.mem_flatMap.1 htag
  exact List.mem_flatMap.2 ⟨l, mem_leaves_logical.2 ⟨child, hchild, hl⟩, htag⟩

@[simp] theorem holds_leaf {γ : Type} [DecidableEq γ] (group : String → γ) (σ : Connection)
    (l : Leaf) : (leaf l).holds group σ = l.holds group σ :=
  rfl

/-- A logical rule joins the truth of its children. -/
theorem holds_logical {γ : Type} [DecidableEq γ] (group : String → γ) (σ : Connection)
    (mode : Mode) (children : List Node) (extra : SortedMap Json) :
    (logical mode children extra).holds group σ =
      σ.judge extra (mode.join (children.map (holds group σ))) := by
  rw [holds, holdsBy, truthsBy_eq_map]
  rfl

/-- The meaning of a rule depends on the truth of its own leaves only. -/
theorem holdsBy_congr {σ : Connection} {truth other : Leaf → Bool} (node : Node)
    (h : ∀ l ∈ node.leaves, truth l = other l) : node.holdsBy σ truth = node.holdsBy σ other := by
  induction node using ruleInduction with
  | leaf l => exact h l (by simp [leaves])
  | logical mode children extra ih =>
    have hsame : children.map (holdsBy σ truth) = children.map (holdsBy σ other) := by
      refine List.map_congr_left fun child hchild => ?_
      exact ih child hchild fun l hl => h l (mem_leaves_logical.2 ⟨child, hchild, hl⟩)
    rw [holdsBy, holdsBy, truthsBy_eq_map, truthsBy_eq_map, hsame]

end Node

end RoutingRules.SingBox
