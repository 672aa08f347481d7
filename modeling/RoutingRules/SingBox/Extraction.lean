import RoutingRules.SingBox.Rule
import RoutingRules.Text.Split

/-!
# Extracting rule sets

Moves the conditions of large rules into rule sets of their own and leaves references behind.

A leaf is extracted when it has enough alternatives.  A logical rule is looked at after its
children: when every child has become nothing but a reference to a new rule set, these rule sets
are merged into one, and the rule becomes a reference to it.  New rule sets are put at the end of
one list, so those of the children are the last ones in it.
-/

namespace RoutingRules.SingBox

/-- A rule set: its tag and the rule that it holds. -/
structure RuleSet where
  tag : String
  content : Node
deriving DecidableEq

/-- The document from which a rule set is compiled. -/
def RuleSet.source (set : RuleSet) (version : Nat) : Json :=
  .ofMap (.ofList [("version", .int version), ("rules", .arr [set.content.toJson])])

/-! ## Tags -/

/-- A name as the start of a tag: its runs of ASCII letters and digits in lowercase with hyphens
between them. -/
def slug (name : String) : String :=
  let runs := Text.splitWhere (fun c => !c.isAlphanum) (name.toList.map Char.toLower)
  match runs.filter fun run => !run.isEmpty with
  | [] => "rule"
  | runs => Text.joinWith "-" (runs.map String.ofList)

/-- The tag at a place below another one. -/
def tagBelow (tag : String) (index : Nat) : String :=
  tag ++ "-" ++ Number.decimal index

/-! ## Nodes -/

/-- A rule after extraction. -/
structure Extracted where
  node : Node
  /-- Whether nothing is left of the rule but a reference to a new rule set. -/
  reduced : Bool
  /-- The rule sets so far. -/
  sets : List RuleSet

/-- Rules after extraction. -/
structure ExtractedAll where
  nodes : List Node
  /-- Whether nothing is left of any of the rules but a reference to a new rule set. -/
  reduced : Bool
  /-- The rule sets so far. -/
  sets : List RuleSet

/-- Extract a leaf. -/
def Leaf.extract (minSize : Nat) (tag : String) (sets : List RuleSet) (leaf : Leaf) : Extracted :=
  if leaf.cardinality < minSize then ⟨.leaf leaf, false, sets⟩
  else
    { node := .leaf ⟨.empty, leaf.references ++ [tag], leaf.extra⟩
      reduced := leaf.references.isEmpty && leaf.extra.isEmpty
      sets := sets ++ [⟨tag, .leaf (.ofConditions leaf.conditions)⟩] }

/-- Merge the last `count` rule sets into one. -/
def mergeLast (tag : String) (mode : Mode) (count : Nat) (sets : List RuleSet) : List RuleSet :=
  let kept := sets.length - count
  sets.take kept ++ [⟨tag, .logical mode ((sets.drop kept).map RuleSet.content) .empty⟩]

namespace Node

mutual

/-- Extract the leaves of a rule and merge what can be merged. -/
def extract (minSize : Nat) (tag : String) (sets : List RuleSet) : Node → Extracted
  | leaf l => l.extract minSize tag sets
  | logical mode children extra =>
    let inner := extractAll minSize tag 0 sets children
    if inner.reduced && !children.isEmpty then
      { node := leaf ⟨.empty, [tag], extra⟩
        reduced := extra.isEmpty
        sets := mergeLast tag mode children.length inner.sets }
    else ⟨logical mode inner.nodes extra, false, inner.sets⟩

/-- Extract the children of a rule, which are numbered from `index` on. -/
def extractAll (minSize : Nat) (tag : String) (index : Nat) (sets : List RuleSet) :
    List Node → ExtractedAll
  | [] => ⟨[], true, sets⟩
  | child :: children =>
    let first := extract minSize (tagBelow tag index) sets child
    let others := extractAll minSize tag (index + 1) first.sets children
    ⟨first.node :: others.nodes, first.reduced && others.reduced, others.sets⟩

end

end Node

/-! ## Rules -/

/-- Rules with references and the rule sets that they refer to. -/
structure Extraction where
  rules : List Rule
  sets : List RuleSet

/-- Extract rules, which are numbered from `index` on. -/
def extractRules (minSize : Nat) (index : Nat) (sets : List RuleSet) : List Rule → Extraction
  | [] => ⟨[], sets⟩
  | rule :: rules =>
    let first := rule.node.extract minSize (tagBelow (slug rule.action.name) index) sets
    let others := extractRules minSize (index + 1) first.sets rules
    ⟨⟨rule.action, first.node⟩ :: others.rules, others.sets⟩

/-- The first text that is in a list for the second time; `seen` are the texts met before. -/
def firstRepeated (seen : List String) : List String → Option String
  | [] => none
  | s :: rest => if s ∈ seen then some s else firstRepeated (s :: seen) rest

/-- The least size of a rule that is extracted, unless it is set. -/
def defaultMinSize : Nat :=
  10

/-- Extract rules.  The tags of the rule sets have to be distinct. -/
def extract (minSize : Nat) (rules : List Rule) : Result Extraction :=
  let extraction := extractRules minSize 0 [] rules
  match firstRepeated [] (extraction.sets.map RuleSet.tag) with
  | some tag => .error (.tagConflict tag)
  | none => .ok extraction

end RoutingRules.SingBox
