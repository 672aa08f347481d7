import Mathlib.Data.List.Nodup
import RoutingRules.Proofs.SingBox.Extraction

/-!
# Undoing extraction

Every reference to a new rule set can be replaced by what the rule set holds.  This module shows
that this gives back the rules from which the rule sets were extracted, and that references and
new rule sets correspond to each other one to one.

Main results:

- Theorem {lit}`Node.putBack_remainder`: replacing the references in what is left of a rule
  gives back the rule.
- Theorem {lit}`Node.count_references_remainder`: what is left of a rule has the references of
  the rule and one more for each new rule set.
- Theorem {lit}`extract_lossless`: both for every list of rules that extraction accepts.
-/

namespace RoutingRules.SingBox

/-! ## Replacing references -/

/-- A leaf with its reference to one of the rule sets replaced by what the rule set holds.
Conditions return beside the remaining references and other fields; a logical rule returns with
the other fields of the leaf. -/
def Leaf.putBack (sets : List RuleSet) (leaf : Leaf) : Node :=
  match leaf.references.findSome? (setNamed? sets) with
  | none => .leaf leaf
  | some set =>
    match set.content with
    | .leaf moved => .leaf ⟨moved.conditions, leaf.references.erase set.tag, leaf.extra⟩
    | .logical mode children _ => .logical mode children leaf.extra

namespace Node

mutual

/-- A rule with its references to some rule sets replaced by what they hold. -/
def putBack (sets : List RuleSet) : Node → Node
  | leaf l => l.putBack sets
  | logical mode children extra => logical mode (putBackAll sets children) extra

/-- Several rules with their references replaced. -/
def putBackAll (sets : List RuleSet) : List Node → List Node
  | [] => []
  | node :: nodes => putBack sets node :: putBackAll sets nodes

end

theorem putBackAll_eq_map (sets : List RuleSet) (nodes : List Node) :
    putBackAll sets nodes = nodes.map (putBack sets) := by
  induction nodes with
  | nil => rfl
  | cons node nodes ih => rw [putBackAll, ih, List.map_cons]

end Node

/-- A rule with its references to some rule sets replaced by what they hold. -/
def Rule.putBack (sets : List RuleSet) (rule : Rule) : Rule :=
  ⟨rule.action, rule.node.putBack sets⟩

/-- References to other rule sets stay as they are. -/
theorem Leaf.putBack_of_old {sets : List RuleSet} {leaf : Leaf}
    (h : ∀ set ∈ sets, set.tag ∉ leaf.references) : leaf.putBack sets = .leaf leaf := by
  have hnone : leaf.references.findSome? (setNamed? sets) = none := by
    rw [List.findSome?_eq_none_iff]
    exact fun t ht => setNamed?_eq_none fun set hset heq => h set hset (heq ▸ ht)
  rw [putBack, hnone]

/-- The first of the rule sets to which a leaf refers is the one at the end of its references, if
the others are not among the rule sets. -/
theorem findSome?_setNamed? {sets : List RuleSet} (hnodup : (sets.map RuleSet.tag).Nodup)
    {references : List String} (hold : ∀ set ∈ sets, set.tag ∉ references) {set : RuleSet}
    (hset : set ∈ sets) :
    (references ++ [set.tag]).findSome? (setNamed? sets) = some set := by
  have hnone : references.findSome? (setNamed? sets) = none := by
    rw [List.findSome?_eq_none_iff]
    exact fun t ht => setNamed?_eq_none fun other hother heq => hold other hother (heq ▸ ht)
  rw [List.findSome?_append, hnone, Option.none_or, List.findSome?_singleton,
    setNamed?_eq_some hnodup hset]

namespace Node

/-- Replacing the new reference in what is left of a leaf gives back the leaf. -/
theorem putBack_remainder_leaf {minSize : Nat} {tag : String} {sets : List RuleSet}
    (hnodup : (sets.map RuleSet.tag).Nodup) {l : Leaf}
    (hold : ∀ set ∈ sets, set.tag ∉ l.references)
    (hnew : (leaf l).newSets minSize tag ⊆ sets) :
    ((leaf l).remainder minSize tag).putBack sets = leaf l := by
  rw [newSets] at hnew
  rw [remainder]
  split at hnew
  next hsize => rw [if_pos hsize, putBack, Leaf.putBack_of_old hold]
  next hsize =>
    have hset : ⟨tag, leaf (.ofConditions l.conditions)⟩ ∈ sets := hnew (List.mem_singleton_self _)
    have hfound := findSome?_setNamed? hnodup hold hset
    have herase : (l.references ++ [tag]).erase tag = l.references := by
      rw [List.erase_append_right _ (hold _ hset), List.erase_cons_head, List.append_nil]
    rw [if_neg hsize, putBack, Leaf.putBack]
    simp only [hfound, herase, Leaf.ofConditions]

/-- Replacing the new references in what is left of a rule gives back the rule. -/
theorem putBack_remainder {minSize : Nat} {tag : String} {sets : List RuleSet}
    (hnodup : (sets.map RuleSet.tag).Nodup) {node : Node}
    (hold : ∀ set ∈ sets, set.tag ∉ node.references)
    (hnew : node.newSets minSize tag ⊆ sets) :
    (node.remainder minSize tag).putBack sets = node := by
  induction node using ruleInduction generalizing tag with
  | leaf l => exact putBack_remainder_leaf hnodup (by simpa [references, leaves] using hold) hnew
  | logical mode children extra ih =>
    rw [newSets] at hnew
    rw [remainder]
    split at hnew
    next hmerge =>
      have hset : ⟨tag, logical mode children .empty⟩ ∈ sets := hnew (List.mem_singleton_self _)
      have hfound : [tag].findSome? (setNamed? sets) = some ⟨tag, logical mode children .empty⟩ :=
        findSome?_setNamed? hnodup (fun _ _ => List.not_mem_nil) hset
      rw [if_pos hmerge, putBack, Leaf.putBack]
      simp only [hfound]
    next hmerge =>
      have hchildren : (remainders minSize tag 0 children).map (putBack sets) =
          children.map id := by
        refine map_remainders_eq fun child hchild below hsets => ih child hchild ?_ ?_
        · exact fun set hset ht => hold set hset (references_subset_logical hchild ht)
        · exact List.Subset.trans hsets hnew
      rw [if_neg hmerge, putBack, putBackAll_eq_map, hchildren, List.map_id]

/-! ## Counting references -/

/-- The references of a logical rule are those of its children. -/
theorem references_logical (mode : Mode) (children : List Node) (extra : SortedMap Json) :
    (logical mode children extra).references = children.flatMap references := by
  rw [references, leaves, leavesOfAll_eq_flatMap, List.flatMap_assoc]
  rfl

/-- The same for children, which are numbered from `index` on, when it holds of each. -/
theorem count_references_remainders {minSize : Nat} {tag other : String} {nodes : List Node}
    (h : ∀ node ∈ nodes, ∀ below, (node.remainder minSize below).references.count other =
      node.references.count other +
        ((node.newSets minSize below).map RuleSet.tag).count other) (index : Nat) :
    ((remainders minSize tag index nodes).flatMap references).count other =
      (nodes.flatMap references).count other +
        ((newSetsOfAll minSize tag index nodes).map RuleSet.tag).count other := by
  induction nodes generalizing index with
  | nil => rfl
  | cons node nodes ih =>
    obtain ⟨hfirst, hothers⟩ := List.forall_mem_cons.1 h
    have hnode := hfirst (tagBelow tag index)
    have hnodes := ih hothers (index + 1)
    simp only [remainders, newSetsOfAll, List.flatMap_cons, List.map_append, List.count_append]
    omega

/-- What is left of a rule has the references of the rule and one more for each new rule set. -/
theorem count_references_remainder (minSize : Nat) (tag other : String) (node : Node) :
    (node.remainder minSize tag).references.count other =
      node.references.count other +
        ((node.newSets minSize tag).map RuleSet.tag).count other := by
  induction node using ruleInduction generalizing tag with
  | leaf l =>
    rw [remainder, newSets]
    split
    · rfl
    · simp [references, leaves, List.count_append]
  | logical mode children extra ih =>
    rw [remainder, newSets]
    split
    next hmerge =>
      have hnone : (logical mode children extra).references = [] := by
        rw [references_logical, List.flatMap_eq_nil_iff]
        exact fun child hchild =>
          references_of_movesWhole child (movesWhole_of_mergesAll hmerge child hchild)
      rw [hnone]
      simp [references, leaves]
    next hmerge =>
      rw [references_logical, references_logical]
      exact count_references_remainders (fun child hchild below => ih child hchild below) 0

end Node

/-! ## Extracted rules -/

/-- The tags that rules refer to. -/
def referencesOf (rules : List Rule) : List String :=
  rules.flatMap fun rule => rule.node.references

/-- What is left of rules has the references of the rules and one more for each new rule set. -/
theorem count_references_remainingRules (minSize index : Nat) (other : String)
    (rules : List Rule) :
    (referencesOf (remainingRules minSize index rules)).count other =
      (referencesOf rules).count other +
        ((ruleSetsOf minSize index rules).map RuleSet.tag).count other := by
  induction rules generalizing index with
  | nil => rfl
  | cons rule rules ih =>
    have hrule := rule.node.count_references_remainder minSize (rule.tag index) other
    have hrules := ih (index + 1)
    simp only [referencesOf, remainingRules, ruleSetsOf, List.flatMap_cons, List.map_append,
      List.count_append] at hrules ⊢
    omega

/-- In an accepted list every new rule set is referred to once, every reference that is new has
exactly one rule set, and putting the rule sets back gives the rules from before. -/
theorem extract_lossless {minSize : Nat} {rules : List Rule} {extraction : Extraction}
    (h : extract minSize rules = .ok extraction)
    (hfresh : ∀ set ∈ extraction.sets, ∀ rule ∈ rules, set.tag ∉ rule.node.references) :
    (∀ set ∈ extraction.sets, (referencesOf extraction.rules).count set.tag = 1) ∧
      (∀ tag ∈ referencesOf extraction.rules, tag ∉ referencesOf rules →
        (extraction.sets.map RuleSet.tag).count tag = 1) ∧
      extraction.rules.map (Rule.putBack extraction.sets) = rules := by
  obtain ⟨hnodup, rfl⟩ := extract_eq_ok_iff.1 h
  have hcount := fun tag => count_references_remainingRules minSize 0 tag rules
  refine ⟨?_, ?_, ?_⟩
  · intro set hset
    have hold : set.tag ∉ referencesOf rules := by
      intro hmem
      obtain ⟨rule, hrule, hmem⟩ := List.mem_flatMap.1 hmem
      exact hfresh set hset rule hrule hmem
    rw [hcount, List.count_eq_zero.2 hold,
      List.count_eq_one_of_mem hnodup (List.mem_map_of_mem hset)]
  · intro tag htag hold
    have hnew : 0 < ((ruleSetsOf minSize 0 rules).map RuleSet.tag).count tag := by
      have hpos := List.count_pos_iff.2 htag
      rwa [hcount, List.count_eq_zero.2 hold, Nat.zero_add] at hpos
    exact List.count_eq_one_of_mem hnodup (List.count_pos_iff.1 hnew)
  · rw [← List.forall₂_eq_eq_eq, List.forall₂_map_left_iff]
    refine (forall₂_remainingRules minSize 0 rules).flip.imp ?_
    rintro rest rule ⟨hrule, haction, tag, hrest, hsets⟩
    have hnode : rest.node.putBack (ruleSetsOf minSize 0 rules) = rule.node := by
      rw [hrest]
      exact Node.putBack_remainder hnodup (fun set hset => hfresh set hset rule hrule) hsets
    rw [Rule.putBack, hnode, haction]

/-- A rule that is merged through two levels, one of which a single child is extracted, and one
with a reference and another field. -/
def nestedRules : List Rule :=
  [⟨.route "Japan", .logical .or
      [.logical .and
          [.leaf (.ofConditions (.ofList [("domain", [.str "a.com", .str "b.com"])])),
            .leaf (.ofConditions (.ofList [("port", [.int 80, .int 443])]))] .empty,
        .leaf (.ofConditions (.ofList [("domain_suffix", [.str "c.com", .str "d.com"])]))]
      (.ofList [("invert", .bool true)])⟩,
    ⟨.reject, .logical .and
      [.leaf (.ofConditions (.ofList [("domain", [.str "a.com", .str "b.com"])])),
        .leaf (.ofConditions (.ofList [("port", [.int 443])]))] .empty⟩,
    ⟨.route "P", .leaf ⟨.ofList [("domain", [.str "a.com", .str "b.com"])], ["geo", "geo"],
      .ofList [("invert", .bool true)]⟩⟩]

theorem extract_lossless_nestedRules :
    ∃ extraction, extract 2 nestedRules = .ok extraction ∧
      (∀ set ∈ extraction.sets, ∀ rule ∈ nestedRules, set.tag ∉ rule.node.references) ∧
      (∀ set ∈ extraction.sets, (referencesOf extraction.rules).count set.tag = 1) ∧
      (∀ tag ∈ referencesOf extraction.rules, tag ∉ referencesOf nestedRules →
        (extraction.sets.map RuleSet.tag).count tag = 1) ∧
      extraction.rules.map (Rule.putBack extraction.sets) = nestedRules := by
  have hok : extract 2 nestedRules =
      .ok ⟨remainingRules 2 0 nestedRules, ruleSetsOf 2 0 nestedRules⟩ :=
    rfl
  have hfresh : ∀ set ∈ ruleSetsOf 2 0 nestedRules, ∀ rule ∈ nestedRules,
      set.tag ∉ rule.node.references := by
    decide
  exact ⟨_, hok, hfresh, extract_lossless hok hfresh⟩

end RoutingRules.SingBox
