import Mathlib.Data.List.Forall2
import RoutingRules.Proofs.SingBox.Meaning
import RoutingRules.SingBox.Extraction

/-!
# Extraction without the list of rule sets

Extraction hands one list of rule sets from child to child and cuts its end off where rule sets
are merged.  This module says what it does to a single rule without that list: what is left of
the rule, which rule sets it adds at the end, and when nothing is left but one new reference.

The invariant behind merging is that a rule of which nothing else is left has added exactly one
rule set, and that this rule set holds the rule itself.

Main results:

- Theorem {lit}`Node.newSets_of_movesWhole`: a rule that moves as a whole is the content of the
  only rule set that it adds.
- Theorem {lit}`Node.remainder_of_movesWhole`: nothing is left of it but the reference.
- Theorem {lit}`Node.extract_eq`: extraction puts the new rule sets of a rule behind those that
  were there.
- Theorem {lit}`extract_eq_ok_iff`: when extraction of rules succeeds, and with what result.
-/

namespace RoutingRules.SingBox

namespace Node

/-! ## What is left and what is added -/

mutual

/-- Whether nothing is left of a rule but a reference to one new rule set. -/
def movesWhole (minSize : Nat) : Node → Bool
  | leaf l => minSize ≤ l.cardinality && l.references.isEmpty && l.extra.isEmpty
  | logical _ children extra => allMoveWhole minSize children && !children.isEmpty && extra.isEmpty

/-- Whether nothing is left of any of several rules but such references. -/
def allMoveWhole (minSize : Nat) : List Node → Bool
  | [] => true
  | node :: nodes => movesWhole minSize node && allMoveWhole minSize nodes

end

/-- Whether the rule sets of all children are merged into one. -/
def mergesAll (minSize : Nat) (children : List Node) : Bool :=
  allMoveWhole minSize children && !children.isEmpty

mutual

/-- What is left of a rule. -/
def remainder (minSize : Nat) (tag : String) : Node → Node
  | leaf l =>
    if l.cardinality < minSize then leaf l else leaf ⟨.empty, l.references ++ [tag], l.extra⟩
  | logical mode children extra =>
    if mergesAll minSize children then leaf ⟨.empty, [tag], extra⟩
    else logical mode (remainders minSize tag 0 children) extra

/-- What is left of the children of a rule, which are numbered from `index` on. -/
def remainders (minSize : Nat) (tag : String) (index : Nat) : List Node → List Node
  | [] => []
  | node :: nodes =>
    remainder minSize (tagBelow tag index) node :: remainders minSize tag (index + 1) nodes

end

mutual

/-- The rule sets that the extraction of a rule adds. -/
def newSets (minSize : Nat) (tag : String) : Node → List RuleSet
  | leaf l => if l.cardinality < minSize then [] else [⟨tag, leaf (.ofConditions l.conditions)⟩]
  | logical mode children _ =>
    if mergesAll minSize children then [⟨tag, logical mode children .empty⟩]
    else newSetsOfAll minSize tag 0 children

/-- The rule sets that the children of a rule add, which are numbered from `index` on. -/
def newSetsOfAll (minSize : Nat) (tag : String) (index : Nat) : List Node → List RuleSet
  | [] => []
  | node :: nodes =>
    newSets minSize (tagBelow tag index) node ++ newSetsOfAll minSize tag (index + 1) nodes

end

/-! ## Rules that move as a whole -/

/-- A leaf moves as a whole when it has enough alternatives and nothing but its conditions. -/
theorem movesWhole_leaf_iff {minSize : Nat} {l : Leaf} :
    (leaf l).movesWhole minSize = true ↔
      minSize ≤ l.cardinality ∧ l.references = [] ∧ l.extra = .empty := by
  simp [movesWhole, SortedMap.isEmpty_iff, and_assoc]

/-- A logical rule moves as a whole when its children are merged and it has no other fields. -/
theorem movesWhole_logical (minSize : Nat) (mode : Mode) (children : List Node)
    (extra : SortedMap Json) :
    (logical mode children extra).movesWhole minSize =
      (mergesAll minSize children && extra.isEmpty) :=
  rfl

/-- Several rules move as a whole when each of them does. -/
theorem allMoveWhole_iff {minSize : Nat} {nodes : List Node} :
    allMoveWhole minSize nodes = true ↔ ∀ node ∈ nodes, node.movesWhole minSize = true := by
  induction nodes with
  | nil => simp [allMoveWhole]
  | cons node nodes ih => rw [allMoveWhole, Bool.and_eq_true, ih, List.forall_mem_cons]

/-- Children that are merged move as a whole, each of them. -/
theorem movesWhole_of_mergesAll {minSize : Nat} {children : List Node}
    (h : mergesAll minSize children = true) : ∀ child ∈ children, child.movesWhole minSize = true :=
  allMoveWhole_iff.1 (Bool.and_eq_true_iff.1 h).1

/-- All leaves of a rule that moves as a whole do so too. -/
theorem movesWhole_of_mem_leaves {minSize : Nat} {node : Node}
    (h : node.movesWhole minSize = true) :
    ∀ l ∈ node.leaves, (leaf l).movesWhole minSize = true := by
  induction node using ruleInduction with
  | leaf other =>
    intro l hl
    rwa [List.mem_singleton.1 hl]
  | logical mode children extra ih =>
    rw [movesWhole_logical, Bool.and_eq_true] at h
    intro l hl
    obtain ⟨child, hchild, hl⟩ := mem_leaves_logical.1 hl
    exact ih child hchild (movesWhole_of_mergesAll h.1 child hchild) l hl

/-- A rule that moves as a whole is the content of the only rule set that it adds. -/
theorem newSets_of_movesWhole {minSize : Nat} {tag : String} {node : Node}
    (h : node.movesWhole minSize = true) : node.newSets minSize tag = [⟨tag, node⟩] := by
  cases node with
  | leaf l =>
    obtain ⟨hsize, hreferences, hextra⟩ := movesWhole_leaf_iff.1 h
    have hl : Leaf.ofConditions l.conditions = l := by
      rw [Leaf.ofConditions, Leaf.empty, ← hextra, ← hreferences]
    rw [newSets, if_neg (Nat.not_lt.2 hsize), hl]
  | logical mode children extra =>
    rw [movesWhole_logical, Bool.and_eq_true] at h
    rw [newSets, if_pos h.1, SortedMap.isEmpty_iff.1 h.2]

/-- Nothing is left of a rule that moves as a whole but a reference to its rule set. -/
theorem remainder_of_movesWhole {minSize : Nat} {tag : String} {node : Node}
    (h : node.movesWhole minSize = true) :
    node.remainder minSize tag = leaf ⟨.empty, [tag], .empty⟩ := by
  cases node with
  | leaf l =>
    obtain ⟨hsize, hreferences, hextra⟩ := movesWhole_leaf_iff.1 h
    rw [remainder, if_neg (Nat.not_lt.2 hsize), hreferences, hextra]
    rfl
  | logical mode children extra =>
    rw [movesWhole_logical, Bool.and_eq_true] at h
    rw [remainder, if_pos h.1, SortedMap.isEmpty_iff.1 h.2]

/-- Children that all move as a whole add one rule set each, with the child and its tag. -/
theorem newSetsOfAll_of_allMoveWhole {minSize : Nat} {tag : String} {index : Nat}
    {nodes : List Node} (h : allMoveWhole minSize nodes = true) :
    newSetsOfAll minSize tag index nodes =
      (nodes.zipIdx index).map fun (node, i) => ⟨tagBelow tag i, node⟩ := by
  induction nodes generalizing index with
  | nil => rfl
  | cons node nodes ih =>
    rw [allMoveWhole, Bool.and_eq_true] at h
    rw [newSetsOfAll, newSets_of_movesWhole h.1, ih h.2, List.zipIdx_cons, List.map_cons]
    rfl

/-- Children that all move as a whole are the contents of the rule sets that they add. -/
theorem contents_newSetsOfAll {minSize : Nat} {tag : String} {index : Nat} {nodes : List Node}
    (h : allMoveWhole minSize nodes = true) :
    (newSetsOfAll minSize tag index nodes).map RuleSet.content = nodes := by
  rw [newSetsOfAll_of_allMoveWhole h, List.map_map]
  exact List.zipIdx_map_fst index nodes

/-- A rule that moves as a whole refers to no rule set itself. -/
theorem references_of_movesWhole {minSize : Nat} (node : Node)
    (h : node.movesWhole minSize = true) : node.references = [] := by
  rw [references, List.flatMap_eq_nil_iff]
  intro l hl
  exact (movesWhole_leaf_iff.1 (movesWhole_of_mem_leaves h l hl)).2.1

/-! ## Children and their remainders -/

/-- What is left of the children is what is left of each, under some tag, and the rule sets that
a child adds under this tag are among those of all children. -/
theorem forall₂_remainders (minSize : Nat) (tag : String) (index : Nat) (nodes : List Node) :
    List.Forall₂
      (fun node rest => node ∈ nodes ∧ ∃ below, rest = node.remainder minSize below ∧
        node.newSets minSize below ⊆ newSetsOfAll minSize tag index nodes)
      nodes (remainders minSize tag index nodes) := by
  induction nodes generalizing index with
  | nil => exact List.Forall₂.nil
  | cons node nodes ih =>
    have hfirst : node.newSets minSize (tagBelow tag index) ⊆
        newSetsOfAll minSize tag index (node :: nodes) := List.subset_append_left _ _
    have hothers : newSetsOfAll minSize tag (index + 1) nodes ⊆
        newSetsOfAll minSize tag index (node :: nodes) := List.subset_append_right _ _
    refine List.Forall₂.cons ⟨List.mem_cons_self, _, rfl, hfirst⟩ ((ih (index + 1)).imp ?_)
    rintro child rest ⟨hchild, below, hrest, hsets⟩
    exact ⟨List.mem_cons_of_mem _ hchild, below, hrest, List.Subset.trans hsets hothers⟩

/-- A function of remainders that gives the same as another one of the children, child by child,
gives the same list. -/
theorem map_remainders_eq {β : Type} {minSize : Nat} {tag : String} {index : Nat}
    {nodes : List Node} {f g : Node → β}
    (h : ∀ node ∈ nodes, ∀ below,
      node.newSets minSize below ⊆ newSetsOfAll minSize tag index nodes →
        f (node.remainder minSize below) = g node) :
    (remainders minSize tag index nodes).map f = nodes.map g := by
  rw [← List.forall₂_eq_eq_eq, List.forall₂_map_left_iff, List.forall₂_map_right_iff]
  refine (forall₂_remainders minSize tag index nodes).flip.imp ?_
  rintro rest node ⟨hnode, below, rfl, hsets⟩
  exact h node hnode below hsets

/-! ## Agreement with extraction -/

/-- Merging the rule sets at the end of a list leaves those in front of them alone. -/
theorem mergeLast_append (tag : String) (mode : Mode) (sets last : List RuleSet) :
    mergeLast tag mode last.length (sets ++ last) =
      sets ++ [⟨tag, .logical mode (last.map RuleSet.content) .empty⟩] := by
  have hkept : (sets ++ last).length - last.length = sets.length := by simp
  rw [mergeLast, hkept, List.take_left, List.drop_left]

theorem extract_leaf_eq (minSize : Nat) (tag : String) (sets : List RuleSet) (l : Leaf) :
    l.extract minSize tag sets =
      ⟨(leaf l).remainder minSize tag, (leaf l).movesWhole minSize,
        sets ++ (leaf l).newSets minSize tag⟩ := by
  by_cases hsize : l.cardinality < minSize
  · simp [Leaf.extract, remainder, movesWhole, newSets, hsize, Nat.not_le.2 hsize]
  · simp [Leaf.extract, remainder, movesWhole, newSets, hsize, Nat.le_of_not_lt hsize]

mutual

/-- Extraction puts the new rule sets of a rule behind those that were there. -/
theorem extract_eq (minSize : Nat) (tag : String) (sets : List RuleSet) : ∀ node : Node,
    node.extract minSize tag sets =
      ⟨node.remainder minSize tag, node.movesWhole minSize, sets ++ node.newSets minSize tag⟩
  | leaf l => by rw [extract, extract_leaf_eq]
  | logical mode children extra => by
    simp only [extract, extractAll_eq minSize tag 0 sets children]
    rw [← mergesAll, movesWhole_logical, remainder, newSets]
    by_cases hmerge : mergesAll minSize children = true
    · have hall : allMoveWhole minSize children = true := (Bool.and_eq_true_iff.1 hmerge).1
      have hcontents : (newSetsOfAll minSize tag 0 children).map RuleSet.content = children :=
        contents_newSetsOfAll hall
      have hlength : children.length = (newSetsOfAll minSize tag 0 children).length := by
        rw [← congrArg List.length hcontents, List.length_map]
      rw [if_pos hmerge, if_pos hmerge, if_pos hmerge, hmerge, Bool.true_and, hlength,
        mergeLast_append, hcontents]
    · rw [if_neg hmerge, if_neg hmerge, if_neg hmerge, eq_false_of_ne_true hmerge,
        Bool.false_and]

/-- Extraction of several rules puts their new rule sets one after another. -/
theorem extractAll_eq (minSize : Nat) (tag : String) (index : Nat) (sets : List RuleSet) :
    ∀ nodes : List Node,
      extractAll minSize tag index sets nodes =
        ⟨remainders minSize tag index nodes, allMoveWhole minSize nodes,
          sets ++ newSetsOfAll minSize tag index nodes⟩
  | [] => by simp [extractAll, remainders, allMoveWhole, newSetsOfAll]
  | node :: nodes => by
    simp only [extractAll, extract_eq minSize (tagBelow tag index) sets node,
      extractAll_eq minSize tag (index + 1) _ nodes]
    simp [remainders, allMoveWhole, newSetsOfAll]

end

end Node

/-! ## Rules with actions -/

/-- The tag under which a rule at a position is extracted. -/
def Rule.tag (rule : Rule) (index : Nat) : String :=
  tagBelow (slug rule.action.name) index

/-- What is left of rules, which are numbered from `index` on. -/
def remainingRules (minSize index : Nat) : List Rule → List Rule
  | [] => []
  | rule :: rules =>
    ⟨rule.action, rule.node.remainder minSize (rule.tag index)⟩ ::
      remainingRules minSize (index + 1) rules

/-- The rule sets that rules add, which are numbered from `index` on. -/
def ruleSetsOf (minSize index : Nat) : List Rule → List RuleSet
  | [] => []
  | rule :: rules =>
    rule.node.newSets minSize (rule.tag index) ++ ruleSetsOf minSize (index + 1) rules

/-- Extraction of rules puts their new rule sets one after another. -/
theorem extractRules_eq (minSize index : Nat) (sets : List RuleSet) (rules : List Rule) :
    extractRules minSize index sets rules =
      ⟨remainingRules minSize index rules, sets ++ ruleSetsOf minSize index rules⟩ := by
  induction rules generalizing index sets with
  | nil => simp [extractRules, remainingRules, ruleSetsOf]
  | cons rule rules ih =>
    simp only [extractRules, Node.extract_eq, ih]
    simp [remainingRules, ruleSetsOf, Rule.tag]

/-- What is left of rules has their actions and what is left of each under some tag, and the rule
sets that a rule adds under this tag are among those of all rules. -/
theorem forall₂_remainingRules (minSize index : Nat) (rules : List Rule) :
    List.Forall₂
      (fun rule rest => rule ∈ rules ∧ rest.action = rule.action ∧
        ∃ tag, rest.node = rule.node.remainder minSize tag ∧
          rule.node.newSets minSize tag ⊆ ruleSetsOf minSize index rules)
      rules (remainingRules minSize index rules) := by
  induction rules generalizing index with
  | nil => exact List.Forall₂.nil
  | cons rule rules ih =>
    have hfirst : rule.node.newSets minSize (rule.tag index) ⊆
        ruleSetsOf minSize index (rule :: rules) := List.subset_append_left _ _
    have hothers : ruleSetsOf minSize (index + 1) rules ⊆
        ruleSetsOf minSize index (rule :: rules) := List.subset_append_right _ _
    refine List.Forall₂.cons ⟨List.mem_cons_self, rfl, _, rfl, hfirst⟩ ((ih (index + 1)).imp ?_)
    rintro other rest ⟨hother, haction, tag, hrest, hsets⟩
    exact ⟨List.mem_cons_of_mem _ hother, haction, tag, hrest, List.Subset.trans hsets hothers⟩

/-- No text is repeated when all are distinct and none was met before. -/
theorem firstRepeated_eq_none_iff {seen texts : List String} :
    firstRepeated seen texts = none ↔ texts.Nodup ∧ ∀ s ∈ texts, s ∉ seen := by
  induction texts generalizing seen with
  | nil => simp [firstRepeated]
  | cons s texts ih =>
    rw [firstRepeated, List.nodup_cons]
    by_cases hs : s ∈ seen
    · simp [hs]
    · rw [if_neg hs, ih]
      constructor
      · rintro ⟨hnodup, hseen⟩
        have hfresh : s ∉ texts := fun hmem => hseen s hmem List.mem_cons_self
        refine ⟨⟨hfresh, hnodup⟩, List.forall_mem_cons.2 ⟨hs, fun t ht hmem => ?_⟩⟩
        exact hseen t ht (List.mem_cons_of_mem _ hmem)
      · rintro ⟨⟨hfresh, hnodup⟩, hseen⟩
        refine ⟨hnodup, fun t ht hmem => ?_⟩
        rcases List.mem_cons.1 hmem with rfl | hold
        · exact hfresh ht
        · exact hseen t (List.mem_cons_of_mem _ ht) hold

/-- Extraction succeeds when the tags of the new rule sets are distinct. -/
theorem extract_eq_ok_iff {minSize : Nat} {rules : List Rule} {extraction : Extraction} :
    extract minSize rules = .ok extraction ↔
      ((ruleSetsOf minSize 0 rules).map RuleSet.tag).Nodup ∧
        extraction = ⟨remainingRules minSize 0 rules, ruleSetsOf minSize 0 rules⟩ := by
  simp only [extract, extractRules_eq, List.nil_append]
  cases hrepeated : firstRepeated [] ((ruleSetsOf minSize 0 rules).map RuleSet.tag) with
  | none =>
    have hnodup := (firstRepeated_eq_none_iff.1 hrepeated).1
    simp [hnodup, eq_comm]
  | some tag =>
    have hnot : ¬((ruleSetsOf minSize 0 rules).map RuleSet.tag).Nodup := by
      intro hnodup
      rw [firstRepeated_eq_none_iff.2 ⟨hnodup, by simp⟩] at hrepeated
      cases hrepeated
    simp [hnot]

/-! ## Looking rule sets up -/

/-- The rule set with a tag. -/
def setNamed? (sets : List RuleSet) (tag : String) : Option RuleSet :=
  sets.find? fun set => set.tag = tag

/-- Among rule sets with distinct tags each is found by its tag. -/
theorem setNamed?_eq_some {sets : List RuleSet} (hnodup : (sets.map RuleSet.tag).Nodup)
    {set : RuleSet} (hset : set ∈ sets) : setNamed? sets set.tag = some set := by
  induction sets with
  | nil => cases hset
  | cons head sets ih =>
    rw [List.map_cons, List.nodup_cons] at hnodup
    rcases List.mem_cons.1 hset with rfl | hrest
    · simp [setNamed?]
    · have hne : head.tag ≠ set.tag := fun heq =>
        hnodup.1 (heq ▸ List.mem_map_of_mem hrest)
      rw [setNamed?, List.find?_cons_of_neg (by simpa using hne)]
      exact ih hnodup.2 hrest

/-- A tag that no rule set has finds none. -/
theorem setNamed?_eq_none {sets : List RuleSet} {tag : String}
    (h : ∀ set ∈ sets, set.tag ≠ tag) : setNamed? sets tag = none := by
  rw [setNamed?, List.find?_eq_none]
  intro set hset
  simpa using h set hset

end RoutingRules.SingBox
