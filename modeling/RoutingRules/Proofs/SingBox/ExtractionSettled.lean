import RoutingRules.Proofs.Result
import RoutingRules.Proofs.SingBox.ExtractionPlaces

/-!
# Extraction settles

Extraction moves the leaves with enough alternatives and no others.  The leaves that are left are
too small to be extracted, and no rule of such leaves alone is merged.  So extracting what is left
once more changes nothing, unless even leaves without conditions have to move.

Main results:

- Theorem {lit}`Node.conditions_of_mem_leaves_remainder`: the leaves that are left have no
  conditions or too few alternatives.
- Theorem {lit}`Node.le_cardinality_of_mem_moved`: the leaves that have moved have enough of them.
- Theorem {lit}`Node.IsSettled.remainder_eq`: a rule of small leaves alone stays as it is.
- Theorem {lit}`extract_settles`: the same for all rules that extraction accepts.
-/

namespace RoutingRules.SingBox

/-- A leaf without conditions has no alternatives. -/
theorem Leaf.cardinality_of_isEmpty {l : Leaf} (h : l.conditions.isEmpty = true) :
    l.cardinality = 0 := by
  rw [cardinality, SortedMap.isEmpty_iff.1 h]
  rfl

namespace Node

variable {minSize : Nat} {tag : String}

/-! ## Leaves that are left and leaves that move -/

/-- The leaves that are left of a rule have no conditions or too few alternatives. -/
theorem conditions_of_mem_leaves_remainder {node : Node} {l : Leaf}
    (h : l ∈ (node.remainder minSize tag).leaves) :
    l.conditions.isEmpty = true ∨ l.cardinality < minSize := by
  induction node using ruleInduction generalizing tag with
  | leaf other =>
    rw [remainder] at h
    split at h
    next hsize =>
      rw [List.mem_singleton.1 h]
      exact .inr hsize
    next =>
      rw [List.mem_singleton.1 h]
      exact .inl rfl
  | logical mode children extra ih =>
    rw [remainder] at h
    split at h
    · rw [List.mem_singleton.1 h]
      exact .inl rfl
    · obtain ⟨rest, hrest, hl⟩ := mem_leaves_logical.1 h
      obtain ⟨child, hchild, _, below, rfl, _⟩ :=
        exists_mem_of_forall₂ (forall₂_remainders minSize tag 0 children) hrest
      exact ih child hchild hl

/-- All leaves of a rule that moves as a whole have enough alternatives. -/
theorem le_cardinality_of_movesWhole {node : Node} (h : node.movesWhole minSize = true) :
    ∀ l ∈ node.leaves, minSize ≤ l.cardinality := by
  intro l hl
  exact (movesWhole_leaf_iff.1 (movesWhole_of_mem_leaves h l hl)).1

/-- All leaves that have moved to a rule set have enough alternatives. -/
theorem le_cardinality_of_mem_moved {node : Node} {m : Moved} (h : m ∈ node.moved minSize) :
    ∀ l ∈ m.node.content.leaves, minSize ≤ l.cardinality := by
  induction node using ruleInduction generalizing m with
  | leaf other =>
    rw [moved] at h
    split at h
    next => cases h
    next hsize =>
      rw [List.mem_singleton.1 h]
      intro l hl
      rw [List.mem_singleton.1 hl]
      exact Nat.le_of_not_lt hsize
  | logical mode children extra ih =>
    rw [moved] at h
    split at h
    next hmerge =>
      rw [List.mem_singleton.1 h]
      intro l hl
      obtain ⟨child, hchild, hl⟩ := mem_leaves_logical.1 hl
      exact le_cardinality_of_movesWhole (movesWhole_of_mergesAll hmerge child hchild) l hl
    next =>
      obtain ⟨i, child, hchild, inner, hinner, rfl⟩ := mem_movedOfAll_iff.1 h
      intro l hl
      exact ih child (List.mem_of_getElem? hchild) hinner l hl

/-! ## Settled rules -/

/-- Whether all leaves of a rule are too small to be extracted. -/
def IsSettled (minSize : Nat) (node : Node) : Prop :=
  ∀ l ∈ node.leaves, l.cardinality < minSize

/-- What is left of a rule is settled, unless leaves without conditions move too. -/
theorem isSettled_remainder (hsize : 1 ≤ minSize) (tag : String) (node : Node) :
    (node.remainder minSize tag).IsSettled minSize := by
  intro l hl
  rcases conditions_of_mem_leaves_remainder hl with hempty | hsmall
  · rw [Leaf.cardinality_of_isEmpty hempty]
    exact hsize
  · exact hsmall

/-- The children of a settled rule are settled. -/
theorem IsSettled.child {mode : Mode} {children : List Node} {extra : SortedMap Json}
    (h : (logical mode children extra).IsSettled minSize) {child : Node}
    (hchild : child ∈ children) : child.IsSettled minSize :=
  fun l hl => h l (mem_leaves_logical.2 ⟨child, hchild, hl⟩)

/-- No settled rule moves as a whole. -/
theorem IsSettled.movesWhole_eq {node : Node} (h : node.IsSettled minSize) :
    node.movesWhole minSize = false := by
  induction node using ruleInduction with
  | leaf l =>
    have hsmall : l.cardinality < minSize := h l (by simp [leaves])
    simp [movesWhole, Nat.not_le.2 hsmall]
  | logical mode children extra ih =>
    rw [movesWhole_logical, mergesAll]
    rcases children with _ | ⟨child, children⟩
    · simp
    · -- One child that stays is enough to keep the others from being merged.
      have hfirst := ih child List.mem_cons_self (h.child List.mem_cons_self)
      rw [allMoveWhole, hfirst]
      simp

/-- The children of a settled rule are not merged. -/
theorem IsSettled.mergesAll_eq {mode : Mode} {children : List Node} {extra : SortedMap Json}
    (h : (logical mode children extra).IsSettled minSize) : mergesAll minSize children = false := by
  have hwhole : (logical mode children .empty).movesWhole minSize = false :=
    IsSettled.movesWhole_eq h
  rwa [movesWhole_logical, show SortedMap.empty.isEmpty = true from rfl, Bool.and_true] at hwhole

/-- A settled rule stays as it is. -/
theorem IsSettled.remainder_eq {node : Node} (h : node.IsSettled minSize) :
    node.remainder minSize tag = node := by
  induction node using ruleInduction generalizing tag with
  | leaf l => rw [remainder, if_pos (h l (by simp [leaves]))]
  | logical mode children extra ih =>
    have hchildren : (remainders minSize tag 0 children).map id = children.map id :=
      map_remainders_eq fun child hchild below _ => ih child hchild (h.child hchild)
    rw [List.map_id, List.map_id] at hchildren
    rw [remainder, h.mergesAll_eq, hchildren]
    rfl

/-- Nothing moves out of a settled rule. -/
theorem IsSettled.moved_eq {node : Node} (h : node.IsSettled minSize) :
    node.moved minSize = [] := by
  induction node using ruleInduction with
  | leaf l => rw [moved, if_pos (h l (by simp [leaves]))]
  | logical mode children extra ih =>
    rw [moved, h.mergesAll_eq, if_neg Bool.false_ne_true, List.eq_nil_iff_forall_not_mem]
    intro m hm
    obtain ⟨i, child, hchild, inner, hinner, _⟩ := mem_movedOfAll_iff.1 hm
    have hmem := List.mem_of_getElem? hchild
    rw [ih child hmem (h.child hmem)] at hinner
    cases hinner

end Node

/-! ## Settled lists of rules -/

section Rules

variable {minSize : Nat} {rules : List Rule}

/-- Settled rules stay as they are. -/
theorem remainingRules_of_isSettled (h : ∀ rule ∈ rules, rule.node.IsSettled minSize)
    (index : Nat) : remainingRules minSize index rules = rules := by
  induction rules generalizing index with
  | nil => rfl
  | cons rule rules ih =>
    obtain ⟨hrule, hrules⟩ := List.forall_mem_cons.1 h
    rw [remainingRules, hrule.remainder_eq, ih hrules]

/-- No rule sets are made of settled rules. -/
theorem ruleSetsOf_of_isSettled (h : ∀ rule ∈ rules, rule.node.IsSettled minSize) :
    ruleSetsOf minSize 0 rules = [] := by
  rw [List.eq_nil_iff_forall_not_mem]
  intro set hset
  obtain ⟨i, rule, hrule, m, hm, _⟩ := mem_ruleSetsOf_iff.1 hset
  rw [(h rule (List.mem_of_getElem? hrule)).moved_eq] at hm
  cases hm

/-- Extraction accepts settled rules and leaves them alone. -/
theorem extract_of_isSettled (h : ∀ rule ∈ rules, rule.node.IsSettled minSize) :
    extract minSize rules = .ok ⟨rules, []⟩ := by
  rw [extract_eq_ok_iff, ruleSetsOf_of_isSettled h, remainingRules_of_isSettled h]
  exact ⟨List.nodup_nil, rfl⟩

end Rules

/-- In the rules that extraction leaves, every leaf has no conditions or too few alternatives; in
the rule sets, every leaf has enough of them.  Unless leaves without conditions move too, extracting
the rules that are left gives the same rules again and no rule sets. -/
theorem extract_settles {minSize : Nat} {rules : List Rule} {extraction : Extraction}
    (h : extract minSize rules = .ok extraction) :
    (∀ rule ∈ extraction.rules, ∀ l ∈ rule.node.leaves,
        l.conditions.isEmpty = true ∨ l.cardinality < minSize) ∧
      (∀ set ∈ extraction.sets, ∀ l ∈ set.content.leaves, minSize ≤ l.cardinality) ∧
      (1 ≤ minSize → extract minSize extraction.rules = .ok ⟨extraction.rules, []⟩) := by
  obtain ⟨_, rfl⟩ := extract_eq_ok_iff.1 h
  have hleft : ∀ rest ∈ remainingRules minSize 0 rules, ∃ (rule : Rule) (tag : String),
      rest.node = rule.node.remainder minSize tag := by
    intro rest hrest
    obtain ⟨rule, _, _, _, tag, hnode, _⟩ :=
      exists_mem_of_forall₂ (forall₂_remainingRules minSize 0 rules) hrest
    exact ⟨rule, tag, hnode⟩
  refine ⟨?_, ?_, ?_⟩
  · intro rest hrest l hl
    obtain ⟨rule, tag, hnode⟩ := hleft rest hrest
    rw [hnode] at hl
    exact Node.conditions_of_mem_leaves_remainder hl
  · intro set hset
    obtain ⟨_, rule, _, m, hm, rfl⟩ := mem_ruleSetsOf_iff.1 hset
    exact Node.le_cardinality_of_mem_moved hm
  · intro hsize
    apply extract_of_isSettled
    intro rest hrest
    obtain ⟨rule, tag, hnode⟩ := hleft rest hrest
    rw [hnode]
    exact Node.isSettled_remainder hsize tag rule.node

/-- A rule of which only one child moves, with a reference and another field that stay, one that is
merged, and one that is too small. -/
def thresholdRules : List Rule :=
  [⟨.route "P", .logical .and
      [.leaf ⟨.ofList [("domain", [.str "a.com", .str "b.com"])], ["geo"],
          .ofList [("invert", .bool true)]⟩,
        .leaf (.ofConditions (.ofList [("port", [.int 443])]))] .empty⟩,
    ⟨.reject, .logical .or
      [.leaf (.ofConditions (.ofList [("domain", [.str "a.com"]), ("port", [.int 80])])),
        .leaf (.ofConditions (.ofList [("ip_cidr", [.str "10.0.0.0/8", .str "::/0"])]))]
      (.ofList [("invert", .bool true)])⟩,
    ⟨.route "Q", .leaf (.ofConditions (.ofList [("domain", [.str "c.com"])]))⟩]

theorem extract_settles_thresholdRules :
    ∃ extraction, extract 2 thresholdRules = .ok extraction ∧
      extraction.sets.map RuleSet.tag = ["p-0-0", "reject-1"] ∧
      (∀ rule ∈ extraction.rules, ∀ l ∈ rule.node.leaves,
        l.conditions.isEmpty = true ∨ l.cardinality < 2) ∧
      (∀ set ∈ extraction.sets, ∀ l ∈ set.content.leaves, 2 ≤ l.cardinality) ∧
      extract 2 extraction.rules = .ok ⟨extraction.rules, []⟩ := by
  have hok : extract 2 thresholdRules =
      .ok ⟨remainingRules 2 0 thresholdRules, ruleSetsOf 2 0 thresholdRules⟩ :=
    rfl
  obtain ⟨hleft, hmoved, hagain⟩ := extract_settles hok
  exact ⟨_, hok, by decide +kernel, hleft, hmoved, hagain (by decide)⟩

end RoutingRules.SingBox
