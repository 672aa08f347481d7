import RoutingRules.Proofs.SingBox.Extraction

/-!
# What extracted rules match

A rule after extraction refers to new rule sets, and a connection is in a new rule set when the
content of the rule set holds of it.  Under this reading this module compares a rule with what is
left of it.

References of a leaf are one field, joined to the conditions by `and`, and the alternatives
within the field by `or`.  A leaf that is extracted gets its new reference put beside those that
it had, so its conditions turn from a field of their own into one more alternative of the
references.  Nothing is lost where an extracted leaf had no references before.

Main results:

- Theorem {lit}`Node.holds_remainder`: what is left of a rule holds when the rule does with the
  references of its extracted leaves read as alternatives to their conditions.
- Theorem {lit}`Leaf.holdsLoosely_eq_holds_iff`: this reading of a leaf is the true one for all
  connections exactly when the leaf is not extracted or has no references.
- Theorem {lit}`extract_meaning`: both for every list of rules that extraction accepts.
-/

namespace RoutingRules.SingBox

variable {γ : Type} [DecidableEq γ]

/-! ## Connections and new rule sets -/

/-- A connection that is in a new rule set when the content of the rule set holds of it. -/
def Connection.withSets (group : String → γ) (sets : List RuleSet) (σ : Connection) : Connection :=
  { σ with
    inSet := fun tag =>
      match setNamed? sets tag with
      | some set => set.content.holds group σ
      | none => σ.inSet tag }

/-- A connection is in a new rule set when its content holds. -/
theorem Connection.withSets_inSet (group : String → γ) {sets : List RuleSet} (σ : Connection)
    (hnodup : (sets.map RuleSet.tag).Nodup) {set : RuleSet} (hset : set ∈ sets) :
    (σ.withSets group sets).inSet set.tag = set.content.holds group σ := by
  simp only [withSets, setNamed?_eq_some hnodup hset]

/-- Rule sets that were there before have the connections that they had. -/
theorem Connection.withSets_inSet_of_old (group : String → γ) {sets : List RuleSet}
    (σ : Connection) {tag : String} (h : ∀ set ∈ sets, set.tag ≠ tag) :
    (σ.withSets group sets).inSet tag = σ.inSet tag := by
  simp only [withSets, setNamed?_eq_none h]

/-! ## The loose reading of leaves -/

namespace Leaf

/-- A leaf with its references read as alternatives to its conditions, if it is extracted. -/
def holdsLoosely (group : String → γ) (minSize : Nat) (σ : Connection) (leaf : Leaf) : Bool :=
  if leaf.cardinality < minSize then leaf.holds group σ
  else σ.judge leaf.extra (conditionsHold group σ leaf.conditions || leaf.inSomeSet σ)

/-- Without references there is nothing to read loosely. -/
theorem holdsLoosely_of_no_references (group : String → γ) (minSize : Nat) (σ : Connection)
    {leaf : Leaf} (h : leaf.references = []) :
    leaf.holdsLoosely group minSize σ = leaf.holds group σ := by
  have hnone : leaf.inSomeSet σ = false := by rw [inSomeSet, h, List.any_nil]
  have hhold : leaf.referencesHold σ = true := by rw [referencesHold, h]; rfl
  rw [holdsLoosely, holds, hnone, hhold, Bool.or_false, Bool.and_true, ite_self]

/-- A connection that passes all other fields and is in all rule sets or in none, chosen so that
the conditions of a leaf and its references do not agree. -/
def tearing (group : String → γ) (leaf : Leaf) : Connection :=
  let all : Connection := ⟨fun _ _ => true, fun _ => true, fun _ _ => true⟩
  { all with inSet := fun _ => !conditionsHold group all leaf.conditions }

/-- A large leaf with references is not read truly at every connection. -/
theorem holdsLoosely_tearing_ne (group : String → γ) {minSize : Nat} {leaf : Leaf}
    (hsize : minSize ≤ leaf.cardinality) (hreferences : leaf.references ≠ []) :
    leaf.holdsLoosely group minSize (leaf.tearing group) ≠
      leaf.holds group (leaf.tearing group) := by
  have hin : leaf.inSomeSet (leaf.tearing group) =
      !conditionsHold group (leaf.tearing group) leaf.conditions := by
    obtain ⟨tag, tags, htags⟩ := List.exists_cons_of_ne_nil hreferences
    rw [inSomeSet, htags]
    simp [tearing, conditionsHold]
  have hnonempty : leaf.references.isEmpty = false := by simpa using hreferences
  have hpasses : (leaf.extra.entries.all fun e =>
      e.1 = invertKey || (leaf.tearing group).passes e.1 e.2) = true := by
    simp [tearing]
  rw [holdsLoosely, if_neg (Nat.not_lt.2 hsize), holds, referencesHold, hnonempty, hin]
  simp only [Connection.judge, hpasses]
  cases conditionsHold group (leaf.tearing group) leaf.conditions <;> simp

/-- The loose reading of a leaf is the true one for all connections exactly when the leaf is not
extracted or has no references. -/
theorem holdsLoosely_eq_holds_iff (group : String → γ) (minSize : Nat) (leaf : Leaf) :
    (∀ σ : Connection, leaf.holdsLoosely group minSize σ = leaf.holds group σ) ↔
      (minSize ≤ leaf.cardinality → leaf.references = []) := by
  constructor
  · intro h hsize
    by_contra hreferences
    exact holdsLoosely_tearing_ne group hsize hreferences (h (leaf.tearing group))
  · intro h σ
    by_cases hsize : leaf.cardinality < minSize
    · rw [holdsLoosely, if_pos hsize]
    · exact holdsLoosely_of_no_references group minSize σ (h (Nat.le_of_not_lt hsize))

end Leaf

/-! ## What is left of a rule -/

namespace Node

/-- Where no extracted leaf has references, the loose reading of a rule is the true one. -/
theorem holdsBy_holdsLoosely (group : String → γ) {minSize : Nat} (σ : Connection) {node : Node}
    (h : ∀ l ∈ node.leaves, minSize ≤ l.cardinality → l.references = []) :
    node.holdsBy σ (Leaf.holdsLoosely group minSize σ) = node.holds group σ :=
  holdsBy_congr node fun l hl => (Leaf.holdsLoosely_eq_holds_iff group minSize l).2 (h l hl) σ

/-- What is left of a leaf holds when the leaf does, read loosely. -/
theorem holds_remainder_leaf (group : String → γ) (minSize : Nat) (tag : String) (σ : Connection)
    (inSet : String → Bool) (l : Leaf) (hold : ∀ t ∈ l.references, inSet t = σ.inSet t)
    (hnew : ∀ set ∈ (leaf l).newSets minSize tag,
      inSet set.tag = set.content.holds group σ) :
    ((leaf l).remainder minSize tag).holds group { σ with inSet } =
      l.holdsLoosely group minSize σ := by
  have hsome : l.references.any inSet = l.inSomeSet σ := by
    rw [Leaf.inSomeSet, Bool.eq_iff_iff, List.any_eq_true, List.any_eq_true]
    exact exists_congr fun t => and_congr_right fun ht => by rw [hold t ht]
  by_cases hsize : l.cardinality < minSize
  · rw [remainder, if_pos hsize, Leaf.holdsLoosely, if_pos hsize]
    show σ.judge l.extra (Leaf.conditionsHold group σ l.conditions &&
      (l.references.isEmpty || l.references.any inSet)) = _
    rw [hsome]
    rfl
  · have htag : inSet tag = Leaf.conditionsHold group σ l.conditions := by
      have hset := hnew ⟨tag, leaf (.ofConditions l.conditions)⟩ (by simp [newSets, hsize])
      rw [hset]
      show σ.judge .empty (Leaf.conditionsHold group σ l.conditions && true) = _
      rw [Connection.judge_empty, Bool.and_true]
    rw [remainder, if_neg hsize, Leaf.holdsLoosely, if_neg hsize]
    -- The new reference stands beside the old ones, so either kind is enough.
    have hany : (l.references ++ [tag]).any inSet =
        (Leaf.conditionsHold group σ l.conditions || l.inSomeSet σ) := by
      rw [List.any_append, List.any_cons, List.any_nil, Bool.or_false, hsome, htag, Bool.or_comm]
    show σ.judge l.extra (true && ((l.references ++ [tag]).isEmpty ||
      (l.references ++ [tag]).any inSet)) = _
    have hnonempty : (l.references ++ [tag]).isEmpty = false := by simp
    rw [hnonempty, hany, Bool.true_and, Bool.false_or]

/-- What is left of a rule holds when the rule does with its leaves read loosely, as long as the
new rule sets have the connections of which their contents hold. -/
theorem holds_remainder (group : String → γ) (minSize : Nat) (σ : Connection)
    (inSet : String → Bool) (node : Node) (tag : String)
    (hold : ∀ t ∈ node.references, inSet t = σ.inSet t)
    (hnew : ∀ set ∈ node.newSets minSize tag, inSet set.tag = set.content.holds group σ) :
    (node.remainder minSize tag).holds group { σ with inSet } =
      node.holdsBy σ (Leaf.holdsLoosely group minSize σ) := by
  induction node using ruleInduction generalizing tag with
  | leaf l =>
    have hown : ∀ t ∈ l.references, inSet t = σ.inSet t := by
      simpa [references, leaves] using hold
    rw [holdsBy]
    exact holds_remainder_leaf group minSize tag σ inSet l hown hnew
  | logical mode children extra ih =>
    by_cases hmerge : mergesAll minSize children = true
    · -- All leaves below are without references, so the rule moves unchanged into its rule set.
      have hplain : ∀ l ∈ (logical mode children .empty).leaves,
          minSize ≤ l.cardinality → l.references = [] := by
        intro l hl _
        obtain ⟨child, hchild, hl⟩ := mem_leaves_logical.1 hl
        have hnone := references_of_movesWhole child (movesWhole_of_mergesAll hmerge child hchild)
        exact List.flatMap_eq_nil_iff.1 hnone l hl
      have htag : inSet tag =
          mode.join (truthsBy σ (Leaf.holdsLoosely group minSize σ) children) := by
        have hset := hnew ⟨tag, logical mode children .empty⟩ (by simp [newSets, hmerge])
        rw [hset, ← holdsBy_holdsLoosely group σ hplain, holdsBy, Connection.judge_empty]
      rw [remainder, if_pos hmerge, holdsBy, ← htag]
      show σ.judge extra (true && (false || (inSet tag || false))) = _
      rw [Bool.true_and, Bool.false_or, Bool.or_false]
    · have hchildren : (remainders minSize tag 0 children).map (holds group { σ with inSet }) =
          children.map (holdsBy σ (Leaf.holdsLoosely group minSize σ)) := by
        refine map_remainders_eq fun child hchild below hsets => ih child hchild below ?_ ?_
        · exact fun t ht => hold t (references_subset_logical hchild ht)
        · rw [newSets, if_neg hmerge] at hnew
          exact fun set hset => hnew set (hsets hset)
      rw [remainder, if_neg hmerge, holds_logical, hchildren, holdsBy, truthsBy_eq_map]
      rfl

end Node

/-! ## Extracted rules -/

/-- What a rule and what is left of it have to do with each other, when `sets` are the new rule
sets. -/
structure ExtractedMeaning (group : String → γ) (minSize : Nat) (sets : List RuleSet)
    (rule rest : Rule) : Prop where
  action_eq : rest.action = rule.action
  /-- What is left of the rule holds when the rule does with its leaves read loosely. -/
  holds_eq : ∀ σ : Connection, rest.node.holds group (σ.withSets group sets) =
    rule.node.holdsBy σ (Leaf.holdsLoosely group minSize σ)
  /-- The rule keeps its meaning exactly when this reading is the true one. -/
  kept_iff : (∀ σ : Connection,
      rest.node.holds group (σ.withSets group sets) = rule.node.holds group σ) ↔
    ∀ σ : Connection,
      rule.node.holdsBy σ (Leaf.holdsLoosely group minSize σ) = rule.node.holds group σ
  /-- That is the case if no leaf that is extracted has references. -/
  kept : (∀ l ∈ rule.node.leaves, minSize ≤ l.cardinality → l.references = []) →
    ∀ σ : Connection, rest.node.holds group (σ.withSets group sets) = rule.node.holds group σ
  /-- For a rule that is a leaf it is the case only then. -/
  kept_leaf_iff : ∀ l : Leaf, rule.node = .leaf l →
    ((∀ σ : Connection, rest.node.holds group (σ.withSets group sets) = rule.node.holds group σ) ↔
      (minSize ≤ l.cardinality → l.references = []))

/-- A list of rules that is accepted keeps its order, its actions and, up to the loose reading of
leaves, its meaning. -/
theorem extract_meaning (group : String → γ) {minSize : Nat} {rules : List Rule}
    {extraction : Extraction} (h : extract minSize rules = .ok extraction)
    (hfresh : ∀ set ∈ extraction.sets, ∀ rule ∈ rules, set.tag ∉ rule.node.references) :
    List.Forall₂ (ExtractedMeaning group minSize extraction.sets) rules extraction.rules := by
  obtain ⟨hnodup, rfl⟩ := extract_eq_ok_iff.1 h
  refine (forall₂_remainingRules minSize 0 rules).imp ?_
  rintro rule rest ⟨hrule, haction, tag, hrest, hsets⟩
  have hloose : ∀ σ : Connection,
      rest.node.holds group (σ.withSets group (ruleSetsOf minSize 0 rules)) =
        rule.node.holdsBy σ (Leaf.holdsLoosely group minSize σ) := by
    intro σ
    rw [hrest]
    refine Node.holds_remainder group minSize σ _ rule.node tag ?_ ?_
    · intro t ht
      refine σ.withSets_inSet_of_old group fun set hset heq => ?_
      exact hfresh set hset rule hrule (heq ▸ ht)
    · exact fun set hset => σ.withSets_inSet group hnodup (hsets hset)
  refine ⟨haction, hloose, forall_congr' fun σ => by rw [hloose], ?_, ?_⟩
  · intro hplain σ
    rw [hloose, Node.holdsBy_holdsLoosely group σ hplain]
  · intro l hl
    rw [← Leaf.holdsLoosely_eq_holds_iff group minSize l, hl]
    refine forall_congr' fun σ => ?_
    rw [hloose, hl, Node.holdsBy, Node.holds_leaf]

/-- A logical rule with one large and one small child, and a large leaf with a reference. -/
def sampleRules : List Rule :=
  [⟨.route "Japan", .logical .or
      [.leaf ⟨.ofList [("domain", [.str "a.com", .str "b.com"])], [], .empty⟩,
        .leaf ⟨.ofList [("port", [.int 443])], ["geo"], .empty⟩]
      (.ofList [(invertKey, .bool true)])⟩,
    ⟨.reject, .leaf ⟨.ofList [("domain_suffix", [.str "a.com", .str "b.com"])], ["geo"], .empty⟩⟩]

theorem extract_meaning_sampleRules :
    ∃ extraction, extract 2 sampleRules = .ok extraction ∧
      (∀ set ∈ extraction.sets, ∀ rule ∈ sampleRules, set.tag ∉ rule.node.references) ∧
      List.Forall₂ (ExtractedMeaning id 2 extraction.sets) sampleRules extraction.rules := by
  have hfresh : ∀ set ∈ ruleSetsOf 2 0 sampleRules, ∀ rule ∈ sampleRules,
      set.tag ∉ rule.node.references := by
    decide
  exact ⟨_, rfl, hfresh, extract_meaning id rfl hfresh⟩

/-- The rule of a leaf with a condition and a reference. -/
def referringRule : Rule :=
  ⟨.route "P", .leaf ⟨.ofList [("domain", [.str "a.com"])], ["geo"], .empty⟩⟩

/-- What is left of such a rule holds of a connection of which the rule does not hold. -/
theorem extract_referringRule_changes_meaning :
    ∃ extraction rest σ, extract 1 [referringRule] = .ok extraction ∧
      (∀ set ∈ extraction.sets, set.tag ∉ referringRule.node.references) ∧
      extraction.rules = [rest] ∧
      rest.node.holds id (σ.withSets id extraction.sets) ≠ referringRule.node.holds id σ := by
  let σ : Connection := ⟨fun _ _ => true, fun _ => false, fun _ _ => true⟩
  refine ⟨_, _, σ, rfl, ?_, rfl, ?_⟩ <;> decide

end RoutingRules.SingBox
