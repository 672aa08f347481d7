import Mathlib.Data.List.Sigma
import RoutingRules.Proofs.Number.Natural
import RoutingRules.Proofs.SingBox.Extraction
import RoutingRules.Proofs.Text.Split

/-!
# Places of extracted rules

A rule that moves to a rule set stands at a place: the number of the rule in the list, the number
of the child below it, and so on.  The tag of the rule set is the slug of an action with these
numbers behind it.

No two rules move from one place, but a slug may itself end in numbers, and then the tags of two
places can be the same text.  Where no piece of a slug is a number, the numbers in a tag are those
of the place, and the tags are as distinct as the places are.

Main results:

- Theorem {lit}`Node.newSets_eq_map_moved`: the new rule sets of a rule are those of the rules that
  move, each with the tag of its place.
- Theorem {lit}`Node.nodup_places_moved`: no two rules move from one place.
- Theorem {lit}`Node.at?_remainder`: at the place of a rule that moves a reference to its tag is
  left.
- Theorem {lit}`numbersOf_tagAt`: the numbers in a tag are those of the place.
- Theorem {lit}`isTagName_slug`: a slug is made of runs of small ASCII letters and digits, whatever
  the name is, and so are the tags of all places.
- Theorem {lit}`extract_tags`: when extraction accepts all rules, and what the tags are.
-/

namespace RoutingRules.SingBox

/-! ## Places and tags -/

/-- The tag at a place below another one. -/
def tagAt (tag : String) (place : List Nat) : String :=
  place.foldl tagBelow tag

namespace Node

/-- The rule at a place below another one. -/
def at? : List Nat → Node → Option Node
  | [], node => some node
  | _ :: _, leaf _ => none
  | index :: place, logical _ children _ => children[index]?.bind (at? place)

/-- What a rule set holds of a rule: the conditions, or the children and how they are joined. -/
def content : Node → Node
  | leaf l => leaf (.ofConditions l.conditions)
  | logical mode children _ => logical mode children .empty

end Node

/-- A rule that moves to a rule set, and the place where it stands. -/
structure Moved where
  place : List Nat
  node : Node

namespace Moved

/-- The same rule, with its place seen from one level above. -/
def under (index : Nat) (moved : Moved) : Moved :=
  { moved with place := index :: moved.place }

/-- The rule set that a rule moves to, if `tag` is the tag of the rule at the empty place. -/
def toSet (tag : String) (moved : Moved) : RuleSet :=
  ⟨tagAt tag moved.place, moved.node.content⟩

theorem toSet_under (tag : String) (index : Nat) (moved : Moved) :
    (moved.under index).toSet tag = moved.toSet (tagBelow tag index) :=
  rfl

end Moved

/-! ## Rules that move -/

namespace Node

mutual

/-- The rules that move to rule sets of their own. -/
def moved (minSize : Nat) : Node → List Moved
  | leaf l => if l.cardinality < minSize then [] else [⟨[], leaf l⟩]
  | logical mode children extra =>
    if mergesAll minSize children then [⟨[], logical mode children extra⟩]
    else movedOfAll minSize 0 children

/-- The rules that move to rule sets of their own below children, which are numbered from `index`
on. -/
def movedOfAll (minSize index : Nat) : List Node → List Moved
  | [] => []
  | node :: nodes =>
    (moved minSize node).map (Moved.under index) ++ movedOfAll minSize (index + 1) nodes

end

mutual

/-- The new rule sets of a rule are those of the rules that move, with the tags of their places. -/
theorem newSets_eq_map_moved (minSize : Nat) (tag : String) : ∀ node : Node,
    node.newSets minSize tag = (node.moved minSize).map (Moved.toSet tag)
  | leaf l => by
    rw [newSets, moved]
    split <;> rfl
  | logical mode children extra => by
    rw [newSets, moved]
    split
    · rfl
    · exact newSetsOfAll_eq_map_moved minSize tag 0 children

theorem newSetsOfAll_eq_map_moved (minSize : Nat) (tag : String) (index : Nat) :
    ∀ nodes : List Node, newSetsOfAll minSize tag index nodes =
      (movedOfAll minSize index nodes).map (Moved.toSet tag)
  | [] => rfl
  | node :: nodes => by
    rw [newSetsOfAll, movedOfAll, List.map_append, List.map_map,
      newSets_eq_map_moved minSize (tagBelow tag index) node,
      newSetsOfAll_eq_map_moved minSize tag (index + 1) nodes]
    simp only [Function.comp_def, Moved.toSet_under]

end

section Moved

variable {minSize index : Nat} {tag : String} {nodes : List Node} {m : Moved}

theorem movedOfAll_eq_flatMap :
    movedOfAll minSize index nodes =
      (nodes.zipIdx index).flatMap fun (node, i) => (node.moved minSize).map (Moved.under i) := by
  induction nodes generalizing index with
  | nil => rfl
  | cons node nodes ih => rw [movedOfAll, ih, List.zipIdx_cons, List.flatMap_cons]

theorem remainders_eq_map :
    remainders minSize tag index nodes =
      (nodes.zipIdx index).map fun (node, i) => node.remainder minSize (tagBelow tag i) := by
  induction nodes generalizing index with
  | nil => rfl
  | cons node nodes ih => rw [remainders, ih, List.zipIdx_cons, List.map_cons]

/-- What moves below children moves below one of them, with the number of the child in front of
its place. -/
theorem mem_movedOfAll_iff :
    m ∈ movedOfAll minSize 0 nodes ↔
      ∃ (i : Nat) (node : Node), nodes[i]? = some node ∧
        ∃ inner ∈ node.moved minSize, inner.under i = m := by
  rw [movedOfAll_eq_flatMap, List.mem_flatMap, Prod.exists, exists_comm]
  simp only [List.mem_zipIdx_iff_getElem?, List.mem_map]

/-- No two rules move from one place below children if none do below each child. -/
theorem nodup_places_movedOfAll
    (h : ∀ node ∈ nodes, ((node.moved minSize).map Moved.place).Nodup) :
    ((movedOfAll minSize 0 nodes).map Moved.place).Nodup := by
  have hunder : ∀ (node : Node) (i : Nat),
      ((node.moved minSize).map (Moved.under i)).map Moved.place =
        ((node.moved minSize).map Moved.place).map (i :: ·) := by
    simp [Moved.under]
  rw [movedOfAll_eq_flatMap, List.map_flatMap, List.nodup_flatMap]
  constructor
  · intro p hp
    have hnode : p.1 ∈ nodes := List.mem_of_getElem? (List.mem_zipIdx_iff_getElem?.1 hp)
    rw [hunder]
    exact (h p.1 hnode).map fun _ _ heq => (List.cons.inj heq).2
  · -- The number in front tells the places of one child from those of another.
    have hindices : nodes.zipIdx.Pairwise fun p q => p.2 ≠ q.2 :=
      List.pairwise_map.1 (List.nodup_zipIdx_map_snd nodes)
    apply hindices.imp
    intro p q hne place hp hq
    simp only [hunder, List.mem_map] at hp hq
    rcases hp with ⟨_, _, rfl⟩
    rcases hq with ⟨_, _, heq⟩
    exact hne (List.cons.inj heq).1.symm

/-- No two rules move from one place. -/
theorem nodup_places_moved (node : Node) : ((node.moved minSize).map Moved.place).Nodup := by
  induction node using ruleInduction with
  | leaf l =>
    rw [moved]
    split <;> simp
  | logical mode children extra ih =>
    rw [moved]
    split
    · simp
    · exact nodup_places_movedOfAll ih

/-- What is left of a child stands at the place of the child. -/
theorem at?_remainders {mode : Mode} {extra : SortedMap Json} (i : Nat) (place : List Nat) :
    (logical mode (remainders minSize tag 0 nodes) extra).at? (i :: place) =
      nodes[i]?.bind fun node => (node.remainder minSize (tagBelow tag i)).at? place := by
  rw [at?, remainders_eq_map, List.getElem?_map, List.getElem?_zipIdx]
  cases nodes[i]? <;> simp

/-- A rule that moves stands at its place. -/
theorem at?_of_mem_moved {node : Node} (h : m ∈ node.moved minSize) :
    node.at? m.place = some m.node := by
  induction node using ruleInduction generalizing m with
  | leaf l =>
    rw [moved] at h
    split at h
    · cases h
    · rw [List.mem_singleton.1 h]
      rfl
  | logical mode children extra ih =>
    rw [moved] at h
    split at h
    · rw [List.mem_singleton.1 h]
      rfl
    · rcases mem_movedOfAll_iff.1 h with ⟨i, child, hchild, inner, hinner, rfl⟩
      have hat := ih child (List.mem_of_getElem? hchild) hinner
      simpa [Moved.under, at?, hchild] using hat

/-- At the place of a rule that moves a leaf is left, and its last reference is the tag of the
place. -/
theorem at?_remainder {node : Node} (tag : String) (h : m ∈ node.moved minSize) :
    ∃ l, (node.remainder minSize tag).at? m.place = some (leaf l) ∧
      l.references.getLast? = some (tagAt tag m.place) := by
  induction node using ruleInduction generalizing m tag with
  | leaf l =>
    rw [moved] at h
    rw [remainder]
    split at h
    next => cases h
    next hsize =>
      rw [if_neg hsize, List.mem_singleton.1 h]
      exact ⟨_, rfl, by simp [tagAt]⟩
  | logical mode children extra ih =>
    rw [moved] at h
    rw [remainder]
    split at h
    next hmerge =>
      rw [if_pos hmerge, List.mem_singleton.1 h]
      exact ⟨_, rfl, rfl⟩
    next hmerge =>
      rcases mem_movedOfAll_iff.1 h with ⟨i, child, hchild, inner, hinner, rfl⟩
      rcases ih child (List.mem_of_getElem? hchild) (tagBelow tag i) hinner with ⟨l, hat, hlast⟩
      refine ⟨l, ?_, hlast⟩
      rw [if_neg hmerge, Moved.under, at?_remainders, hchild]
      exact hat

/-- A leaf with enough alternatives moves, on its own or with a rule above it. -/
theorem exists_moved_of_at? {node : Node} {place : List Nat} {l : Leaf}
    (hat : node.at? place = some (leaf l)) (hsize : minSize ≤ l.cardinality) :
    ∃ m ∈ node.moved minSize, m.place <+: place := by
  induction node using ruleInduction generalizing place with
  | leaf other =>
    cases place with
    | cons => cases hat
    | nil =>
      have hother : other = l := Node.leaf.inj (Option.some.inj hat)
      rw [moved, hother, if_neg (Nat.not_lt.2 hsize)]
      exact ⟨_, List.mem_singleton_self _, List.nil_prefix⟩
  | logical mode children extra ih =>
    rw [moved]
    split
    next => exact ⟨_, List.mem_singleton_self _, List.nil_prefix⟩
    next =>
      cases place with
      | nil => cases hat
      | cons i place =>
        rcases Option.bind_eq_some_iff.1 hat with ⟨child, hchild, hat⟩
        rcases ih child (List.mem_of_getElem? hchild) hat with ⟨inner, hinner, hfront⟩
        refine ⟨inner.under i, mem_movedOfAll_iff.2 ⟨i, child, hchild, inner, hinner, rfl⟩, ?_⟩
        exact List.cons_prefix_cons.2 ⟨rfl, hfront⟩

end Moved

end Node

/-! ## Numbers in tags -/

/-- Whether a text is a number: digits and nothing else. -/
def isNumber (s : String) : Bool :=
  s ≠ "" && s.toList.all Char.isDigit

/-- The pieces of a tag that are numbers. -/
def numbersOf (tag : String) : List String :=
  (Text.pieces '-' tag).filter isNumber

theorem isNumber_decimal (n : Nat) : isNumber (Number.decimal n) = true := by
  have hdigits : ∀ c ∈ Nat.toDigits 10 n, c.isDigit = true := fun c hc =>
    Nat.isDigit_of_mem_toDigits (by decide) (by decide) hc
  simpa [isNumber, Number.decimal, Nat.toDigits_ne_nil] using hdigits

/-- Numbers with the same decimal text are equal. -/
theorem decimal_injective : Function.Injective Number.decimal := by
  intro m n h
  have hdigits : Nat.toDigits 10 m = Nat.toDigits 10 n := String.ofList_injective h
  calc
    m = Nat.ofDigitChars 10 (Nat.toDigits 10 m) 0 := Nat.ofDigitChars_ten_toDigits.symm
    _ = Nat.ofDigitChars 10 (Nat.toDigits 10 n) 0 := by rw [hdigits]
    _ = n := Nat.ofDigitChars_ten_toDigits

/-- One level below, a tag has one more piece, which is a number. -/
theorem pieces_tagBelow (tag : String) (index : Nat) :
    Text.pieces '-' (tagBelow tag index) = Text.pieces '-' tag ++ [Number.decimal index] := by
  have hpiece : '-' ∉ (Number.decimal index).toList := by
    rw [Number.decimal, String.toList_ofList]
    exact Number.not_mem_toDigits (by decide) index
  have hsep : tagBelow tag index = tag ++ String.singleton '-' ++ Number.decimal index := rfl
  rw [hsep, Text.pieces_append, Text.pieces_of_not_mem hpiece]

/-- A tag at a place has the numbers of the place behind its own. -/
theorem numbersOf_tagAt (tag : String) (place : List Nat) :
    numbersOf (tagAt tag place) = numbersOf tag ++ place.map Number.decimal := by
  induction place generalizing tag with
  | nil => simp [tagAt]
  | cons index place ih =>
    have hbelow : numbersOf (tagBelow tag index) = numbersOf tag ++ [Number.decimal index] := by
      simp [numbersOf, pieces_tagBelow, isNumber_decimal]
    have hcons : tagAt tag (index :: place) = tagAt (tagBelow tag index) place := rfl
    rw [hcons, ih, hbelow]
    simp

/-! ## Lists of rules -/

section Rules

variable {minSize index : Nat} {rules : List Rule}

/-- What is left of a rule stands at the place of the rule. -/
theorem getElem?_remainingRules (i : Nat) :
    (remainingRules minSize index rules)[i]? = rules[i]?.map fun rule =>
      ⟨rule.action, rule.node.remainder minSize (rule.tag (index + i))⟩ := by
  have hmap : remainingRules minSize index rules = (rules.zipIdx index).map fun (rule, j) =>
      ⟨rule.action, rule.node.remainder minSize (rule.tag j)⟩ := by
    induction rules generalizing index with
    | nil => rfl
    | cons rule rules ih => rw [remainingRules, ih, List.zipIdx_cons, List.map_cons]
  rw [hmap, List.getElem?_map, List.getElem?_zipIdx, Option.map_map]
  rfl

theorem ruleSetsOf_eq_flatMap :
    ruleSetsOf minSize index rules = (rules.zipIdx index).flatMap fun (rule, i) =>
      (rule.node.moved minSize).map (Moved.toSet (rule.tag i)) := by
  induction rules generalizing index with
  | nil => rfl
  | cons rule rules ih =>
    rw [ruleSetsOf, ih, List.zipIdx_cons, List.flatMap_cons, Node.newSets_eq_map_moved]

/-- The new rule sets of rules are those of the rules that move below one of them. -/
theorem mem_ruleSetsOf_iff {set : RuleSet} :
    set ∈ ruleSetsOf minSize 0 rules ↔
      ∃ (i : Nat) (rule : Rule), rules[i]? = some rule ∧
        ∃ m ∈ rule.node.moved minSize, m.toSet (rule.tag i) = set := by
  rw [ruleSetsOf_eq_flatMap, List.mem_flatMap, Prod.exists, exists_comm]
  simp only [List.mem_zipIdx_iff_getElem?, List.mem_map]

/-- Without numbers in the slugs, the numbers in the tags are those of the places. -/
theorem map_numbersOf_ruleSetsOf
    (h : ∀ rule ∈ rules, numbersOf (slug rule.action.name) = []) :
    (ruleSetsOf minSize index rules).map (fun set => numbersOf set.tag) =
      ((Node.movedOfAll minSize index (rules.map Rule.node)).map Moved.place).map
        (List.map Number.decimal) := by
  induction rules generalizing index with
  | nil => rfl
  | cons rule rules ih =>
    rw [List.forall_mem_cons] at h
    have hnumbers : ∀ m : Moved, numbersOf (m.toSet (rule.tag index)).tag =
        (m.under index).place.map Number.decimal := by
      intro m
      have hset : (m.toSet (rule.tag index)).tag =
          tagAt (slug rule.action.name) (m.under index).place := rfl
      rw [hset, numbersOf_tagAt, h.1, List.nil_append]
    rw [ruleSetsOf, List.map_cons, Node.movedOfAll, List.map_append, List.map_append,
      List.map_append, ih h.2, Node.newSets_eq_map_moved]
    simp [Function.comp_def, hnumbers]

/-- Without numbers in the slugs the tags are distinct. -/
theorem nodup_tags_ruleSetsOf (h : ∀ rule ∈ rules, numbersOf (slug rule.action.name) = []) :
    ((ruleSetsOf minSize 0 rules).map RuleSet.tag).Nodup := by
  have hplaces : ((Node.movedOfAll minSize 0 (rules.map Rule.node)).map Moved.place).Nodup :=
    Node.nodup_places_movedOfAll fun node _ => node.nodup_places_moved
  apply List.Nodup.of_map numbersOf
  rw [List.map_map]
  exact (map_numbersOf_ruleSetsOf h).symm ▸ hplaces.map (List.map_injective_iff.2 decimal_injective)

end Rules

/-! ## The form of tags -/

/-- A run within a tag: small ASCII letters and digits, and at least one of them. -/
def IsTagRun (run : String) : Prop :=
  run ≠ "" ∧ ∀ c ∈ run.toList, c.isLower = true ∨ c.isDigit = true

/-- The form of tags: one or more runs with single hyphens between them. -/
def IsTagName (tag : String) : Prop :=
  ∃ runs, runs ≠ [] ∧ (∀ run ∈ runs, IsTagRun run) ∧ tag = Text.joinWith "-" runs

theorem isTagRun_decimal (n : Nat) : IsTagRun (Number.decimal n) := by
  have hlist : (Number.decimal n).toList = Nat.toDigits 10 n := String.toList_ofList
  constructor
  · intro hempty
    rw [hempty] at hlist
    exact Nat.toDigits_ne_nil hlist.symm
  · intro c hc
    rw [hlist] at hc
    exact .inr (Nat.isDigit_of_mem_toDigits (by decide) (by decide) hc)

/-- Letters are capital or small ones. -/
theorem isAlphanum_iff {c : Char} :
    c.isAlphanum = true ↔ c.isUpper = true ∨ c.isLower = true ∨ c.isDigit = true := by
  have heq : c.isAlphanum = (c.isUpper || c.isLower || c.isDigit) := rfl
  rw [heq, Bool.or_eq_true, Bool.or_eq_true, or_assoc]

theorem isUpper_iff {c : Char} : c.isUpper = true ↔ 'A'.val ≤ c.val ∧ c.val ≤ 'Z'.val :=
  decide_eq_true_iff

/-- Of letters and digits, only small letters and digits are left in lowercase. -/
theorem isLower_or_isDigit_toLower {c : Char} (h : c.toLower.isAlphanum = true) :
    c.toLower.isLower = true ∨ c.toLower.isDigit = true := by
  have hcapital : ¬c.toLower.isUpper = true := by
    rw [isUpper_iff]
    unfold Char.toLower
    split <;> grind [UInt32.toNat_add, Char.toNat_val]
  exact (isAlphanum_iff.1 h).resolve_left hcapital

/-- A slug has the form of a tag, whatever the name is. -/
theorem isTagName_slug (name : String) : IsTagName (slug name) := by
  unfold slug
  dsimp only
  split
  next => exact ⟨["rule"], by simp, by simp [IsTagRun], rfl⟩
  next runs hne =>
    refine ⟨_, by simpa using hne, ?_, rfl⟩
    intro run hrun
    obtain ⟨cs, hcs, rfl⟩ := List.mem_map.1 hrun
    obtain ⟨hpiece, hfull⟩ := List.mem_filter.1 hcs
    refine ⟨by simpa using hfull, fun c hc => ?_⟩
    rw [String.toList_ofList] at hc
    -- The runs are cut out of the name after all of it was brought to lowercase.
    have hname : c ∈ name.toList.map Char.toLower :=
      (Text.sublist_of_mem_splitWhere hpiece).subset hc
    obtain ⟨original, _, rfl⟩ := List.mem_map.1 hname
    have hkept := Text.of_mem_splitWhere hpiece _ hc
    exact isLower_or_isDigit_toLower (by simpa using hkept)

/-- One level below, the name of a tag has one more run, which is a number. -/
theorem IsTagName.tagBelow {tag : String} (h : IsTagName tag) (index : Nat) :
    IsTagName (tagBelow tag index) := by
  obtain ⟨runs, hne, hruns, rfl⟩ := h
  refine ⟨runs ++ [Number.decimal index], by simp, ?_, ?_⟩
  · intro run hrun
    rcases List.mem_append.1 hrun with hrun | hrun
    · exact hruns run hrun
    · rw [List.mem_singleton.1 hrun]
      exact isTagRun_decimal index
  · have hjoin : Text.joinWith "-" (runs ++ [Number.decimal index]) = _ :=
      Text.joinWith_append hne (List.cons_ne_nil _ _)
    exact hjoin.symm

theorem IsTagName.tagAt {tag : String} (h : IsTagName tag) (place : List Nat) :
    IsTagName (tagAt tag place) := by
  induction place generalizing tag with
  | nil => exact h
  | cons index place ih => exact ih (h.tagBelow index)

/-- A tag has no characters but small letters, digits and hyphens. -/
theorem IsTagName.chars {tag : String} (h : IsTagName tag) {c : Char} (hc : c ∈ tag.toList) :
    c.isLower = true ∨ c.isDigit = true ∨ c = '-' := by
  obtain ⟨runs, _, hruns, rfl⟩ := h
  by_cases hhyphen : c = '-'
  · exact .inr (.inr hhyphen)
  · have hglue : c ∉ "-".toList := by simpa using hhyphen
    obtain ⟨run, hrun, hc⟩ := (Text.mem_joinWith hglue).1 hc
    exact ((hruns run hrun).2 c hc).imp_right .inl

/-- The tags of new rule sets have the form of tags. -/
theorem isTagName_of_mem_ruleSetsOf {minSize : Nat} {rules : List Rule} {set : RuleSet}
    (h : set ∈ ruleSetsOf minSize 0 rules) : IsTagName set.tag := by
  obtain ⟨index, rule, _, m, _, rfl⟩ := mem_ruleSetsOf_iff.1 h
  exact ((isTagName_slug rule.action.name).tagBelow index).tagAt m.place

/-- Whether a text only has ASCII letters and digits and hyphens. -/
def IsPlainTag (tag : String) : Prop :=
  ∀ c ∈ tag.toList, c.isAlphanum = true ∨ c = '-'

/-- The tags of extracted rule sets are plain. -/
theorem isPlainTag_of_extract {minSize : Nat} {rules : List Rule} {extraction : Extraction}
    (h : extract minSize rules = .ok extraction) : ∀ set ∈ extraction.sets, IsPlainTag set.tag := by
  obtain ⟨_, rfl⟩ := extract_eq_ok_iff.1 h
  intro set hset c hc
  rcases (isTagName_of_mem_ruleSetsOf hset).chars hc with hlower | hdigit | hhyphen
  · exact .inl (isAlphanum_iff.2 (.inr (.inl hlower)))
  · exact .inl (isAlphanum_iff.2 (.inr (.inr hdigit)))
  · exact .inr hhyphen

/-! ## Accepted rules -/

/-- Rules are accepted when no piece of a slug is a number.  Whenever rules are accepted, all tags
are distinct, and each is the slug of the action of a rule, the number of this rule and the place of
the rule below it that moved: the rule set holds what was there, and a reference to the tag is left
there.  A leaf with enough alternatives is at or below one of these places. -/
theorem extract_tags (minSize : Nat) (rules : List Rule) :
    ((∀ rule ∈ rules, ∀ piece ∈ Text.pieces '-' (slug rule.action.name), isNumber piece = false) →
      ∃ extraction, extract minSize rules = .ok extraction) ∧
    ∀ extraction, extract minSize rules = .ok extraction →
      (extraction.sets.map RuleSet.tag).Nodup ∧
      (∀ set ∈ extraction.sets, ∃ (index : Nat) (rule : Rule) (place : List Nat) (node : Node),
        rules[index]? = some rule ∧ rule.node.at? place = some node ∧
        set.tag = tagAt (slug rule.action.name) (index :: place) ∧ set.content = node.content ∧
        ∃ rest l, extraction.rules[index]? = some ⟨rule.action, rest⟩ ∧
          rest.at? place = some (.leaf l) ∧ l.references.getLast? = some set.tag) ∧
      ∀ (index : Nat) (rule : Rule) (place : List Nat) (l : Leaf),
        rules[index]? = some rule → rule.node.at? place = some (.leaf l) →
        minSize ≤ l.cardinality →
        ∃ set ∈ extraction.sets, ∃ front, front <+: place ∧
          set.tag = tagAt (slug rule.action.name) (index :: front) := by
  constructor
  · intro h
    have hslugs : ∀ rule ∈ rules, numbersOf (slug rule.action.name) = [] := by
      intro rule hrule
      rw [numbersOf, List.filter_eq_nil_iff]
      intro piece hpiece
      rw [h rule hrule piece hpiece]
      exact Bool.false_ne_true
    exact ⟨_, extract_eq_ok_iff.2 ⟨nodup_tags_ruleSetsOf hslugs, rfl⟩⟩
  · intro extraction h
    rcases extract_eq_ok_iff.1 h with ⟨hnodup, rfl⟩
    refine ⟨hnodup, ?_, ?_⟩
    · intro set hset
      rcases mem_ruleSetsOf_iff.1 hset with ⟨index, rule, hrule, m, hm, rfl⟩
      rcases Node.at?_remainder (rule.tag index) hm with ⟨l, hleft, hlast⟩
      refine ⟨index, rule, m.place, m.node, hrule, Node.at?_of_mem_moved hm, rfl, rfl,
        rule.node.remainder minSize (rule.tag index), l, ?_, hleft, hlast⟩
      rw [getElem?_remainingRules, hrule, Nat.zero_add]
      rfl
    · intro index rule place l hrule hat hsize
      rcases Node.exists_moved_of_at? hat hsize with ⟨m, hm, hfront⟩
      exact ⟨m.toSet (rule.tag index), mem_ruleSetsOf_iff.2 ⟨index, rule, hrule, m, hm, rfl⟩,
        m.place, hfront, rfl⟩

/-- A rule of which one child is merged and the other one stays, and one that moves as a whole. -/
def placedRules : List Rule :=
  [⟨.route "Japan 2x", .logical .or
      [.leaf (.ofConditions (.ofList [("port", [.int 80])])),
        .logical .and
          [.leaf (.ofConditions (.ofList [("domain", [.str "a.com", .str "b.com"])])),
            .leaf (.ofConditions (.ofList [("port", [.int 80, .int 443])]))] .empty]
      .empty⟩,
    ⟨.reject, .leaf ⟨.ofList [("domain", [.str "a.com", .str "b.com"])], ["geo"], .empty⟩⟩]

theorem extract_tags_placedRules :
    (∀ rule ∈ placedRules, ∀ piece ∈ Text.pieces '-' (slug rule.action.name),
      isNumber piece = false) ∧
    ∃ extraction, extract 2 placedRules = .ok extraction ∧
      extraction.sets.map RuleSet.tag = ["japan-2x-0-1", "reject-1"] ∧
      (extraction.sets.map RuleSet.tag).Nodup ∧
      (∀ set ∈ extraction.sets, ∃ (index : Nat) (rule : Rule) (place : List Nat) (node : Node),
        placedRules[index]? = some rule ∧ rule.node.at? place = some node ∧
        set.tag = tagAt (slug rule.action.name) (index :: place) ∧ set.content = node.content ∧
        ∃ rest l, extraction.rules[index]? = some ⟨rule.action, rest⟩ ∧
          rest.at? place = some (.leaf l) ∧ l.references.getLast? = some set.tag) ∧
      ∀ (index : Nat) (rule : Rule) (place : List Nat) (l : Leaf),
        placedRules[index]? = some rule → rule.node.at? place = some (.leaf l) →
        2 ≤ l.cardinality →
        ∃ set ∈ extraction.sets, ∃ front, front <+: place ∧
          set.tag = tagAt (slug rule.action.name) (index :: front) := by
  have hslugs : ∀ rule ∈ placedRules, ∀ piece ∈ Text.pieces '-' (slug rule.action.name),
      isNumber piece = false := by
    decide +kernel
  rcases (extract_tags 2 placedRules).1 hslugs with ⟨extraction, hok⟩
  have hlaws := (extract_tags 2 placedRules).2 extraction hok
  have htags : extraction.sets.map RuleSet.tag = ["japan-2x-0-1", "reject-1"] := by
    rw [(extract_eq_ok_iff.1 hok).2]
    decide +kernel
  exact ⟨hslugs, extraction, hok, htags, hlaws⟩

/-- With a number in a slug, the place of a rule and that of a child of another one can have one
tag. -/
example : extract 1
    [⟨.route "x-1", .leaf (.ofConditions (.ofList [("domain", [.str "a.com"])]))⟩,
      ⟨.route "x", .logical .or
        [.leaf (.ofConditions (.ofList [("domain", [.str "b.com"])])),
          .leaf ⟨.empty, ["geo"], .empty⟩] .empty⟩] = .error (.tagConflict "x-1-0") :=
  rfl

end RoutingRules.SingBox
