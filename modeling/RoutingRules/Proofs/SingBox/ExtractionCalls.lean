import RoutingRules.Proofs.SingBox.Extraction

/-!
# The list of rule sets during extraction

Extraction of a rule calls itself for the children, one after another, and hands on the list of rule
sets so far.  Every call leaves what was in the list at its front, yet merging cuts the end of the
list off, by the number of the children and without a look at what is there.

This is safe because a call after which nothing is left but a new reference has put exactly one rule
set at the end.  So where all children are merged, the end of the list holds one rule set for each of
them, in their order, and what stands in front of these is older than the call.

Main results:

- Theorem {lit}`Node.extractAll_append`: children are extracted one after another.
- Theorem {lit}`Call.mergesOwn`: merging removes the rule sets of the children, and no others.
- Theorem {lit}`Call.Reaches.sets_prefix`: the list at an inner call starts with that at the outer
  one.
- Theorem {lit}`Node.extract_appends`: the same for every call that the extraction of a rule makes.
-/

namespace RoutingRules.SingBox

/-! ## Children in their order -/

namespace Node

/-- Children are extracted one after another: those behind others with the rule sets that these
have left. -/
theorem extractAll_append (minSize : Nat) (tag : String) (index : Nat) (sets : List RuleSet)
    (front back : List Node) :
    extractAll minSize tag index sets (front ++ back) =
      let first := extractAll minSize tag index sets front
      let others := extractAll minSize tag (index + front.length) first.sets back
      ⟨first.nodes ++ others.nodes, first.reduced && others.reduced, others.sets⟩ := by
  induction front generalizing index sets with
  | nil => simp [extractAll]
  | cons node front ih =>
    simp only [List.cons_append, extractAll, ih, List.length_cons, Bool.and_assoc,
      Nat.add_right_comm index 1, Nat.add_assoc]

end Node

/-! ## Calls -/

/-- A call of extraction: the tag for the rule, the rule sets so far, and the rule. -/
structure Call where
  tag : String
  sets : List RuleSet
  node : Node

namespace Call

/-- What a call gives. -/
def result (minSize : Nat) (call : Call) : Extracted :=
  call.node.extract minSize call.tag call.sets

/-- What the calls for children give together. -/
def inner (minSize : Nat) (call : Call) (children : List Node) : ExtractedAll :=
  Node.extractAll minSize call.tag 0 call.sets children

/-- The call for the child at a position, after those for the children in front of it. -/
def forChild (minSize : Nat) (call : Call) (children : List Node) (index : Nat)
    (child : Node) : Call :=
  ⟨tagBelow call.tag index, (call.inner minSize (children.take index)).sets, child⟩

/-- The calls that a call makes, those that they make, and so on. -/
inductive Reaches (minSize : Nat) (outer : Call) : Call → Prop
  | self : Reaches minSize outer outer
  | child {call : Call} {mode : Mode} {children : List Node} {extra : SortedMap Json} {index : Nat}
      {child : Node} (h : Reaches minSize outer call)
      (hnode : call.node = .logical mode children extra) (hchild : children[index]? = some child) :
      Reaches minSize outer (call.forChild minSize children index child)

variable {minSize : Nat} {call outer : Call} {children : List Node}

/-- Calls for children put their rule sets behind those that were there. -/
theorem sets_inner : (call.inner minSize children).sets =
    call.sets ++ Node.newSetsOfAll minSize call.tag 0 children := by
  rw [inner, Node.extractAll_eq]

/-- The call for a child goes on with the list from the children in front of it, and gives the list for
those behind it. -/
theorem sets_inner_take_succ {index : Nat} {child : Node} (h : children[index]? = some child) :
    (call.inner minSize (children.take (index + 1))).sets =
      ((call.forChild minSize children index child).result minSize).sets := by
  have hlength : (children.take index).length = index :=
    List.length_take_of_le (Nat.le_of_lt (List.getElem?_eq_some_iff.1 h).1)
  rw [List.take_add_one, h, inner, Node.extractAll_append, hlength, Nat.zero_add]
  rfl

/-- The list at an inner call starts with that at the outer one. -/
theorem Reaches.sets_prefix (h : Reaches minSize outer call) : outer.sets <+: call.sets := by
  induction h with
  | self => exact List.prefix_refl _
  | child _ _ _ ih =>
    refine ih.trans ?_
    rw [forChild, sets_inner]
    exact List.prefix_append _ _

/-- What merging the rule sets of children finds in the list: no fewer rule sets than there are
children, in front those from before the call, and at the end those that the calls for the children
have added, in the order of the children. -/
structure MergesOwn (minSize : Nat) (call : Call) (children : List Node) : Prop where
  enough : children.length ≤ (call.inner minSize children).sets.length
  kept : (call.inner minSize children).sets.take
    ((call.inner minSize children).sets.length - children.length) = call.sets
  removed : (call.inner minSize children).sets.drop
    ((call.inner minSize children).sets.length - children.length) =
      children.zipIdx.map fun (child, i) => ⟨tagBelow call.tag i, child⟩
  own : ∀ index child, children[index]? = some child →
    ((call.forChild minSize children index child).result minSize).sets =
      (call.forChild minSize children index child).sets ++ [⟨tagBelow call.tag index, child⟩]

/-- Merging removes the rule sets that the calls for the children have added, and no others. -/
theorem mergesOwn (h : (call.inner minSize children).reduced = true) :
    call.MergesOwn minSize children := by
  have hall : Node.allMoveWhole minSize children = true := by
    rwa [inner, Node.extractAll_eq] at h
  have hsets : (call.inner minSize children).sets =
      call.sets ++ children.zipIdx.map fun (child, i) => ⟨tagBelow call.tag i, child⟩ := by
    rw [sets_inner, Node.newSetsOfAll_of_allMoveWhole hall]
  have hlength : (call.inner minSize children).sets.length =
      call.sets.length + children.length := by
    rw [hsets, List.length_append, List.length_map, List.length_zipIdx]
  have hkept : (call.inner minSize children).sets.length - children.length = call.sets.length := by
    omega
  refine ⟨by omega, ?_, ?_, fun index child hchild => ?_⟩
  · rw [hkept, hsets, List.take_left]
  · rw [hkept, hsets, List.drop_left]
  · have hmoves : child.movesWhole minSize = true :=
      Node.allMoveWhole_iff.1 hall child (List.mem_of_getElem? hchild)
    rw [result, Node.extract_eq, forChild, Node.newSets_of_movesWhole hmoves]

end Call

/-! ## Extraction of a rule -/

/-- Extraction only puts rule sets behind those that were there.  A rule of which nothing else is left
has added one, with its tag, and has become a bare reference to it.  So every merge, in the call
itself and in those that it makes, removes the rule sets of the children that it merges, of which
there are enough, and leaves those from before alone. -/
theorem Node.extract_appends (minSize : Nat) (tag : String) (sets : List RuleSet) (node : Node) :
    (∃ added, (node.extract minSize tag sets).sets = sets ++ added) ∧
      ((node.extract minSize tag sets).reduced = true →
        ∃ content l, (node.extract minSize tag sets).sets = sets ++ [⟨tag, content⟩] ∧
          (node.extract minSize tag sets).node = .leaf l ∧ l.isBareReference = true ∧
          l.references = [tag]) ∧
      ∀ call, Call.Reaches minSize ⟨tag, sets, node⟩ call → sets <+: call.sets ∧
        ∀ mode children extra, call.node = .logical mode children extra →
          (∀ index child, children[index]? = some child →
            (call.inner minSize (children.take (index + 1))).sets =
              ((call.forChild minSize children index child).result minSize).sets) ∧
          (children ≠ [] → (call.inner minSize children).reduced = true →
            call.MergesOwn minSize children ∧
              (call.result minSize).sets =
                call.sets ++ [⟨call.tag, .logical mode children .empty⟩]) := by
  refine ⟨?_, fun hreduced => ?_, fun call hcall => ⟨hcall.sets_prefix, ?_⟩⟩
  · rw [extract_eq]
    exact ⟨_, rfl⟩
  · rw [extract_eq] at hreduced ⊢
    exact ⟨node, ⟨.empty, [tag], .empty⟩, by rw [newSets_of_movesWhole hreduced],
      remainder_of_movesWhole hreduced, rfl, rfl⟩
  · intro mode children extra hnode
    refine ⟨fun index child => Call.sets_inner_take_succ, fun hne hreduced => ?_⟩
    refine ⟨Call.mergesOwn hreduced, ?_⟩
    have hmerges : mergesAll minSize children = true := by
      rw [Call.inner, extractAll_eq] at hreduced
      rw [mergesAll, Bool.and_eq_true]
      exact ⟨hreduced, by simpa using hne⟩
    rw [Call.result, hnode, extract_eq, newSets, if_pos hmerges]

/-- Two leaves that are merged. -/
def mergedPair : List Node :=
  [.leaf (.ofConditions (.ofList [("domain", [.str "a.com", .str "b.com"])])),
    .leaf (.ofConditions (.ofList [("port", [.int 80, .int 443])]))]

/-- A leaf and the pair behind it, which are merged once more. -/
def mergedTwice : List Node :=
  [.leaf (.ofConditions (.ofList [("domain_suffix", [.str "c.com", .str "d.com"])])),
    .logical .and mergedPair .empty]

/-- The call for a rule that is merged through two levels, behind a rule set of an earlier rule. -/
def outerCall : Call :=
  ⟨"japan-1", [⟨"reject-0", .leaf .empty⟩], .logical .or mergedTwice .empty⟩

/-- The call for the pair, where the list also has the rule set of the leaf in front. -/
def pairCall : Call :=
  outerCall.forChild 2 mergedTwice 1 (.logical .and mergedPair .empty)

theorem Node.extract_appends_mergedTwice :
    (outerCall.result 2).reduced = true ∧
      (∃ content l, (outerCall.result 2).sets = outerCall.sets ++ [⟨"japan-1", content⟩] ∧
        (outerCall.result 2).node = .leaf l ∧ l.isBareReference = true ∧
        l.references = ["japan-1"]) ∧
      Call.Reaches 2 outerCall pairCall ∧ outerCall.sets <+: pairCall.sets ∧
      pairCall.sets.map RuleSet.tag = ["reject-0", "japan-1-0"] ∧
      pairCall.node = .logical .and mergedPair .empty ∧
      mergedPair[1]? = some (.leaf (.ofConditions (.ofList [("port", [.int 80, .int 443])]))) ∧
      (pairCall.inner 2 (mergedPair.take 2)).sets =
        ((pairCall.forChild 2 mergedPair 1
          (.leaf (.ofConditions (.ofList [("port", [.int 80, .int 443])])))).result 2).sets ∧
      mergedPair ≠ [] ∧ (pairCall.inner 2 mergedPair).reduced = true ∧
      pairCall.MergesOwn 2 mergedPair ∧
      (pairCall.result 2).sets =
        pairCall.sets ++ [⟨"japan-1-1", .logical .and mergedPair .empty⟩] := by
  obtain ⟨-, hreference, hcalls⟩ :=
    extract_appends 2 "japan-1" [⟨"reject-0", .leaf .empty⟩] (.logical .or mergedTwice .empty)
  have hreduced : (outerCall.result 2).reduced = true := by decide +kernel
  have hreaches : Call.Reaches 2 outerCall pairCall := .child .self rfl rfl
  have hpair : (pairCall.inner 2 mergedPair).reduced = true := by decide +kernel
  obtain ⟨hold, hlogical⟩ := hcalls pairCall hreaches
  obtain ⟨hstep, hmerge⟩ := hlogical .and mergedPair .empty rfl
  have hne : mergedPair ≠ [] := List.cons_ne_nil _ _
  obtain ⟨howns, hsets⟩ := hmerge hne hpair
  exact ⟨hreduced, hreference hreduced, hreaches, hold, by decide +kernel, rfl, rfl, hstep 1 _ rfl,
    hne, hpair, howns, hsets⟩

end RoutingRules.SingBox
