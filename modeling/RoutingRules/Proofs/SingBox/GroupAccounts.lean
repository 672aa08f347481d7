import RoutingRules.Proofs.SingBox.ExpansionMeaning

/-!
# What grouped conditions account for

Every condition of a list that is grouped ends up in one place: it is an alternative of a leaf, it
is counted as one that sing-box does not know, or it is a condition on processes that is left out.
This module counts the conditions in these places and says how the leaves make up the rule.

Main results:

- Theorem {lit}`Leaf.cardinality_pushAll`: each pushed field is one more alternative.
- Theorem {lit}`length_sideFields`: the alternatives of a side are counted by their conditions.
- Theorem {lit}`unsupported_of_group`: sing-box does not know the conditions of three kinds.
- Theorem {lit}`group_accountsFor`: an account of all conditions of a list.
-/

namespace RoutingRules

/-- The kinds that sing-box does not know. -/
def Kind.unknown : List Kind :=
  [.geoIp, .userAgent, .matchAll]

/-- A kind that sing-box does not know has no group of fields. -/
theorem Kind.mem_unknown_iff {kind : Kind} : kind ∈ unknown ↔ kind.fieldGroup? = none := by
  cases kind <;> decide

/-- A kind that sing-box does not know is not one on processes. -/
theorem Kind.isProcess_of_mem_unknown {kind : Kind} (h : kind ∈ unknown) :
    kind.isProcess = false := by
  cases kind <;> first | rfl | exact absurd h (by decide)

namespace Condition

variable {c : Condition}

/-- A condition that can be built has a field, unless sing-box does not know its kind. -/
theorem IsMade.isSome_singBoxField (hmade : c.IsMade) :
    c.singBoxField.toOption.isSome = true ↔ c.kind ∉ Kind.unknown := by
  rw [Kind.mem_unknown_iff]
  constructor
  · intro hsome
    obtain ⟨field, hfield⟩ := Option.isSome_iff_exists.1 hsome
    rw [fieldGroup_of_singBoxField (Except.toOption_eq_some_iff.1 hfield)]
    nofun
  · intro hknown
    obtain ⟨group, hgroup⟩ := Option.ne_none_iff_exists'.1 hknown
    obtain ⟨field, hfield⟩ := hmade.singBoxField_of_group hgroup
    rw [hfield]
    rfl

end Condition

namespace SingBox

/-! ## Alternatives of leaves -/

namespace Leaf

theorem cardinality_push (leaf : Leaf) (key : String) (value : Json) :
    (leaf.push key value).cardinality = leaf.cardinality + 1 := by
  have htotal := SortedMap.total_insert List.length leaf.conditions key
    ((leaf.conditions.get? key).getD [] ++ [value])
  have hlength : ((leaf.conditions.get? key).map List.length).getD 0 =
      ((leaf.conditions.get? key).getD []).length := by
    cases leaf.conditions.get? key <;> rfl
  rw [hlength, List.length_append, List.length_singleton] at htotal
  simp only [cardinality, push]
  omega

/-- Each pushed field is one more alternative. -/
theorem cardinality_pushAll (leaf : Leaf) (fields : List (String × Json)) :
    (leaf.pushAll fields).cardinality = leaf.cardinality + fields.length := by
  induction fields generalizing leaf with
  | nil => rfl
  | cons f fields ih =>
    rw [pushAll_cons, ih, cardinality_push, List.length_cons]
    omega

end Leaf

/-! ## Conditions in their places -/

/-- Whether a condition is an alternative of the leaf on processes, or of the other one. -/
def isOnSide (included : List Kind) (isProcess : Bool) (c : Condition) : Bool :=
  isWanted included c && c.kind.isProcess = isProcess && c.kind ∉ Kind.unknown

/-- A condition of a kind that sing-box does not know is not left out. -/
theorem isWanted_of_mem_unknown {included : List Kind} {c : Condition}
    (h : c.kind ∈ Kind.unknown) : isWanted included c = true := by
  rw [isWanted, Kind.isProcess_of_mem_unknown h]
  rfl

section Places

variable {conditions : List Condition} {included : List Kind} {mode : Mode} {grouped : Grouped}

/-- The alternatives of a side are counted by their conditions. -/
theorem length_sideFields (hmade : ∀ c ∈ conditions, c.IsMade) (isProcess : Bool) :
    (sideFields included isProcess conditions).length =
      conditions.countP (isOnSide included isProcess) := by
  rw [sideFields, List.length_filterMap_eq_countP, List.countP_filter, List.countP_filter]
  refine List.countP_congr fun c hc => ?_
  have hfield := (hmade c hc).isSome_singBoxField
  simp only [isOnSide, Bool.and_eq_true, hfield, decide_eq_true_eq, and_assoc]
  constructor
  · rintro ⟨hknown, hside, hwanted⟩
    exact ⟨hwanted, hside, hknown⟩
  · rintro ⟨hwanted, hside, hknown⟩
    exact ⟨hknown, hside, hwanted⟩

/-- No field is found for the conditions of the unknown kinds. -/
theorem countP_isNone_of_found {found : List (Option Field)}
    (hmade : ∀ c ∈ conditions, c.IsMade)
    (h : List.Forall₂ (fun c field => fieldOf c = .ok field) conditions found) :
    found.countP Option.isNone = conditions.countP fun c => c.kind ∈ Kind.unknown := by
  induction h with
  | nil => rfl
  | @cons c field conditions found hfield _ ih =>
    obtain ⟨hfirst, hothers⟩ := List.forall_mem_cons.1 hmade
    have hnone : field.isNone = decide (c.kind ∈ Kind.unknown) := by
      have hsome := hfirst.isSome_singBoxField
      rw [eq_of_fieldOf hfield, Option.isNone_map]
      cases hoption : c.singBoxField.toOption <;> simpa [hoption] using hsome
    rw [List.countP_cons, List.countP_cons, ih hothers, hnone]

/-- Conditions of a kind that sing-box does not know are counted. -/
theorem unsupported_of_group (hmade : ∀ c ∈ conditions, c.IsMade)
    (h : group conditions included mode = .ok grouped) :
    grouped.unsupported = conditions.countP fun c => c.kind ∈ Kind.unknown := by
  obtain ⟨found, hfound, hgrouped⟩ := Except.bind_eq_ok_iff.1 h
  obtain rfl := Except.ok.inj hgrouped
  have hsome : (found.filterMap id).length = found.countP Option.isSome :=
    List.length_filterMap_eq_countP
  have hnone := countP_isNone_of_found (fun c hc => hmade c (List.mem_filter.1 hc).1)
    (Except.mapM_eq_ok_iff.1 hfound)
  have hlength : found.length = found.countP Option.isSome + found.countP Option.isNone := by
    rw [List.length_eq_countP_add_countP Option.isSome]
    congr 1
    exact List.countP_congr fun field _ => by simp
  have hwanted : (conditions.filter (isWanted included)).countP (fun c => c.kind ∈ Kind.unknown) =
      conditions.countP fun c => c.kind ∈ Kind.unknown := by
    -- None of the unknown kinds is one on processes, so none of them is left out.
    rw [List.countP_filter]
    refine List.countP_congr fun c _ => ?_
    simp only [Bool.and_eq_true, decide_eq_true_eq]
    exact and_iff_left_of_imp isWanted_of_mem_unknown
  show found.length - (found.filterMap id).length = _
  omega

/-- Every condition is in one place. -/
theorem countP_places (included : List Kind) (conditions : List Condition) :
    conditions.countP (isOnSide included true) + conditions.countP (isOnSide included false) +
        conditions.countP (fun c => c.kind ∈ Kind.unknown) +
        conditions.countP (fun c => !isWanted included c) =
      conditions.length := by
  induction conditions with
  | nil => rfl
  | cons c conditions ih =>
    have hone : (if isOnSide included true c = true then 1 else 0) +
        (if isOnSide included false c = true then 1 else 0) +
        (if decide (c.kind ∈ Kind.unknown) = true then 1 else 0) +
        (if (!isWanted included c) = true then 1 else 0) = 1 := by
      by_cases hunknown : c.kind ∈ Kind.unknown
      · simp [isOnSide, hunknown, isWanted_of_mem_unknown hunknown]
      · cases hwanted : isWanted included c <;> cases hside : c.kind.isProcess <;>
          simp [isOnSide, hunknown, hwanted, hside]
    simp only [List.countP_cons, List.length_cons]
    omega

end Places

/-! ## The shape of the rule -/

/-- The rule of two leaves of which each may be absent, the one on processes in front. -/
inductive HasSides (mode : Mode) : Option Node → Option Leaf → Option Leaf → Prop
  | none : HasSides mode none none none
  | process (process : Leaf) : HasSides mode (some (.leaf process)) (some process) none
  | other (other : Leaf) : HasSides mode (some (.leaf other)) none (some other)
  | both (process other : Leaf) :
      HasSides mode (some (.logical mode [.leaf process, .leaf other] .empty)) (some process)
        (some other)

/-- The alternatives of a rule are those of its leaves. -/
theorem HasSides.cardinality_eq {mode : Mode} {node : Option Node} {process other : Option Leaf}
    (h : HasSides mode node process other) :
    (node.map Node.cardinality).getD 0 =
      (process.map Leaf.cardinality).getD 0 + (other.map Leaf.cardinality).getD 0 := by
  cases h <;> simp [Node.cardinality, Node.cardinalityOfAll]

/-- The leaf of some fields and of nothing else, which is absent when there are no fields: each field
has its values in order. -/
def IsLeafOf (fields : List (String × Json)) : Option Leaf → Prop
  | none => fields = []
  | some leaf => fields ≠ [] ∧ leaf.references = [] ∧ leaf.extra = .empty ∧
      ∀ key, leaf.conditions.get? key =
        if valuesOf key fields = [] then none else some (valuesOf key fields)

/-- The leaf of a side, if there is one. -/
def sideLeaf? (included : List Kind) (isProcess : Bool) (conditions : List Condition) :
    Option Leaf :=
  if sideFields included isProcess conditions = [] then none
  else some (sideLeaf included isProcess conditions)

section Sides

variable (included : List Kind) (isProcess : Bool) (conditions : List Condition)

theorem isLeafOf_sideLeaf? :
    IsLeafOf (sideFields included isProcess conditions)
      (sideLeaf? included isProcess conditions) := by
  unfold sideLeaf?
  split
  next hnone => exact hnone
  next hsome =>
    refine ⟨hsome, Leaf.references_pushAll _ _, Leaf.extra_pushAll _ _, fun key => ?_⟩
    rw [sideLeaf, Leaf.get?_pushAll]
    rfl

theorem cardinality_sideLeaf? :
    ((sideLeaf? included isProcess conditions).map Leaf.cardinality).getD 0 =
      (sideFields included isProcess conditions).length := by
  unfold sideLeaf?
  split
  next hnone =>
    rw [hnone]
    rfl
  next hsome =>
    rw [Option.map_some, Option.getD_some, sideLeaf, Leaf.cardinality_pushAll]
    exact Nat.zero_add _

end Sides

section Group

variable {conditions : List Condition} {included : List Kind} {mode : Mode} {grouped : Grouped}

/-- Grouped conditions make up the rule of their two sides. -/
theorem hasSides_of_group (h : group conditions included mode = .ok grouped) :
    HasSides mode grouped.node (sideLeaf? included true conditions)
      (sideLeaf? included false conditions) := by
  rw [node_of_group h, joinLeaves, Leaf.isEmpty_pushAll, Leaf.isEmpty_pushAll]
  unfold sideLeaf?
  by_cases hprocess : sideFields included true conditions = [] <;>
    by_cases hother : sideFields included false conditions = []
  · rw [if_pos hprocess, if_pos hother, hprocess, hother]
    exact .none
  · rw [if_pos hprocess, if_neg hother, hprocess, List.isEmpty_eq_false_iff.2 hother]
    exact .other _
  · rw [if_neg hprocess, if_pos hother, List.isEmpty_eq_false_iff.2 hprocess, hother]
    exact .process _
  · rw [if_neg hprocess, if_neg hother, List.isEmpty_eq_false_iff.2 hprocess,
      List.isEmpty_eq_false_iff.2 hother]
    exact .both _ _

/-- No rule is left when each condition is left out or of a kind that sing-box does not know. -/
theorem node_eq_none_iff_of_isMade (hmade : ∀ c ∈ conditions, c.IsMade)
    (h : group conditions included mode = .ok grouped) :
    grouped.node = none ↔
      ∀ c ∈ conditions, isWanted included c = false ∨ c.kind ∈ Kind.unknown := by
  rw [node_eq_none_iff h]
  refine forall₂_congr fun c hc => ?_
  have hsome := (hmade c hc).isSome_singBoxField
  rw [Option.isSome_iff_exists] at hsome
  simp only [Except.toOption_eq_some_iff] at hsome
  cases hwanted : isWanted included c with
  | false => simp
  | true =>
    rw [← not_iff_not]
    simpa using hsome

/-! ## All conditions -/

/-- A rule that accounts for some conditions: it is made up of the leaves of the wanted conditions on
processes and of the other ones, a count says how many are of a kind that sing-box does not know,
and each condition is an alternative, counted or left out. -/
structure Grouped.AccountsFor (grouped : Grouped) (conditions : List Condition)
    (included : List Kind) (mode : Mode) : Prop where
  sides : ∃ process other, HasSides mode grouped.node process other ∧
    IsLeafOf (sideFields included true conditions) process ∧
    IsLeafOf (sideFields included false conditions) other
  unsupported : grouped.unsupported = conditions.countP fun c => c.kind ∈ Kind.unknown
  none_iff : grouped.node = none ↔
    ∀ c ∈ conditions, isWanted included c = false ∨ c.kind ∈ Kind.unknown
  total : (grouped.node.map Node.cardinality).getD 0 + grouped.unsupported +
    conditions.countP (fun c => !isWanted included c) = conditions.length

/-- Grouping conditions that can be built succeeds and accounts for all of them. -/
theorem group_accountsFor (hmade : ∀ c ∈ conditions, c.IsMade) (included : List Kind)
    (mode : Mode) :
    ∃ grouped, group conditions included mode = .ok grouped ∧
      grouped.AccountsFor conditions included mode := by
  obtain ⟨grouped, h⟩ := group_succeeds hmade included mode
  have hsides := hasSides_of_group h
  have hunsupported := unsupported_of_group hmade h
  refine ⟨grouped, h, ⟨_, _, hsides, isLeafOf_sideLeaf? _ _ _, isLeafOf_sideLeaf? _ _ _⟩,
    hunsupported, node_eq_none_iff_of_isMade hmade h, ?_⟩
  rw [hsides.cardinality_eq, cardinality_sideLeaf?, cardinality_sideLeaf?,
    length_sideFields hmade, length_sideFields hmade, hunsupported]
  exact countP_places included conditions

end Group

/-- Conditions in all places: a domain that is there twice, an entry that is taken apart, a range of
ports, two kinds on processes and the three unknown kinds. -/
def placedConditions : List Condition :=
  [.on .domain "a.com" none, .on .domainListItem "+.b.com" none, .on .geoIp "CN" (some false),
    .on .processName "curl" none, .on .domain "a.com" none, .on .packageName "app" none,
    .on .dstPort "80-443" none, .on .userAgent "curl" none, .always]

theorem isMade_of_mem_placedConditions : ∀ c ∈ placedConditions, c.IsMade := by
  have hports : (Condition.on .dstPort "80-443" none).IsMade :=
    Condition.isMade_of_make (Except.toOption_eq_some_iff.1 (by decide +kernel))
  simp only [placedConditions, List.forall_mem_cons]
  exact ⟨Condition.isMade_of_make rfl, Condition.isMade_of_make rfl, Condition.isMade_of_make rfl,
    Condition.isMade_of_make rfl, Condition.isMade_of_make rfl, Condition.isMade_of_make rfl,
    hports, Condition.isMade_of_make rfl, .always, nofun⟩

/-- Five conditions are alternatives, three are of unknown kinds and one is left out. -/
theorem group_accountsFor_placedConditions :
    (∀ c ∈ placedConditions, c.IsMade) ∧
      ∃ grouped process other, group placedConditions [.processName] .and = .ok grouped ∧
        HasSides .and grouped.node (some process) (some other) ∧
        process.conditions.get? "process_name" = some [.str "curl"] ∧
        other.conditions.get? "domain" = some [.str "a.com", .str "a.com"] ∧
        grouped.unsupported = 3 ∧ (grouped.node.map Node.cardinality).getD 0 = 5 := by
  obtain ⟨grouped, h, ⟨process, other, hsides, hprocess, hother⟩, hunsupported, -, htotal⟩ :=
    group_accountsFor isMade_of_mem_placedConditions [.processName] .and
  have hthree : grouped.unsupported = 3 := hunsupported.trans (by decide +kernel)
  have hout : placedConditions.countP (fun c => !isWanted [.processName] c) = 1 := by decide +kernel
  have hlength : placedConditions.length = 9 := rfl
  have hprocessName : valuesOf "process_name" (sideFields [.processName] true placedConditions) =
      [.str "curl"] := by
    decide +kernel
  have hdomain : valuesOf "domain" (sideFields [.processName] false placedConditions) =
      [.str "a.com", .str "a.com"] := by
    decide +kernel
  rcases process with _ | process
  · rw [show sideFields _ true placedConditions = [] from hprocess] at hprocessName
    cases hprocessName
  rcases other with _ | other
  · rw [show sideFields _ false placedConditions = [] from hother] at hdomain
    cases hdomain
  obtain ⟨-, -, -, hprocess⟩ := hprocess
  obtain ⟨-, -, -, hother⟩ := hother
  refine ⟨isMade_of_mem_placedConditions, grouped, process, other, h, hsides, ?_, ?_, hthree, ?_⟩
  · rw [hprocess, hprocessName]
    rfl
  · rw [hother, hdomain]
    rfl
  · omega

end SingBox

end RoutingRules
