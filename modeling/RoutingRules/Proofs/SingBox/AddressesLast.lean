import RoutingRules.Proofs.SingBox.AddressSplitMeaning
import RoutingRules.Proofs.World
import RoutingRules.SingBox.Document

/-!
# Destination addresses come last

Making rules with the destination addresses split off gives two halves: what stands where a routing
rule stood, and what waits until all other rules have been tried.  This module says what the rules
of both halves are made of, compared with the rules that are made when nothing is split off.

A rule is made of two lists of fields, those on processes and the others.  Splitting divides the
others, and repeats the fields on processes with every part.

Main results:

- Theorem {lit}`splitAddress_of_joinFields`: the parts of a rule are joined from divided fields.
- Theorem {lit}`keepsConditions_of_group`: the parts of one routing rule have the values of its
  whole, outside the fields on processes each of them once and in its order.
- Theorem {lit}`yields_routeRules`: what routing rules are made into, one by one and as a whole.
- Theorem {lit}`Generator.routeRules_addresses_last`: where addresses stand in the two halves of all
  lists of routing rules, of which nothing is lost.
-/

namespace RoutingRules.SingBox

/-! ## Fields of rules -/

/-- The values of a field with conditions of a leaf. -/
def Leaf.valuesAt (key : String) (leaf : Leaf) : List Json :=
  (leaf.conditions.get? key).getD []

/-- Whether a leaf has a field of its own, other than its references. -/
def Leaf.hasField (key : String) (leaf : Leaf) : Bool :=
  (leaf.conditions.get? key).isSome || (leaf.extra.get? key).isSome

namespace Node

/-- The values of a field with conditions of a rule, from left to right. -/
def valuesAt (key : String) (node : Node) : List Json :=
  node.leaves.flatMap (Leaf.valuesAt key)

mutual

/-- Whether a rule has a field at any depth. -/
def hasField (key : String) : Node → Bool
  | leaf l => l.hasField key
  | logical _ children extra => (extra.get? key).isSome || anyHasField key children

/-- Whether one of several rules has a field at any depth. -/
def anyHasField (key : String) : List Node → Bool
  | [] => false
  | node :: nodes => hasField key node || anyHasField key nodes

end

theorem hasField_of_anyHasField {key : String} {nodes : List Node} {node : Node}
    (h : anyHasField key nodes = false) (hnode : node ∈ nodes) : node.hasField key = false := by
  induction nodes with
  | nil => cases hnode
  | cons first nodes ih =>
    rw [anyHasField, Bool.or_eq_false_iff] at h
    rcases List.mem_cons.1 hnode with rfl | hrest
    · exact h.1
    · exact ih h.2 hrest

/-- A rule without a field has no values in it. -/
theorem valuesAt_of_not_hasField {key : String} {node : Node} (h : node.hasField key = false) :
    node.valuesAt key = [] := by
  rw [valuesAt, List.flatMap_eq_nil_iff]
  induction node using ruleInduction with
  | leaf l =>
    intro other hother
    rw [List.mem_singleton.1 hother, Leaf.valuesAt]
    have hnone : l.conditions.get? key = none := by
      rw [hasField, Leaf.hasField, Bool.or_eq_false_iff] at h
      simpa using h.1
    rw [hnone]
    rfl
  | logical mode children extra ih =>
    intro l hl
    rw [hasField, Bool.or_eq_false_iff] at h
    rcases mem_leaves_logical.1 hl with ⟨child, hchild, hl⟩
    exact ih child hchild (hasField_of_anyHasField h.2 hchild) l hl

end Node

/-- The values of a field of pushed fields are those pushed for it. -/
theorem Leaf.valuesAt_pushAll (key : String) (fields : List (String × Json)) :
    (empty.pushAll fields).valuesAt key = valuesOf key fields := by
  have hempty : empty.conditions.get? key = none := rfl
  rw [valuesAt, get?_pushAll, hempty]
  split
  next hnone => rw [hnone]; rfl
  next => simp

/-- Pushed fields are the only ones. -/
theorem Leaf.hasField_pushAll (key : String) (fields : List (String × Json)) :
    (empty.pushAll fields).hasField key = !(valuesOf key fields).isEmpty := by
  have hconditions : empty.conditions.get? key = none := rfl
  have hextra : empty.extra.get? key = none := rfl
  rw [hasField, get?_pushAll, extra_pushAll, hconditions, hextra]
  split
  next hnone => simp [hnone]
  next hsome => simp [hsome]

/-! ## Joined fields -/

/-- The rule of a list of fields on processes and a list of others. -/
def joinFields (mode : Mode) (process other : List (String × Json)) : Option Node :=
  joinLeaves mode (Leaf.empty.pushAll process) (Leaf.empty.pushAll other)

/-- The values of a field in rules that may be there. -/
def partValues (key : String) (part : Option Node) : List Json :=
  part.toList.flatMap (Node.valuesAt key)

section Joined

variable {mode : Mode} {process other : List (String × Json)} {node : Node} {key : String}

theorem joinFields_nil_left :
    joinFields mode [] other =
      if other = [] then none else some (.leaf (Leaf.empty.pushAll other)) := by
  rw [joinFields, joinLeaves, Leaf.isEmpty_pushAll, Leaf.isEmpty_pushAll]
  cases other <;> rfl

theorem joinFields_nil_right (h : process ≠ []) :
    joinFields mode process [] = some (.leaf (Leaf.empty.pushAll process)) := by
  rw [joinFields, joinLeaves, Leaf.isEmpty_pushAll, Leaf.isEmpty_pushAll,
    List.isEmpty_eq_false_iff.2 h]
  rfl

theorem joinFields_of_ne_nil (hprocess : process ≠ []) (hother : other ≠ []) :
    joinFields mode process other =
      some (.logical mode
        [.leaf (Leaf.empty.pushAll process), .leaf (Leaf.empty.pushAll other)] .empty) := by
  rw [joinFields, joinLeaves, Leaf.isEmpty_pushAll, Leaf.isEmpty_pushAll,
    List.isEmpty_eq_false_iff.2 hprocess, List.isEmpty_eq_false_iff.2 hother]

/-- There is a rule unless there are no fields. -/
theorem joinFields_eq_none_iff :
    joinFields mode process other = none ↔ process = [] ∧ other = [] := by
  by_cases hprocess : process = []
  · rw [hprocess, joinFields_nil_left]
    by_cases hother : other = [] <;> simp [hother]
  · by_cases hother : other = []
    · simp [hother, joinFields_nil_right hprocess, hprocess]
    · simp [joinFields_of_ne_nil hprocess hother, hprocess]

/-- A joined rule has the values of both lists of fields. -/
theorem partValues_joinFields :
    partValues key (joinFields mode process other) =
      valuesOf key process ++ valuesOf key other := by
  rw [joinFields, joinLeaves, Leaf.isEmpty_pushAll, Leaf.isEmpty_pushAll]
  rcases process with _ | ⟨f, process⟩ <;> rcases other with _ | ⟨g, other⟩ <;>
    simp [partValues, Node.valuesAt, Node.leaves, Node.leavesOfAll, Leaf.valuesAt_pushAll, valuesOf]

/-- A joined rule has the fields of both lists and no others. -/
theorem hasField_of_joinFields (h : joinFields mode process other = some node) :
    node.hasField key = (!(valuesOf key process).isEmpty || !(valuesOf key other).isEmpty) := by
  rw [joinFields, joinLeaves, Leaf.isEmpty_pushAll, Leaf.isEmpty_pushAll] at h
  have hextra : (SortedMap.empty : SortedMap Json).get? key = none := rfl
  rcases process with _ | ⟨f, process⟩ <;> rcases other with _ | ⟨g, other⟩ <;> cases h <;>
    simp [Node.hasField, Node.anyHasField, Leaf.hasField_pushAll, hextra, valuesOf]

/-! ## Parts of joined fields -/

/-- The part of joined fields that does not look at the destination address.  When both sides are
needed and there are only addresses on one of them, there is none. -/
def directPart (mode : Mode) (process other : List (String × Json)) : Option Node :=
  if mode = .and ∧ other ≠ [] ∧ directFields other = [] then none
  else joinFields mode process (directFields other)

/-- The part of joined fields on the destination address. -/
def addressPart (mode : Mode) (process other : List (String × Json)) : Option Node :=
  if addressFields other = [] then none else joinFields mode process (addressFields other)

theorem directPart_of_no_address (h : addressFields other = []) :
    directPart mode process other = joinFields mode process other := by
  rw [directPart, directFields_of_no_address h]
  apply if_neg
  rintro ⟨_, hother, hnone⟩
  exact hother hnone

/-- The parts of a rule without a side on processes. -/
theorem splitAddress_leaf_pushAll (h : other ≠ []) :
    (Node.leaf (Leaf.empty.pushAll other)).splitAddress =
      ⟨directPart mode [] other, addressPart mode [] other⟩ := by
  rw [Node.splitAddress, Leaf.splitAddress_pushAll]
  by_cases haddress : addressFields other = []
  · rw [directPart_of_no_address haddress, addressPart, joinFields_nil_left]
    simp [haddress, h]
  · have hdirect : directPart mode [] other = joinFields mode [] (directFields other) := by
      rw [directPart, joinFields_nil_left]
      by_cases hnone : directFields other = [] <;> simp [hnone]
    rw [hdirect, addressPart, joinFields_nil_left, joinFields_nil_left]
    by_cases hnone : directFields other = [] <;> simp [haddress, hnone]

/-- The parts of a rule with two sides: the leaf on processes is repeated with every part. -/
theorem splitPair_pushAll (hprocess : process ≠ []) (hother : other ≠ []) :
    splitPair mode (Leaf.empty.pushAll process) (Leaf.empty.pushAll other) .empty =
      ⟨directPart mode process other, addressPart mode process other⟩ := by
  rw [splitPair, Leaf.splitAddress_pushAll]
  by_cases haddress : addressFields other = []
  · rw [directPart_of_no_address haddress, addressPart, joinFields_of_ne_nil hprocess hother]
    simp [haddress]
  · rw [addressPart, joinFields_of_ne_nil hprocess haddress, directPart]
    by_cases hnone : directFields other = []
    · rw [hnone, joinFields_nil_right hprocess]
      cases mode <;> simp [haddress, hother]
    · rw [joinFields_of_ne_nil hprocess hnone]
      simp [haddress, hnone]

/-- The parts of a rule are joined from divided fields. -/
theorem splitAddress_of_joinFields (hkeys : ∀ f ∈ process, (fieldGroup f.1).isProcess = true)
    (h : joinFields mode process other = some node) :
    node.splitAddress = ⟨directPart mode process other, addressPart mode process other⟩ := by
  by_cases hprocess : process = []
  · subst hprocess
    rw [joinFields_nil_left] at h
    split at h
    · cases h
    next hother =>
      rw [← Option.some.inj h]
      exact splitAddress_leaf_pushAll hother
  · by_cases hother : other = []
    · subst hother
      have haddress : addressFields process = [] := addressFields_of_isProcess hkeys
      have hparts : (Node.leaf (Leaf.empty.pushAll process)).splitAddress =
          ⟨directPart mode [] process, addressPart mode [] process⟩ :=
        splitAddress_leaf_pushAll hprocess
      rw [directPart_of_no_address haddress, addressPart, if_pos haddress, joinFields_nil_left,
        if_neg hprocess] at hparts
      rw [joinFields_nil_right hprocess] at h
      rw [← Option.some.inj h, hparts, directPart_of_no_address rfl, joinFields_nil_right hprocess]
      rfl
    · rw [joinFields_of_ne_nil hprocess hother] at h
      rw [← Option.some.inj h, Node.splitAddress, if_pos (Leaf.isProcess_pushAll hkeys)]
      exact splitPair_pushAll hprocess hother

/-! ## Values of parts -/

theorem not_mem_processKeys_addressKey : addressKey ∉ processKeys := by
  decide

/-- The side on processes has no values for other keys. -/
theorem valuesOf_process (hkeys : ∀ f ∈ process, (fieldGroup f.1).isProcess = true)
    (hkey : key ∉ processKeys) : valuesOf key process = [] := by
  rw [List.eq_nil_iff_forall_not_mem]
  intro value hvalue
  exact hkey (mem_processKeys_of_isProcess (hkeys (key, value) (mem_valuesOf.1 hvalue)))

/-- The other side has no values for keys on processes. -/
theorem valuesOf_other (hkeys : ∀ f ∈ other, (fieldGroup f.1).isProcess = false)
    (hkey : key ∈ processKeys) : valuesOf key other = [] := by
  have hall : ∀ k ∈ processKeys, (fieldGroup k).isProcess ≠ false := by decide
  rw [List.eq_nil_iff_forall_not_mem]
  intro value hvalue
  exact hall key hkey (hkeys (key, value) (mem_valuesOf.1 hvalue))

theorem valuesOf_directFields :
    valuesOf key (directFields other) = if key = addressKey then [] else valuesOf key other := by
  rw [directFields, valuesOf_filter (fun k => k ≠ addressKey)]
  by_cases hkey : key = addressKey <;> simp [hkey]

theorem valuesOf_addressFields :
    valuesOf key (addressFields other) = if key = addressKey then valuesOf key other else [] := by
  rw [addressFields, valuesOf_filter (fun k => k = addressKey)]
  by_cases hkey : key = addressKey <;> simp [hkey]

/-- Outside the fields on processes a part has the values of its divided fields. -/
theorem partValues_directPart (h : valuesOf key process = []) :
    partValues key (directPart mode process other) = valuesOf key (directFields other) := by
  rw [directPart]
  split
  next hnone => rw [hnone.2.2]; rfl
  next => rw [partValues_joinFields, h, List.nil_append]

theorem partValues_addressPart (h : valuesOf key process = []) :
    partValues key (addressPart mode process other) = valuesOf key (addressFields other) := by
  rw [addressPart]
  split
  next hnone => rw [hnone]; rfl
  next => rw [partValues_joinFields, h, List.nil_append]

/-- The side on processes is repeated with every part. -/
theorem valuesAt_of_joinFields (h : joinFields mode process other = some node)
    (hother : valuesOf key other = []) : node.valuesAt key = valuesOf key process := by
  have hvalues : partValues key (joinFields mode process other) = node.valuesAt key := by
    rw [h]
    simp [partValues]
  rw [← hvalues, partValues_joinFields, hother, List.append_nil]

/-- The parts have the values of the side on processes. -/
theorem valuesAt_of_part (hkeys : ∀ f ∈ other, (fieldGroup f.1).isProcess = false)
    (hkey : key ∈ processKeys)
    (h : directPart mode process other = some node ∨ addressPart mode process other = some node) :
    node.valuesAt key = valuesOf key process := by
  have hdivided : ∀ fields ⊆ other, valuesOf key fields = [] := fun fields hfields =>
    valuesOf_other (fun f hf => hkeys f (hfields hf)) hkey
  rcases h with h | h
  · rw [directPart] at h
    split at h
    · cases h
    · exact valuesAt_of_joinFields h (hdivided _ (List.filter_subset_self other))
  · rw [addressPart] at h
    split at h
    · cases h
    · exact valuesAt_of_joinFields h (hdivided _ (List.filter_subset_self other))

/-- The part that does not look at the destination address has no such field. -/
theorem hasField_directPart (hkeys : ∀ f ∈ process, (fieldGroup f.1).isProcess = true)
    (h : directPart mode process other = some node) : node.hasField addressKey = false := by
  have hprocess : valuesOf addressKey process = [] :=
    valuesOf_process hkeys not_mem_processKeys_addressKey
  rw [directPart] at h
  split at h
  · cases h
  · rw [hasField_of_joinFields h, hprocess, valuesOf_directFields]
    rfl

/-- The part on the destination address has its field. -/
theorem hasField_addressPart (h : addressPart mode process other = some node) :
    node.hasField addressKey = true := by
  rw [addressPart] at h
  split at h
  next => cases h
  next haddress =>
    have hvalues : valuesOf addressKey other ≠ [] := fun hnone =>
      haddress (List.map_eq_nil_iff.1 hnone)
    rw [hasField_of_joinFields h, valuesOf_addressFields]
    simp [hvalues]

/-- There are parts unless there are no fields. -/
theorem parts_eq_none_iff :
    directPart mode process other = none ∧ addressPart mode process other = none ↔
      joinFields mode process other = none := by
  by_cases haddress : addressFields other = []
  · rw [directPart_of_no_address haddress, addressPart, if_pos haddress]
    exact and_iff_left rfl
  · have hother : other ≠ [] := by
      rintro rfl
      exact haddress rfl
    rw [addressPart, if_neg haddress, joinFields_eq_none_iff, joinFields_eq_none_iff]
    simp [haddress, hother]

end Joined

/-! ## Fields of conditions -/

/-- The fields of the conditions that are not left out, in order. -/
def wantedFields (included : List Kind) (conditions : List Condition) : List (String × Json) :=
  (conditions.filter (isWanted included)).filterMap fun c => c.singBoxField.toOption

/-- The sides of the fields of conditions are told apart by the keys. -/
theorem sideFields_eq_filter (included : List Kind) (isProcess : Bool)
    (conditions : List Condition) :
    sideFields included isProcess conditions =
      (wantedFields included conditions).filter
        fun f => (fieldGroup f.1).isProcess = isProcess := by
  unfold sideFields wantedFields
  induction conditions.filter (isWanted included) with
  | nil => rfl
  | cons c conditions ih =>
    cases hfield : c.singBoxField.toOption with
    | none => by_cases hside : c.kind.isProcess = isProcess <;> simpa [hside, hfield] using ih
    | some f =>
      have hgroup : (fieldGroup f.1).isProcess = c.kind.isProcess :=
        Kind.isProcess_fieldGroup
          (Condition.fieldGroup_of_singBoxField (Except.toOption_eq_some_iff.1 hfield))
      by_cases hside : c.kind.isProcess = isProcess <;> simpa [hside, hfield, hgroup] using ih

/-- All values of a key are on one side. -/
theorem valuesOf_sideFields (key : String) (included : List Kind) (conditions : List Condition) :
    valuesOf key (sideFields included true conditions) ++
        valuesOf key (sideFields included false conditions) =
      valuesOf key (wantedFields included conditions) := by
  rw [sideFields_eq_filter, sideFields_eq_filter,
    valuesOf_filter (fun k => (fieldGroup k).isProcess = true),
    valuesOf_filter (fun k => (fieldGroup k).isProcess = false)]
  cases (fieldGroup key).isProcess <;> simp

/-! ## One routing rule -/

/-- The values of a field with conditions in several rules. -/
def valuesIn (key : String) (rules : List Rule) : List Json :=
  rules.flatMap fun rule => rule.node.valuesAt key

/-- The rules of a grouped condition. -/
def Grouped.routed (grouped : Grouped) (action : Action) (splitAddress : Bool) : Routed :=
  match grouped.node with
  | none => ⟨[], [], grouped.unsupported⟩
  | some node => routeNode action splitAddress node grouped.unsupported

/-- The rules with the destination addresses split off keep what the whole rule has. -/
structure KeepsConditions (action : Action) (whole split : Routed) : Prop where
  /-- All rules have the same action. -/
  action_eq : ∀ rule ∈ whole.direct ++ (split.direct ++ split.deferred), rule.action = action
  /-- Nothing of the whole rule waits. -/
  deferred_whole : whole.deferred = []
  /-- There are parts when there is a whole. -/
  parts : split.direct ++ split.deferred = [] ↔ whole.direct = []
  direct : ∀ rule ∈ split.direct, rule.node.hasField addressKey = false
  deferred : ∀ rule ∈ split.deferred, rule.node.hasField addressKey = true
  /-- Outside the fields on processes every value occurs as often as in the whole rule, in the same
  order. -/
  values : ∀ key ∉ processKeys,
    valuesIn key split.direct ++ valuesIn key split.deferred = valuesIn key whole.direct
  /-- What waits has the destination addresses and, outside the fields on processes, no other
  values. -/
  address : ∀ key ∉ processKeys, key ≠ addressKey → valuesIn key split.deferred = []
  /-- Every part has all values of the fields on processes. -/
  process : ∀ key ∈ processKeys, ∀ rule ∈ split.direct ++ split.deferred,
    rule.node.valuesAt key = valuesIn key whole.direct
  unsupported : split.unsupported = whole.unsupported

/-- The rules that a part is made into. -/
def rulesOf (action : Action) (part : Option Node) : List Rule :=
  part.toList.map fun node => ⟨action, node⟩

@[simp] theorem mem_rulesOf {action : Action} {part : Option Node} {rule : Rule} :
    rule ∈ rulesOf action part ↔ rule.action = action ∧ part = some rule.node := by
  constructor
  · intro h
    rcases List.mem_map.1 h with ⟨node, hnode, rfl⟩
    exact ⟨rfl, Option.mem_toList.1 hnode⟩
  · rintro ⟨rfl, hnode⟩
    exact List.mem_map.2 ⟨rule.node, Option.mem_toList.2 hnode, rfl⟩

@[simp] theorem valuesIn_rulesOf (key : String) (action : Action) (part : Option Node) :
    valuesIn key (rulesOf action part) = partValues key part := by
  rw [valuesIn, rulesOf, List.flatMap_map]
  rfl

theorem rulesOf_eq_nil_iff {action : Action} {part : Option Node} :
    rulesOf action part = [] ↔ part = none := by
  cases part <;> simp [rulesOf]

section Grouped

variable {conditions : List Condition} {included : List Kind} {mode : Mode} {grouped : Grouped}

theorem routed_whole (grouped : Grouped) (action : Action) :
    grouped.routed action false = ⟨rulesOf action grouped.node, [], grouped.unsupported⟩ := by
  rw [Grouped.routed]
  cases grouped.node <;> rfl

theorem routed_split (h : group conditions included mode = .ok grouped) (action : Action) :
    grouped.routed action true =
      ⟨rulesOf action (directPart mode (sideFields included true conditions)
          (sideFields included false conditions)),
        rulesOf action (addressPart mode (sideFields included true conditions)
          (sideFields included false conditions)), grouped.unsupported⟩ := by
  have hnode : grouped.node = joinFields mode (sideFields included true conditions)
      (sideFields included false conditions) := node_of_group h
  rw [Grouped.routed]
  split
  next hnone =>
    rcases parts_eq_none_iff.2 (hnode.symm.trans hnone) with ⟨hdirect, haddress⟩
    rw [hdirect, haddress]
    rfl
  next node hsome =>
    have hparts := splitAddress_of_joinFields (fun f => isProcess_of_mem_sideFields)
      (hnode.symm.trans hsome)
    rw [routeNode, if_pos rfl, hparts]
    rfl

/-- With nothing split off the rule has all values of its conditions, in order. -/
theorem valuesIn_whole (h : group conditions included mode = .ok grouped) (action : Action)
    (key : String) :
    valuesIn key (grouped.routed action false).direct =
      valuesOf key (wantedFields included conditions) := by
  have hnode : grouped.node = joinFields mode (sideFields included true conditions)
      (sideFields included false conditions) := node_of_group h
  rw [routed_whole, valuesIn_rulesOf, hnode, partValues_joinFields, valuesOf_sideFields]

/-- The parts of one routing rule keep what the whole rule has. -/
theorem keepsConditions_of_group (h : group conditions included mode = .ok grouped)
    (action : Action) :
    KeepsConditions action (grouped.routed action false) (grouped.routed action true) := by
  have hprocess : ∀ f ∈ sideFields included true conditions, (fieldGroup f.1).isProcess = true :=
    fun f => isProcess_of_mem_sideFields
  have hother : ∀ f ∈ sideFields included false conditions,
      (fieldGroup f.1).isProcess = false := fun f => isProcess_of_mem_sideFields
  have hnode : grouped.node = joinFields mode (sideFields included true conditions)
      (sideFields included false conditions) := node_of_group h
  rw [routed_split h, routed_whole, hnode]
  have hnone : ∀ key ∉ processKeys, valuesOf key (sideFields included true conditions) = [] :=
    fun _ => valuesOf_process hprocess
  constructor
  case action_eq =>
    intro rule hrule
    simp only [List.mem_append, mem_rulesOf] at hrule
    rcases hrule with hrule | hrule | hrule
    all_goals exact hrule.1
  case deferred_whole => rfl
  case parts =>
    rw [List.append_eq_nil_iff, rulesOf_eq_nil_iff, rulesOf_eq_nil_iff, rulesOf_eq_nil_iff]
    exact parts_eq_none_iff
  case direct =>
    intro rule hrule
    exact hasField_directPart hprocess (mem_rulesOf.1 hrule).2
  case deferred =>
    intro rule hrule
    exact hasField_addressPart (mem_rulesOf.1 hrule).2
  case values =>
    intro key hkey
    simp only [valuesIn_rulesOf, partValues_joinFields, partValues_directPart (hnone key hkey),
      partValues_addressPart (hnone key hkey), hnone key hkey, valuesOf_directFields,
      valuesOf_addressFields]
    split <;> simp
  case address =>
    intro key hkey hne
    rw [valuesIn_rulesOf, partValues_addressPart (hnone key hkey), valuesOf_addressFields,
      if_neg hne]
  case process =>
    intro key hkey rule hrule
    rw [valuesIn_rulesOf, partValues_joinFields, valuesOf_other hother hkey, List.append_nil]
    rw [List.mem_append, mem_rulesOf, mem_rulesOf] at hrule
    exact valuesAt_of_part hother hkey (hrule.imp And.right And.right)
  case unsupported => rfl

end Grouped

/-! ## Rules with an action -/

/-- The values of a field with conditions in the rules with an action. -/
def valuesUnder (action : Action) (key : String) (rules : List Rule) : List Json :=
  valuesIn key (rules.filter fun rule => rule.action = action)

theorem valuesUnder_append (action : Action) (key : String) (xs ys : List Rule) :
    valuesUnder action key (xs ++ ys) = valuesUnder action key xs ++ valuesUnder action key ys := by
  simp [valuesUnder, valuesIn]

theorem valuesUnder_flatMap {α : Type} (action : Action) (key : String) (f : α → List Rule)
    (entries : List α) :
    valuesUnder action key (entries.flatMap f) =
      entries.flatMap fun a => valuesUnder action key (f a) := by
  simp [valuesUnder, valuesIn, List.filter_flatMap, List.flatMap_assoc]

/-- Rules with one action have all their values under this action. -/
theorem valuesUnder_of_forall {made action : Action} {rules : List Rule}
    (h : ∀ rule ∈ rules, rule.action = made) (key : String) :
    valuesUnder action key rules = if made = action then valuesIn key rules else [] := by
  rw [valuesUnder]
  split
  next hsame =>
    congr 1
    apply List.filter_eq_self.2
    intro rule hrule
    simp [h rule hrule, hsame]
  next hother =>
    have hnone : rules.filter (fun rule => rule.action = action) = [] := by
      apply List.filter_eq_nil_iff.2
      intro rule hrule
      simp [h rule hrule, hother]
    rw [hnone]
    rfl

namespace KeepsConditions

variable {action : Action} {whole split : Routed} {key : String}

/-- All values but those of the destination addresses stand where the whole rule stood. -/
theorem valuesIn_direct (h : KeepsConditions action whole split) (hkey : key ∉ processKeys) :
    valuesIn key split.direct = if key = addressKey then [] else valuesIn key whole.direct := by
  split
  next haddress =>
    rw [valuesIn, List.flatMap_eq_nil_iff]
    intro rule hrule
    exact Node.valuesAt_of_not_hasField (haddress ▸ h.direct rule hrule)
  next hother => rw [← h.values key hkey, h.address key hkey hother, List.append_nil]

/-- The destination addresses wait, and nothing else does. -/
theorem valuesIn_deferred (h : KeepsConditions action whole split) (hkey : key ∉ processKeys) :
    valuesIn key split.deferred = if key = addressKey then valuesIn key whole.direct else [] := by
  split
  next haddress =>
    rw [← h.values key hkey, h.valuesIn_direct hkey, if_pos haddress, List.nil_append]
  next hother => exact h.address key hkey hother

/-- The same under each action. -/
theorem valuesUnder_direct (h : KeepsConditions action whole split) (hkey : key ∉ processKeys)
    (other : Action) :
    valuesUnder other key split.direct =
      if key = addressKey then [] else valuesUnder other key whole.direct := by
  have haction := h.action_eq
  simp only [List.forall_mem_append] at haction
  rw [valuesUnder_of_forall haction.2.1, valuesUnder_of_forall haction.1, h.valuesIn_direct hkey]
  split <;> simp

theorem valuesUnder_deferred (h : KeepsConditions action whole split) (hkey : key ∉ processKeys)
    (other : Action) :
    valuesUnder other key split.deferred =
      if key = addressKey then valuesUnder other key whole.direct else [] := by
  have haction := h.action_eq
  simp only [List.forall_mem_append] at haction
  rw [valuesUnder_of_forall haction.2.2, valuesUnder_of_forall haction.1,
    h.valuesIn_deferred hkey]
  split <;> simp

end KeepsConditions

/-! ## Lists of routing rules -/

/-- What one routing rule is made into, with nothing split off and with the destination addresses
split off. -/
structure RoutedPair where
  whole : Routed
  split : Routed
  notices : List Notice

namespace RoutedPair

/-- The rules of pairs with nothing split off, in the order of the pairs. -/
def wholes (pairs : List RoutedPair) : List Rule :=
  pairs.flatMap fun pair => pair.whole.direct

/-- The rules of pairs with the destination addresses last; both halves are in the order of the
pairs. -/
def splits (pairs : List RoutedPair) : List Rule :=
  (pairs.flatMap fun pair => pair.split.direct) ++ pairs.flatMap fun pair => pair.split.deferred

section Pairs

variable {pairs : List RoutedPair}
  (h : ∀ pair ∈ pairs, ∃ action, KeepsConditions action pair.whole pair.split)
include h

/-- No rule with a destination address stands in front of one without. -/
theorem pairwise_splits :
    (splits pairs).Pairwise fun a b =>
      a.node.hasField addressKey = true → b.node.hasField addressKey = true := by
  have hdirect : ∀ rule ∈ pairs.flatMap fun pair => pair.split.direct,
      rule.node.hasField addressKey = false := by
    intro rule hrule
    rcases List.mem_flatMap.1 hrule with ⟨pair, hpair, hrule⟩
    rcases h pair hpair with ⟨action, hkeeps⟩
    exact hkeeps.direct rule hrule
  have hdeferred : ∀ rule ∈ pairs.flatMap fun pair => pair.split.deferred,
      rule.node.hasField addressKey = true := by
    intro rule hrule
    rcases List.mem_flatMap.1 hrule with ⟨pair, hpair, hrule⟩
    rcases h pair hpair with ⟨action, hkeeps⟩
    exact hkeeps.deferred rule hrule
  rw [splits, List.pairwise_append]
  refine ⟨?_, ?_, ?_⟩
  · apply List.pairwise_of_forall_mem_list
    intro a ha b _ haddress
    rw [hdirect a ha] at haddress
    cases haddress
  · apply List.pairwise_of_forall_mem_list
    intro _ _ b hb _
    exact hdeferred b hb
  · intro _ _ b hb _
    exact hdeferred b hb

/-- Under every action the values outside the fields on processes are the same, in the same
order. -/
theorem valuesUnder_splits {key : String} (hkey : key ∉ processKeys) (action : Action) :
    valuesUnder action key (splits pairs) = valuesUnder action key (wholes pairs) := by
  have hvalues : ∀ pair ∈ pairs,
      valuesUnder action key pair.split.direct =
        (if key = addressKey then [] else valuesUnder action key pair.whole.direct) ∧
      valuesUnder action key pair.split.deferred =
        if key = addressKey then valuesUnder action key pair.whole.direct else [] := by
    intro pair hpair
    rcases h pair hpair with ⟨_, hkeeps⟩
    exact ⟨hkeeps.valuesUnder_direct hkey action, hkeeps.valuesUnder_deferred hkey action⟩
  rw [splits, wholes, valuesUnder_append, valuesUnder_flatMap, valuesUnder_flatMap,
    valuesUnder_flatMap, List.flatMap_congr fun pair hpair => (hvalues pair hpair).1,
    List.flatMap_congr fun pair hpair => (hvalues pair hpair).2]
  -- One of the halves has all values of the field, and the other one has none.
  by_cases haddress : key = addressKey <;> simp [haddress]

end Pairs

end RoutedPair

/-! ## Runs -/

/-- A routing rule to an outbound that exists is made into the rules of its grouped conditions. -/
theorem routeRule_of_group {options : Options} {included : List Kind} {names : List String}
    {rule : RouteRule} {grouped : Grouped}
    (hknown : checkDestination names rule.destination = .ok ())
    (hgroup : group rule.conditions included options.mode = .ok grouped) :
    routeRule options included names rule =
      .ok (grouped.routed (.ofDestination rule.destination) options.splitAddress,
        grouped.notices) := by
  rw [routeRule, hknown]
  show (group rule.conditions included options.mode >>= _) = _
  rw [hgroup]
  rfl

namespace Generator

variable {σ : Type} {g : Generator σ} {included : List Kind} {names : List String}

/-- What routing rules are made into, one by one and as a whole, and what is told about them. -/
theorem yields_routeRules {rules : List RouteRule} {parts : List (Routed × List Notice)}
    (h : List.Forall₂ (fun rule part => routeRule g.options included names rule = .ok part)
      rules parts) (before : World σ) :
    (g.routeRules included names rules).Yields before (arrange (parts.map Prod.fst))
      { before with notices := before.notices ++ parts.flatMap Prod.snd } := by
  rw [routeRules, Task.yields_bind]
  refine ⟨_, _, ?_, Task.yields_pure.2 ⟨rfl, rfl⟩⟩
  induction h generalizing before with
  | nil =>
    rw [List.mapM_nil, Task.yields_pure]
    simp
  | @cons rule part rules parts hrule _ ih =>
    simp only [List.mapM_cons, Task.yields_bind, Task.yields_lift, Task.yields_pure]
    refine ⟨part.1, _, ⟨part, before, ⟨hrule, rfl⟩, (), _, rfl, rfl, rfl⟩, _, _, ih _, rfl, ?_⟩
    simp

/-- The same generator, with destination addresses split off or not. -/
def splitting (g : Generator σ) (splitAddress : Bool) : Generator σ :=
  { g with options := { g.options with splitAddress } }

/-- A routing rule is made into a pair: the whole has the values of the conditions, and the parts
keep what the whole has. -/
structure MakesPair (g : Generator σ) (included : List Kind) (names : List String)
    (rule : RouteRule) (pair : RoutedPair) : Prop where
  whole : routeRule (g.splitting false).options included names rule =
    .ok (pair.whole, pair.notices)
  split : routeRule (g.splitting true).options included names rule =
    .ok (pair.split, pair.notices)
  values : ∀ key, valuesIn key pair.whole.direct =
    valuesOf key (wantedFields included rule.conditions)
  keeps : KeepsConditions (.ofDestination rule.destination) pair.whole pair.split

/-- A routing rule of conditions that can be built is made into a pair. -/
theorem exists_makesPair {rule : RouteRule} (hmade : ∀ c ∈ rule.conditions, c.IsMade)
    (hknown : checkDestination names rule.destination = .ok ()) :
    ∃ pair, g.MakesPair included names rule pair := by
  rcases group_succeeds hmade included g.options.mode with ⟨grouped, hgroup⟩
  exact ⟨⟨_, _, grouped.notices⟩, routeRule_of_group hknown hgroup,
    routeRule_of_group hknown hgroup, valuesIn_whole hgroup _, keepsConditions_of_group hgroup _⟩

section Lists

variable {rules : List RouteRule} {pairs : List RoutedPair}
  (h : List.Forall₂ (g.MakesPair included names) rules pairs)
include h

theorem keepsConditions_of_forall₂ :
    ∀ pair ∈ pairs, ∃ action, KeepsConditions action pair.whole pair.split := by
  intro pair hpair
  rcases exists_mem_of_forall₂ h hpair with ⟨rule, _, hmakes⟩
  exact ⟨_, hmakes.keeps⟩

/-- How many conditions are dropped does not depend on what is split off. -/
theorem total_unsupported : Number.total (pairs.map fun pair => pair.split.unsupported) =
    Number.total (pairs.map fun pair => pair.whole.unsupported) := by
  congr 1
  apply List.map_congr_left
  intro pair hpair
  rcases keepsConditions_of_forall₂ h pair hpair with ⟨_, hkeeps⟩
  exact hkeeps.unsupported

/-- With nothing split off the rules are the wholes of the pairs. -/
theorem yields_wholes (before : World σ) :
    ((g.splitting false).routeRules included names rules).Yields before
      (RoutedPair.wholes pairs, Number.total (pairs.map fun pair => pair.whole.unsupported))
      { before with notices := before.notices ++ pairs.flatMap RoutedPair.notices } := by
  have hparts : List.Forall₂
      (fun rule part => routeRule (g.splitting false).options included names rule = .ok part)
      rules (pairs.map fun pair => (pair.whole, pair.notices)) :=
    List.forall₂_map_right_iff.2 (h.imp fun _ _ hpair => hpair.whole)
  have hdeferred : pairs.flatMap (fun pair => pair.whole.deferred) = [] := by
    rw [List.flatMap_eq_nil_iff]
    intro pair hpair
    rcases keepsConditions_of_forall₂ h pair hpair with ⟨_, hkeeps⟩
    exact hkeeps.deferred_whole
  have hyields := yields_routeRules hparts before
  simpa [arrange, RoutedPair.wholes, List.flatMap_map, Function.comp_def, hdeferred] using hyields

/-- With the destination addresses split off the rules are the parts of the pairs. -/
theorem yields_splits (before : World σ) :
    ((g.splitting true).routeRules included names rules).Yields before
      (RoutedPair.splits pairs, Number.total (pairs.map fun pair => pair.whole.unsupported))
      { before with notices := before.notices ++ pairs.flatMap RoutedPair.notices } := by
  have hparts : List.Forall₂
      (fun rule part => routeRule (g.splitting true).options included names rule = .ok part)
      rules (pairs.map fun pair => (pair.split, pair.notices)) :=
    List.forall₂_map_right_iff.2 (h.imp fun _ _ hpair => hpair.split)
  have hyields := yields_routeRules hparts before
  simpa [arrange, RoutedPair.splits, List.flatMap_map, Function.comp_def,
    total_unsupported h] using hyields

end Lists

/-- Routing rules to outbounds that exist, with conditions that can be built, are made into rules
with and without their destination addresses split off, and each of them into a pair that keeps the
values of its conditions.  With the addresses split off the two halves are in the order of the
routing rules, no rule with an address stands in front of one without, and under every action each
field that is not on processes has the values that it has with nothing split off, in the same
order. -/
theorem routeRules_addresses_last (g : Generator σ) (included : List Kind) (names : List String)
    {rules : List RouteRule} (hmade : ∀ rule ∈ rules, ∀ c ∈ rule.conditions, c.IsMade)
    (hknown : ∀ rule ∈ rules, checkDestination names rule.destination = .ok ())
    (before : World σ) :
    ∃ (pairs : List RoutedPair) (count : Nat) (after : World σ),
      List.Forall₂ (g.MakesPair included names) rules pairs ∧
      ((g.splitting false).routeRules included names rules).Yields before
        (RoutedPair.wholes pairs, count) after ∧
      ((g.splitting true).routeRules included names rules).Yields before
        (RoutedPair.splits pairs, count) after ∧
      (RoutedPair.splits pairs).Pairwise
        (fun a b => a.node.hasField addressKey = true → b.node.hasField addressKey = true) ∧
      ∀ action, ∀ key ∉ processKeys,
        valuesUnder action key (RoutedPair.splits pairs) =
          valuesUnder action key (RoutedPair.wholes pairs) := by
  have hpair : ∀ rule ∈ rules, ∃ pair, g.MakesPair included names rule pair := fun rule hrule =>
    exists_makesPair (hmade rule hrule) (hknown rule hrule)
  rcases exists_forall₂ hpair with ⟨pairs, hpairs⟩
  have hkeeps := keepsConditions_of_forall₂ hpairs
  refine ⟨pairs, _, _, hpairs, yields_wholes hpairs before, yields_splits hpairs before,
    RoutedPair.pairwise_splits hkeeps, ?_⟩
  intro action key hkey
  exact RoutedPair.valuesUnder_splits hkeeps hkey action

/-- A routing rule on all sides, one on processes and addresses, and one to the same outbound as the
first. -/
def addressedRules : List RouteRule :=
  [⟨.outbound "DIRECT", sampleConditions⟩,
    ⟨.reject, [.on .ipCidr "10.0.0.0/8" (some true), .on .processName "curl" none]⟩,
    ⟨.outbound "DIRECT", [.on .ipCidr6 "fd00::/8" (some false), .on .dstPort "80" none]⟩]

/-- A generator that joins both sides. -/
def joiningGenerator : Generator Unit :=
  { options := { Options.standard with mode := .and }
    destinations := .ofNames []
    remote := fun _ => .ofDocuments .empty
    compiler := none }

theorem isMade_of_mem_addressedRules :
    ∀ rule ∈ addressedRules, ∀ c ∈ rule.conditions, c.IsMade := by
  simp only [addressedRules, List.forall_mem_cons]
  exact ⟨isMade_of_mem_sampleConditions,
    ⟨Condition.isMade_of_make rfl, Condition.isMade_of_make rfl, nofun⟩,
    ⟨Condition.isMade_of_make rfl, Condition.isMade_of_make rfl, nofun⟩, nofun⟩

theorem checkDestination_addressedRules :
    ∀ rule ∈ addressedRules, checkDestination ["DIRECT"] rule.destination = .ok () := by
  simp only [addressedRules, List.forall_mem_cons]
  exact ⟨rfl, rfl, rfl, nofun⟩

theorem routeRules_addresses_last_addressedRules :
    (∀ rule ∈ addressedRules, ∀ c ∈ rule.conditions, c.IsMade) ∧
    (∀ rule ∈ addressedRules, checkDestination ["DIRECT"] rule.destination = .ok ()) ∧
    ∃ (wholes splits : List Rule) (after : World Unit),
      ((joiningGenerator.splitting false).routeRules [.processName] ["DIRECT"]
        addressedRules).Yields ⟨⟨[], []⟩, (), []⟩ (wholes, 0) after ∧
      ((joiningGenerator.splitting true).routeRules [.processName] ["DIRECT"]
        addressedRules).Yields ⟨⟨[], []⟩, (), []⟩ (splits, 0) after ∧
      wholes.length = 3 ∧
      splits.map (fun rule => rule.node.hasField addressKey) = [false, false, true, true, true] ∧
      valuesUnder (.route "DIRECT") addressKey splits = [.str "10.0.0.0/8", .str "fd00::/8"] := by
  obtain ⟨pairs, count, after, _, hwholes, hsplits, _, hvalues⟩ :=
    routeRules_addresses_last joiningGenerator [.processName] ["DIRECT"]
      isMade_of_mem_addressedRules checkDestination_addressedRules ⟨⟨[], []⟩, (), []⟩
  obtain ⟨⟨wholes, _⟩, _, hwholes', hcheck⟩ := Task.exists_of_succeedsWith (show
    ((joiningGenerator.splitting false).routeRules [.processName] ["DIRECT"]
      addressedRules).succeedsWith (⟨⟨[], []⟩, (), []⟩ : World Unit) (fun made =>
        made.2 = 0 && made.1.length = 3 && valuesUnder (.route "DIRECT") addressKey made.1 =
          [.str "10.0.0.0/8", .str "fd00::/8"]) = true by decide +kernel)
  obtain ⟨⟨splits, _⟩, _, hsplits', hfields⟩ := Task.exists_of_succeedsWith (show
    ((joiningGenerator.splitting true).routeRules [.processName] ["DIRECT"]
      addressedRules).succeedsWith (⟨⟨[], []⟩, (), []⟩ : World Unit) (fun made =>
        made.1.map (fun rule => rule.node.hasField addressKey) =
          [false, false, true, true, true]) = true by decide +kernel)
  obtain ⟨⟨⟩, _⟩ := hwholes.unique hwholes'
  obtain ⟨⟨⟩, _⟩ := hsplits.unique hsplits'
  simp only [Bool.and_eq_true, decide_eq_true_eq] at hcheck hfields
  obtain ⟨⟨rfl, hlength⟩, haddresses⟩ := hcheck
  refine ⟨isMade_of_mem_addressedRules, checkDestination_addressedRules, _, _, after, hwholes,
    hsplits, hlength, hfields, ?_⟩
  rw [hvalues _ _ (by decide), haddresses]

end Generator

end RoutingRules.SingBox
