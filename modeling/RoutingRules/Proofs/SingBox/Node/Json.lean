import RoutingRules.Proofs.Json
import RoutingRules.Proofs.Result
import RoutingRules.Proofs.SingBox.FieldGroup
import RoutingRules.SingBox.Rule

/-!
# Rules that are read back

A rule is written as one object, in which conditions, references and other fields stand side by
side, and the reader tells them apart by their keys alone.  A rule is read back when each of its
fields is where its key belongs.  The reader only makes such rules from objects in order.

Main results:

- Theorem {lit}`Node.ofJson_toJson` and {lit}`Rule.ofJson_toJson`: a rule with every field in its
  place is read back.
- Theorem {lit}`Node.isPlaced_of_ofJson` and {lit}`Rule.isPlaced_of_ofJson`: the reader puts every
  field in its place.
-/

namespace RoutingRules.SingBox

open SortedMap (lookupEntry)

/-! ## Keys -/

/-- Whether a leaf keeps a field as it is, since it holds neither conditions nor references. -/
def isExtraKey (key : String) : Bool :=
  key ≠ referencesKey && !Kind.isConditionField key

/-- A field with conditions is not kept as it is. -/
theorem isExtraKey_of_holdsConditions {key : String} (h : holdsConditions key = true) :
    isExtraKey key = false := by
  rw [holdsConditions, Bool.and_eq_true] at h
  rw [isExtraKey, h.2, Bool.not_true, Bool.and_false]

/-- The references are no other field. -/
theorem isExtraKey_referencesKey : isExtraKey referencesKey = false := by
  simp [isExtraKey]

theorem holdsConditions_referencesKey : holdsConditions referencesKey = false := by
  simp [holdsConditions]

/-- The type and the action of a rule are no conditions, nor is the field that turns it around. -/
theorem isExtraKey_plain :
    ∀ key ∈ ["type", invertKey, "action", "outbound"], isExtraKey key = true := by
  decide +kernel

/-- A field that is kept as it is holds no conditions. -/
theorem holdsConditions_of_isExtraKey {key : String} (h : isExtraKey key = true) :
    holdsConditions key = false := by
  rw [isExtraKey, Bool.and_eq_true, Bool.not_eq_true'] at h
  rw [holdsConditions, h.2, Bool.and_false]

/-- The fields that hold conditions of a kind are read as such. -/
theorem holdsConditions_of_mem_keys {kind : Kind} :
    ∀ key ∈ kind.keys, holdsConditions key = true := by
  have hall : ∀ kind ∈ Kind.all, ∀ key ∈ kind.keys, holdsConditions key = true := by
    decide +kernel
  refine hall kind ?_
  cases kind <;> decide

/-! ## Fields in order -/

section Fields

variable {fields : List (String × Json)}

/-- The conditions that are read from a field are its alternatives. -/
theorem get?_conditionFields (hs : KeysIncrease fields) (key : String) :
    (conditionFields fields).get? key =
      if holdsConditions key = true then (lookupEntry key fields).map alternatives else none := by
  have hkept : KeysIncrease (fields.filter fun f => holdsConditions f.1) := List.Pairwise.filter _ hs
  rw [conditionFields, SortedMap.get?_ofList (SortedMap.keysIncrease_map hkept alternatives),
    SortedMap.lookupEntry_map, SortedMap.lookupEntry_filter]
  split <;> rfl

/-- The other fields of a leaf are read as they are. -/
theorem get?_extraFields (hs : KeysIncrease fields) (key : String) :
    (extraFields fields).get? key =
      if isExtraKey key = true then lookupEntry key fields else none := by
  have hkept : KeysIncrease (fields.filter fun f => isExtraKey f.1) := List.Pairwise.filter _ hs
  show (SortedMap.ofList (fields.filter fun f => isExtraKey f.1)).get? key = _
  rw [SortedMap.get?_ofList hkept, SortedMap.lookupEntry_filter]

/-- The keys of a logical rule that are not kept as they are. -/
def logicalKeys : List String :=
  ["type", "mode", "rules"]

/-- The other fields of a logical rule are read as they are. -/
theorem get?_logicalExtra (hs : KeysIncrease fields) (key : String) :
    (logicalExtra fields).get? key =
      if key ∈ logicalKeys then none else lookupEntry key fields := by
  have hkept : KeysIncrease (fields.filter fun f => !logicalKeys.contains f.1) :=
    List.Pairwise.filter _ hs
  have hfilter := SortedMap.lookupEntry_filter (fun key => !logicalKeys.contains key) key fields
  show (SortedMap.ofList (fields.filter fun f => !logicalKeys.contains f.1)).get? key = _
  rw [SortedMap.get?_ofList hkept, hfilter]
  by_cases hkey : key ∈ logicalKeys <;> simp [hkey]

theorem isLogical_iff :
    isLogical fields = true ↔ (lookupEntry "type" fields).bind Json.toText? = some logicalType :=
  decide_eq_true_iff

end Fields

/-! ## Leaves -/

namespace Leaf

/-- Every field of a leaf is where its key belongs, and the leaf is not taken for a logical
rule. -/
structure IsPlaced (l : Leaf) : Prop where
  conditions : ∀ key, holdsConditions key = false → l.conditions.get? key = none
  extra : ∀ key, isExtraKey key = false → l.extra.get? key = none
  notLogical : (l.extra.get? "type").bind Json.toText? ≠ some logicalType

/-- The fields of a leaf: its conditions, its references if there are any, and the others. -/
theorem get?_toMap (l : Leaf) (key : String) :
    l.toMap.get? key =
      if key = referencesKey ∧ l.references ≠ [] then some (.ofTexts l.references)
      else ((l.conditions.get? key).map .arr).or (l.extra.get? key) := by
  have hfields : ∀ key, (l.extra.insertAll (l.conditions.entries.map fun e => (e.1, .arr e.2))).get?
      key = ((l.conditions.get? key).map .arr).or (l.extra.get? key) := by
    intro key
    have hsorted := SortedMap.keysIncrease_map l.conditions.sorted Json.arr
    have hlookup := SortedMap.lookupEntry_map Json.arr key l.conditions.entries
    exact (SortedMap.get?_insertAll _ hsorted key).trans (congrArg (Option.or · _) hlookup)
  unfold toMap
  by_cases hempty : l.references = []
  · simp [hempty, hfields]
  · simp only [List.isEmpty_iff, hempty, if_false, SortedMap.get?_insert, hfields, ne_eq,
      not_false_eq_true, and_true]

namespace IsPlaced

variable {l : Leaf}

/-- A field of a leaf that holds neither conditions nor references is one of the others. -/
theorem get?_toMap_of_isExtraKey (h : l.IsPlaced) {key : String} (hkey : isExtraKey key = true) :
    l.toMap.get? key = l.extra.get? key := by
  have hreferences : key ≠ referencesKey := by
    rintro rfl
    rw [isExtraKey_referencesKey] at hkey
    cases hkey
  rw [get?_toMap, if_neg fun hboth => hreferences hboth.1,
    h.conditions key (holdsConditions_of_isExtraKey hkey)]
  rfl

/-- The conditions are read back. -/
theorem conditionFields_toMap (h : l.IsPlaced) :
    conditionFields l.toMap.entries = l.conditions := by
  refine SortedMap.ext_get? fun key => ?_
  rw [get?_conditionFields l.toMap.sorted]
  split
  next hkey =>
    have hreferences : key ≠ referencesKey := by
      rintro rfl
      rw [holdsConditions_referencesKey] at hkey
      cases hkey
    show (l.toMap.get? key).map alternatives = _
    rw [get?_toMap, if_neg fun hboth => hreferences hboth.1,
      h.extra key (isExtraKey_of_holdsConditions hkey), Option.or_none]
    cases l.conditions.get? key <;> rfl
  next hkey => rw [h.conditions key (eq_false_of_ne_true hkey)]

/-- The other fields are read back. -/
theorem extraFields_toMap (h : l.IsPlaced) : extraFields l.toMap.entries = l.extra := by
  refine SortedMap.ext_get? fun key => ?_
  rw [get?_extraFields l.toMap.sorted]
  split
  next hkey => exact h.get?_toMap_of_isExtraKey hkey
  next hkey => rw [h.extra key (eq_false_of_ne_true hkey)]

end IsPlaced

/-- A list of texts is read back. -/
theorem readReferences_ofTexts (texts : List String) :
    readReferences (.ofTexts texts) = .ok texts := by
  have hread : List.Forall₂ (fun value tag => readTag value = .ok tag) (texts.map .str) texts := by
    rw [List.forall₂_map_left_iff, List.forall₂_same]
    exact fun _ _ => rfl
  exact Except.mapM_eq_ok_iff.2 hread

namespace IsPlaced

variable {l : Leaf}

/-- A leaf with every field in its place is read back. -/
theorem ofFields_toMap (h : l.IsPlaced) : Leaf.ofFields l.toMap.entries = .ok l := by
  have hlookup : lookupEntry referencesKey l.toMap.entries =
      if l.references = [] then none else some (.ofTexts l.references) := by
    show l.toMap.get? referencesKey = _
    rw [get?_toMap, h.conditions _ holdsConditions_referencesKey,
      h.extra _ isExtraKey_referencesKey]
    by_cases hempty : l.references = [] <;> simp [hempty]
  rw [Leaf.ofFields, hlookup, h.conditionFields_toMap, h.extraFields_toMap]
  by_cases hempty : l.references = []
  · rw [if_pos hempty, ← hempty]
    rfl
  · rw [if_neg hempty]
    simp only [readReferences_ofTexts]
    rfl

/-- A leaf with every field in its place is not taken for a logical rule. -/
theorem isLogical_toMap (h : l.IsPlaced) : isLogical l.toMap.entries = false := by
  have htype : lookupEntry "type" l.toMap.entries = l.extra.get? "type" :=
    h.get?_toMap_of_isExtraKey (isExtraKey_plain _ (by simp))
  rw [isLogical, htype, decide_eq_false h.notLogical]

end IsPlaced

/-- The conditions and the other fields of a leaf that was read. -/
theorem fields_of_ofFields {fields : List (String × Json)} {l : Leaf}
    (h : Leaf.ofFields fields = .ok l) :
    l.conditions = conditionFields fields ∧ l.extra = extraFields fields := by
  rw [Leaf.ofFields] at h
  split at h
  · obtain rfl := Except.ok.inj h
    exact ⟨rfl, rfl⟩
  · obtain ⟨references, _, hl⟩ := Except.bind_eq_ok_iff.1 h
    obtain rfl := Except.ok.inj hl
    exact ⟨rfl, rfl⟩

/-- The reader puts every field of a leaf in its place. -/
theorem isPlaced_of_ofFields {fields : List (String × Json)} (hs : KeysIncrease fields)
    (hplain : isLogical fields = false) {l : Leaf} (h : Leaf.ofFields fields = .ok l) :
    l.IsPlaced := by
  obtain ⟨hconditions, hextra⟩ := fields_of_ofFields h
  refine ⟨fun key hkey => ?_, fun key hkey => ?_, ?_⟩
  · rw [hconditions, get?_conditionFields hs, if_neg (by simp [hkey])]
  · rw [hextra, get?_extraFields hs, if_neg (by simp [hkey])]
  · rw [hextra, get?_extraFields hs, if_pos (isExtraKey_plain _ (by simp))]
    exact of_decide_eq_false hplain

end Leaf

/-! ## Trees -/

/-- The fields of a rule that are kept as they are. -/
def Node.extra : Node → SortedMap Json
  | .leaf l => l.extra
  | .logical _ _ extra => extra

/-- Every field in a rule is where its key belongs. -/
inductive Node.IsPlaced : Node → Prop
  | leaf {l : Leaf} (h : l.IsPlaced) : IsPlaced (.leaf l)
  | logical {mode : Mode} {children : List Node} {extra : SortedMap Json}
      (hchildren : ∀ child ∈ children, IsPlaced child)
      (hextra : ∀ key ∈ logicalKeys, extra.get? key = none) :
      IsPlaced (.logical mode children extra)

namespace Node

/-- The fields of a logical rule. -/
theorem get?_toMap_logical (mode : Mode) (children : List Node) (extra : SortedMap Json)
    (key : String) :
    (logical mode children extra).toMap.get? key =
      if key = "rules" then some (.arr (toJsonAll children))
      else if key = "mode" then some (.str mode.name)
      else if key = "type" then some (.str logicalType)
      else extra.get? key := by
  rw [toMap, SortedMap.get?_insert, SortedMap.get?_insert, SortedMap.get?_insert]

theorem toJsonAll_eq_map (nodes : List Node) : toJsonAll nodes = nodes.map toJson := by
  induction nodes with
  | nil => rfl
  | cons node nodes ih =>
    rw [toJsonAll, ih]
    rfl

/-- The rules of a logical rule are those of one field. -/
theorem ofRulesField_of_lookupEntry {fields : List (String × Json)} {value : Json}
    (h : lookupEntry "rules" fields = some value) : ofRulesField fields = ofRules value := by
  induction fields with
  | nil => cases h
  | cons f fields ih =>
    obtain ⟨key, v⟩ := f
    rw [lookupEntry] at h
    rw [ofRulesField]
    by_cases hkey : key = "rules"
    · rw [if_pos hkey.symm] at h
      rw [if_pos hkey, Option.some.inj h]
    · rw [if_neg (Ne.symm hkey)] at h
      rw [if_neg hkey, ih h]

/-- The children of a logical rule are read one by one. -/
theorem ofItems_eq_mapM (items : List Json) : ofItems items = items.mapM ofJson := by
  induction items with
  | nil => rfl
  | cons item items ih =>
    rw [ofItems, List.mapM_cons, ih]

/-- An object of a logical rule is read from its mode and its rules. -/
theorem ofJson_logical_eq_ok_iff {fields : List (String × Json)} (h : isLogical fields = true)
    {node : Node} :
    ofJson (.obj fields) = .ok node ↔
      ∃ mode children, readMode fields = .ok mode ∧ ofRulesField fields = .ok children ∧
        node = .logical mode children (logicalExtra fields) := by
  rw [ofJson, if_pos h, Except.bind_eq_ok_iff]
  simp only [Except.bind_eq_ok_iff, pure, Except.pure, Except.ok.injEq, @eq_comm _ node,
    exists_and_left]

/-- Any other object is read as a leaf. -/
theorem ofJson_leaf_eq_ok_iff {fields : List (String × Json)} (h : isLogical fields = false)
    {node : Node} :
    ofJson (.obj fields) = .ok node ↔ ∃ l, Leaf.ofFields fields = .ok l ∧ node = .leaf l := by
  rw [ofJson, if_neg (by simp [h]), Except.map_eq_ok_iff]
  simp only [@eq_comm _ node]

/-- The name of a mode is read back. -/
theorem ofName?_name (mode : Mode) : Mode.ofName? mode.name = some mode := by
  cases mode <;> decide

/-- An object with the fields of a logical rule is read as this rule, with all its other fields
kept. -/
theorem ofJson_of_lookupEntry {fields : List (String × Json)} {mode : Mode}
    {children : List Node} (htype : lookupEntry "type" fields = some (.str logicalType))
    (hmode : lookupEntry "mode" fields = some (.str mode.name))
    (hrules : lookupEntry "rules" fields = some (.arr (toJsonAll children)))
    (hchildren : ∀ child ∈ children, ofJson child.toJson = .ok child) :
    ofJson (.obj fields) = .ok (.logical mode children (logicalExtra fields)) := by
  have hlogical : isLogical fields = true := by
    rw [isLogical_iff, htype]
    rfl
  refine (ofJson_logical_eq_ok_iff hlogical).2 ⟨mode, children, ?_, ?_, rfl⟩
  · rw [readMode, hmode]
    simp only [Option.bind_some, Json.toText?, ofName?_name]
  · rw [ofRulesField_of_lookupEntry hrules, ofRules, ofItems_eq_mapM, toJsonAll_eq_map,
      Except.mapM_eq_ok_iff, List.forall₂_map_left_iff, List.forall₂_same]
    exact hchildren

/-- The other fields of a logical rule are read back, if none of its keys is among them. -/
theorem logicalExtra_toMap (mode : Mode) (children : List Node) {extra : SortedMap Json}
    (hextra : ∀ key ∈ logicalKeys, extra.get? key = none) :
    logicalExtra (logical mode children extra).toMap.entries = extra := by
  refine SortedMap.ext_get? fun key => ?_
  rw [get?_logicalExtra (logical mode children extra).toMap.sorted]
  split
  next hkey => rw [hextra key hkey]
  next hkey =>
    simp only [logicalKeys, List.mem_cons, List.not_mem_nil, or_false, not_or] at hkey
    obtain ⟨htype, hmode, hrules⟩ := hkey
    show (logical mode children extra).toMap.get? key = _
    rw [get?_toMap_logical, if_neg hrules, if_neg hmode, if_neg htype]

/-- A rule with every field in its place is read back. -/
theorem ofJson_toJson {node : Node} (h : node.IsPlaced) : ofJson node.toJson = .ok node := by
  induction h with
  | leaf h => exact (ofJson_leaf_eq_ok_iff h.isLogical_toMap).2 ⟨_, h.ofFields_toMap, rfl⟩
  | @logical mode children extra _ hextra ih =>
    have hget := get?_toMap_logical mode children extra
    rw [toJson, Json.ofMap, ofJson_of_lookupEntry (hget "type") (hget "mode") (hget "rules") ih,
      logicalExtra_toMap mode children hextra]

/-- The rules of a logical rule are read from the list that one of its fields holds. -/
theorem lookupEntry_of_ofRulesField {fields : List (String × Json)} {children : List Node}
    (h : ofRulesField fields = .ok children) :
    ∃ value, lookupEntry "rules" fields = some value ∧ ofRules value = .ok children := by
  induction fields with
  | nil => cases h
  | cons f fields ih =>
    obtain ⟨key, value⟩ := f
    rw [ofRulesField] at h
    rw [lookupEntry]
    by_cases hkey : key = "rules"
    · rw [if_pos hkey] at h
      exact ⟨value, if_pos hkey.symm, h⟩
    · rw [if_neg hkey] at h
      rw [if_neg (Ne.symm hkey)]
      exact ih h

/-- Induction over rules and the values that they are read from: a law holds of all of them when it
holds of leaves and passes from the rules in the list of a logical rule to the rule. -/
theorem readInduction {motive : Json → Node → Prop}
    (leaf : ∀ {fields : List (String × Json)} {l : Leaf}, isLogical fields = false →
      Leaf.ofFields fields = .ok l → motive (.obj fields) (.leaf l))
    (logical : ∀ {fields : List (String × Json)} {items : List Json} {mode : Mode}
      {children : List Node}, isLogical fields = true →
      lookupEntry "rules" fields = some (.arr items) → List.Forall₂ motive items children →
      motive (.obj fields) (.logical mode children (logicalExtra fields)))
    {value : Json} {node : Node} (h : ofJson value = .ok node) : motive value node := by
  -- The same holds of all rules in a list, which is how it passes from the fields to the rule.
  have hread : (∀ node, ofJson value = .ok node → motive value node) ∧
      ∀ nodes, ofRules value = .ok nodes →
        ∃ items, value = .arr items ∧ List.Forall₂ motive items nodes := by
    clear h
    induction value using Json.valueInduction with
    | arr items ih =>
      refine ⟨nofun, fun nodes h => ⟨items, rfl, ?_⟩⟩
      rw [ofRules, ofItems_eq_mapM, Except.mapM_eq_ok_iff] at h
      have hboth := (List.forall₂_and_left items nodes).2 ⟨fun item hitem => (ih item hitem).1, h⟩
      exact hboth.imp fun item child hitem => hitem.1 child hitem.2
    | obj fields ih =>
      refine ⟨fun node h => ?_, nofun⟩
      cases hlogical : isLogical fields with
      | false =>
        obtain ⟨l, hl, rfl⟩ := (ofJson_leaf_eq_ok_iff hlogical).1 h
        exact leaf hlogical hl
      | true =>
        obtain ⟨mode, children, _, hrules, rfl⟩ := (ofJson_logical_eq_ok_iff hlogical).1 h
        obtain ⟨value, hlookup, hvalue⟩ := lookupEntry_of_ofRulesField hrules
        obtain ⟨items, rfl, hitems⟩ :=
          (ih _ (SortedMap.mem_of_lookupEntry hlookup)).2 children hvalue
        exact logical hlogical hlookup hitems
    | _ => exact ⟨nofun, nofun⟩
  exact hread.1 node h

/-- The reader puts every field of a rule in its place. -/
theorem isPlaced_of_ofJson {value : Json} (hs : value.isSorted = true) {node : Node}
    (h : ofJson value = .ok node) : node.IsPlaced := by
  refine readInduction (motive := fun value node => value.isSorted = true → node.IsPlaced)
    (fun hplain hl hs => ?_) (fun _ hrules hchildren hs => ?_) h hs
  · exact .leaf (Leaf.isPlaced_of_ofFields (Json.isSorted_obj_iff.1 hs).1 hplain hl)
  · obtain ⟨hfields, hvalues⟩ := Json.isSorted_obj_iff.1 hs
    refine .logical (fun child hchild => ?_) fun key hkey => ?_
    · obtain ⟨item, hitem, hplaced⟩ := exists_mem_of_forall₂ hchildren hchild
      have hitems := hvalues _ (SortedMap.mem_of_lookupEntry hrules)
      exact hplaced (Json.isSorted_arr_iff.1 hitems item hitem)
    · rw [get?_logicalExtra hfields, if_pos hkey]

/-- The other fields of a rule are among those it was read from. -/
theorem get?_extra_of_ofJson {fields : List (String × Json)} (hs : KeysIncrease fields)
    {node : Node} (h : ofJson (.obj fields) = .ok node) {key : String}
    (hkey : lookupEntry key fields = none) : node.extra.get? key = none := by
  cases hlogical : isLogical fields with
  | false =>
    obtain ⟨l, hl, rfl⟩ := (ofJson_leaf_eq_ok_iff hlogical).1 h
    rw [extra, (Leaf.fields_of_ofFields hl).2, get?_extraFields hs, hkey, ite_self]
  | true =>
    obtain ⟨mode, children, _, _, rfl⟩ := (ofJson_logical_eq_ok_iff hlogical).1 h
    rw [extra, get?_logicalExtra hs, hkey, ite_self]

end Node

/-! ## Rules with actions -/

/-- The keys of the action of a rule. -/
def actionKeys : List String :=
  ["action", "outbound"]

/-- A field of the action is no field of the rule, unless it is one of those kept as they are. -/
theorem Node.IsPlaced.get?_toMap_of_mem_actionKeys {node : Node} (h : node.IsPlaced) :
    ∀ key ∈ actionKeys, node.toMap.get? key = node.extra.get? key := by
  intro key hkey
  cases h with
  | leaf h =>
    have hplain := List.mem_cons_of_mem "type" (List.mem_cons_of_mem invertKey hkey)
    exact h.get?_toMap_of_isExtraKey (isExtraKey_plain key hplain)
  | logical _ _ =>
    rw [get?_toMap_logical]
    simp only [actionKeys, List.mem_cons, List.not_mem_nil, or_false] at hkey
    rcases hkey with rfl | rfl <;> rfl

namespace Rule

/-- Every field in a rule is where its key belongs, and the fields of its action are not among the
others. -/
structure IsPlaced (rule : Rule) : Prop where
  node : rule.node.IsPlaced
  action : ∀ key ∈ actionKeys, rule.node.extra.get? key = none

/-- The fields of a rule: those of its action and the others. -/
theorem get?_toMap (rule : Rule) (key : String) (hkey : key ∉ actionKeys) :
    rule.toMap.get? key = rule.node.toMap.get? key := by
  simp only [actionKeys, List.mem_cons, List.not_mem_nil, or_false, not_or] at hkey
  obtain ⟨haction, houtbound⟩ := hkey
  unfold toMap
  split
  · rw [SortedMap.get?_insert, if_neg houtbound, SortedMap.get?_insert, if_neg haction]
  · rw [SortedMap.get?_insert, if_neg haction]

theorem get?_nodeFields {fields : List (String × Json)} (key : String) :
    lookupEntry key (nodeFields fields) =
      if key ∈ actionKeys then none else lookupEntry key fields := by
  have hfilter := SortedMap.lookupEntry_filter (fun key => key ≠ "action" && key ≠ "outbound") key
    fields
  show lookupEntry key (fields.filter _) = _
  rw [hfilter]
  by_cases haction : key = "action" <;> by_cases houtbound : key = "outbound" <;>
    simp [actionKeys, haction, houtbound]

/-- The fields of a rule other than its action are read back. -/
theorem IsPlaced.nodeFields_toMap {rule : Rule} (h : rule.IsPlaced) :
    nodeFields rule.toMap.entries = rule.node.toMap.entries := by
  have hkept : KeysIncrease (nodeFields rule.toMap.entries) :=
    List.Pairwise.filter _ rule.toMap.sorted
  have hmap : (⟨_, hkept⟩ : SortedMap Json) = rule.node.toMap := by
    refine SortedMap.ext_get? fun key => ?_
    show lookupEntry key (nodeFields rule.toMap.entries) = _
    rw [get?_nodeFields]
    split
    next hkey => rw [h.node.get?_toMap_of_mem_actionKeys key hkey, h.action key hkey]
    next hkey => exact rule.get?_toMap key hkey
  exact congrArg SortedMap.entries hmap

/-- The action of a rule is read back. -/
theorem readAction_toMap (rule : Rule) : readAction rule.toMap.entries = .ok rule.action := by
  obtain ⟨action, node⟩ := rule
  cases action with
  | route outbound =>
    have haction : lookupEntry "action" (toMap ⟨.route outbound, node⟩).entries =
        some (.str "route") := by
      show ((node.toMap.insert _ _).insert _ _).get? _ = _
      rw [SortedMap.get?_insert, SortedMap.get?_insert]
      rfl
    have houtbound : lookupEntry "outbound" (toMap ⟨.route outbound, node⟩).entries =
        some (.str outbound) := by
      show ((node.toMap.insert _ _).insert _ _).get? _ = _
      rw [SortedMap.get?_insert, if_pos rfl]
    simp only [readAction, haction, houtbound, Option.bind_some, Json.toText?]
  | reject =>
    have haction : lookupEntry "action" (toMap ⟨.reject, node⟩).entries =
        some (.str "reject") := by
      show (node.toMap.insert _ _).get? _ = _
      rw [SortedMap.get?_insert, if_pos rfl]
    simp only [readAction, haction, Option.bind_some, Json.toText?]

/-- A rule is read from the fields of an object: its action from some, the rest from the others. -/
theorem ofJson_eq_ok_iff {value : Json} {rule : Rule} :
    ofJson value = .ok rule ↔
      ∃ fields, value = .obj fields ∧ readAction fields = .ok rule.action ∧
        Node.ofJson (.obj (nodeFields fields)) = .ok rule.node := by
  constructor
  · intro h
    cases value with
    | obj fields =>
      obtain ⟨action, haction, h⟩ := Except.bind_eq_ok_iff.1 h
      obtain ⟨node, hnode, h⟩ := Except.bind_eq_ok_iff.1 h
      obtain rfl := Except.ok.inj h
      exact ⟨fields, rfl, haction, hnode⟩
    | _ => cases h
  · rintro ⟨fields, rfl, haction, hnode⟩
    rw [ofJson, Except.bind_eq_ok_iff]
    exact ⟨rule.action, haction, Except.bind_eq_ok_iff.2 ⟨rule.node, hnode, rfl⟩⟩

/-- A rule with every field in its place is read back. -/
theorem ofJson_toJson {rule : Rule} (h : rule.IsPlaced) : ofJson rule.toJson = .ok rule := by
  refine ofJson_eq_ok_iff.2 ⟨rule.toMap.entries, rfl, readAction_toMap rule, ?_⟩
  rw [h.nodeFields_toMap]
  exact Node.ofJson_toJson h.node

/-- The reader puts every field of a rule in its place. -/
theorem isPlaced_of_ofJson {value : Json} (hs : value.isSorted = true) {rule : Rule}
    (h : ofJson value = .ok rule) : rule.IsPlaced := by
  obtain ⟨fields, rfl, _, hnode⟩ := ofJson_eq_ok_iff.1 h
  obtain ⟨hfields, hvalues⟩ := Json.isSorted_obj_iff.1 hs
  have hkept : KeysIncrease (nodeFields fields) := List.Pairwise.filter _ hfields
  have hsorted : (Json.obj (nodeFields fields)).isSorted = true :=
    Json.isSorted_obj_iff.2 ⟨hkept, fun f hf => hvalues f (List.mem_filter.1 hf).1⟩
  refine ⟨Node.isPlaced_of_ofJson hsorted hnode, fun key hkey => ?_⟩
  refine Node.get?_extra_of_ofJson hkept hnode ?_
  rw [get?_nodeFields, if_pos hkey]

end Rule

end RoutingRules.SingBox
