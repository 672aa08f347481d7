import RoutingRules.Proofs.SingBox.Group
import RoutingRules.Proofs.SingBox.Node.Json
import RoutingRules.SingBox.AddressSplit

/-!
# Rules made of conditions

Rules made from grouped conditions have fields with conditions and nothing else, and splitting off
destination addresses does not change that.  Such a rule has every field in its place, whatever
the conditions are, so it is read back from the configuration that it is written to.

Main results:

- Theorem {lit}`onlyConditions_of_group`: grouped conditions make up a rule of conditions only.
- Theorem {lit}`Node.IsPartOf.of_forall`: what passes from leaves to their parts passes from rules to
  theirs.
- Theorem {lit}`Node.OnlyConditions.isPlaced`: a rule of conditions only has every field in its
  place.
- Theorem {lit}`ofJson_toJson_of_ofJson_of_group`: all rules that are read or grouped are read back.
-/

namespace RoutingRules

/-- A text or an integer. -/
def Json.isPlain : Json → Bool
  | .str _ | .int _ => true
  | _ => false

/-- A plain value has no objects. -/
theorem Json.isSorted_of_isPlain {value : Json} (h : value.isPlain = true) :
    value.isSorted = true := by
  cases value <;> first | rfl | cases h

/-- The field of a condition has a plain value. -/
theorem Condition.isPlain_of_singBoxField {c : Condition} {field : String × Json}
    (h : c.singBoxField = .ok field) : field.2.isPlain = true := by
  obtain ⟨_, _, ⟨_, rfl⟩ | ⟨_, rfl⟩⟩ := eq_of_singBoxField h
  · rfl
  · rfl

namespace SingBox

/-! ## Leaves -/

namespace Leaf

/-- A leaf has fields with conditions and nothing else. -/
structure OnlyConditions (l : Leaf) : Prop where
  references : l.references = []
  extra : l.extra = .empty
  keys : ∀ e ∈ l.conditions.entries, holdsConditions e.1 = true
  values : ∀ e ∈ l.conditions.entries, ∀ v ∈ e.2, v.isSorted = true

/-- The fields of conditions pushed one after another make up a leaf of conditions only. -/
theorem onlyConditions_pushAll {fields : List (String × Json)}
    (h : ∀ f ∈ fields, holdsConditions f.1 = true ∧ f.2.isSorted = true) :
    (empty.pushAll fields).OnlyConditions := by
  refine ⟨references_pushAll empty fields, extra_pushAll empty fields, ?_, ?_⟩
  · rintro ⟨key, values⟩ he
    obtain ⟨hne, rfl⟩ := mem_entries_pushAll.1 he
    obtain ⟨value, hvalue⟩ := List.exists_mem_of_ne_nil _ hne
    exact (h _ (mem_valuesOf.1 hvalue)).1
  · rintro ⟨key, values⟩ he value hvalue
    obtain ⟨_, rfl⟩ := mem_entries_pushAll.1 he
    exact (h _ (mem_valuesOf.1 hvalue)).2

/-- A leaf of conditions only has every field in its place. -/
theorem OnlyConditions.isPlaced {l : Leaf} (h : l.OnlyConditions) : l.IsPlaced := by
  refine ⟨fun key hkey => ?_, fun key _ => ?_, ?_⟩
  · cases hvalues : l.conditions.get? key with
    | none => rfl
    | some values =>
      rw [h.keys _ (SortedMap.mem_entries_iff.2 hvalues)] at hkey
      cases hkey
  · rw [h.extra, SortedMap.get?_empty]
  · rw [h.extra, SortedMap.get?_empty]
    nofun

/-- The object of a leaf of conditions only is in order. -/
theorem OnlyConditions.isSorted {l : Leaf} (h : l.OnlyConditions) :
    (Json.ofMap l.toMap).isSorted = true := by
  refine Json.isSorted_ofMap_iff.2 fun e he => ?_
  have hvalue := SortedMap.mem_entries_iff.1 he
  rw [get?_toMap, if_neg fun hboth => hboth.2 h.references, h.extra, SortedMap.get?_empty,
    Option.or_none] at hvalue
  obtain ⟨values, hvalues, hlist⟩ := Option.map_eq_some_iff.1 hvalue
  rw [← hlist]
  exact Json.isSorted_arr_iff.2 (h.values _ (SortedMap.mem_entries_iff.2 hvalues))

/-- The parts of a leaf of conditions only are such leaves. -/
theorem OnlyConditions.parts {l : Leaf} (h : l.OnlyConditions) :
    (∀ part ∈ l.splitAddress.1, part.OnlyConditions) ∧
      ∀ part ∈ l.splitAddress.2, part.OnlyConditions := by
  unfold Leaf.splitAddress
  split
  next => exact ⟨fun part hpart => Option.some.inj hpart ▸ h, nofun⟩
  next addresses haddresses =>
    have hentry := SortedMap.mem_entries_iff.2 haddresses
    have hrest : (⟨l.conditions.erase addressKey, l.references, l.extra⟩ : Leaf).OnlyConditions :=
      ⟨h.references, h.extra, fun e he => h.keys e (List.mem_filter.1 he).1,
        fun e he => h.values e (List.mem_filter.1 he).1⟩
    refine ⟨fun part hpart => ?_, fun part hpart => ?_⟩
    · dsimp only at hpart
      split at hpart
      next => cases hpart
      next => exact Option.some.inj hpart ▸ hrest
    · obtain rfl := Option.some.inj hpart
      refine ⟨rfl, h.extra, fun e he => ?_, fun e he => ?_⟩
      · obtain rfl := List.mem_singleton.1 he
        exact h.keys _ hentry
      · obtain rfl := List.mem_singleton.1 he
        exact h.values _ hentry

end Leaf

/-! ## Rules -/

/-- A rule has fields with conditions in its leaves and nothing else. -/
inductive Node.OnlyConditions : Node → Prop
  | leaf {l : Leaf} (h : l.OnlyConditions) : OnlyConditions (.leaf l)
  | logical {mode : Mode} {children : List Node}
      (hchildren : ∀ child ∈ children, OnlyConditions child) :
      OnlyConditions (.logical mode children .empty)

/-- A pair of leaves of conditions only is a rule of conditions only. -/
theorem Node.OnlyConditions.pair {mode : Mode} {a b : Leaf} (ha : a.OnlyConditions)
    (hb : b.OnlyConditions) :
    (Node.logical mode [.leaf a, .leaf b] .empty).OnlyConditions := by
  refine .logical fun child hchild => ?_
  simp only [List.mem_cons, List.not_mem_nil, or_false] at hchild
  rcases hchild with rfl | rfl
  · exact .leaf ha
  · exact .leaf hb

/-- A law of the rules that two leaves can make up holds of the one that they do. -/
theorem of_joinLeaves {p : Node → Prop} {mode : Mode} {process other : Leaf} {node : Node}
    (h : joinLeaves mode process other = some node) (hprocess : p (.leaf process))
    (hother : p (.leaf other)) (hpair : p (.logical mode [.leaf process, .leaf other] .empty)) :
    p node := by
  unfold joinLeaves at h
  split at h
  next => cases h
  next => exact Option.some.inj h ▸ hother
  next => exact Option.some.inj h ▸ hprocess
  next => exact Option.some.inj h ▸ hpair

/-- Grouped conditions make up a rule of conditions only. -/
theorem onlyConditions_of_group {conditions : List Condition} {included : List Kind} {mode : Mode}
    {grouped : Grouped} (h : group conditions included mode = .ok grouped) {node : Node}
    (hnode : grouped.node = some node) : node.OnlyConditions := by
  have hside : ∀ isProcess,
      (Leaf.empty.pushAll (sideFields included isProcess conditions)).OnlyConditions := by
    refine fun isProcess => Leaf.onlyConditions_pushAll fun f hf => ?_
    obtain ⟨c, _, _, _, hfield⟩ := mem_sideFields.1 hf
    exact ⟨holdsConditions_of_mem_keys _ (Condition.mem_keys_of_singBoxField hfield),
      Json.isSorted_of_isPlain (Condition.isPlain_of_singBoxField hfield)⟩
  rw [node_of_group h] at hnode
  exact of_joinLeaves hnode (.leaf (hside true)) (.leaf (hside false))
    (.pair (hside true) (hside false))

/-! ## Parts of rules -/

/-- A rule is another one or what is split off from it. -/
def Node.IsPartOf (part node : Node) : Prop :=
  part = node ∨ part ∈ node.splitAddress.direct ∨ part ∈ node.splitAddress.byAddress

/-- The parts of a pair of leaves are its first leaf or pairs of the first leaf with parts of the
second one. -/
theorem eq_of_mem_splitPair {mode : Mode} {process other : Leaf} {extra : SortedMap Json}
    {part : Node} (h : part ∈ (splitPair mode process other extra).direct ∨
      part ∈ (splitPair mode process other extra).byAddress) :
    part = .leaf process ∨ ∃ rest, (rest ∈ other.splitAddress.1 ∨ rest ∈ other.splitAddress.2) ∧
      part = .logical mode [.leaf process, .leaf rest] extra := by
  unfold splitPair at h
  generalize other.splitAddress = split at h ⊢
  obtain ⟨direct, byAddress⟩ := split
  rcases h with h | h
  · dsimp only at h
    split at h
    next rest => exact .inr ⟨rest, .inl rfl, (Option.some.inj h).symm⟩
    next => exact .inl (Option.some.inj h).symm
    next => cases h
  · obtain ⟨rest, hrest, rfl⟩ := Option.map_eq_some_iff.1 h
    exact .inr ⟨rest, .inr hrest, rfl⟩

/-- What passes from leaves to their parts, and from a pair of leaves to either of them and back,
passes from rules to their parts. -/
theorem Node.IsPartOf.of_forall {p : Node → Prop}
    (hleaf : ∀ l part, p (.leaf l) → (part ∈ l.splitAddress.1 ∨ part ∈ l.splitAddress.2) →
      p (.leaf part))
    (hpair : ∀ mode process other extra, p (.logical mode [.leaf process, .leaf other] extra) →
      p (.leaf process) ∧ p (.leaf other) ∧
        ∀ part, p (.leaf part) → p (.logical mode [.leaf process, .leaf part] extra))
    {part node : Node} (h : part.IsPartOf node) (hnode : p node) : p part := by
  rcases h with rfl | h
  · exact hnode
  · unfold Node.splitAddress at h
    split at h
    next l =>
      simp only [Option.mem_def, Option.map_eq_some_iff] at h
      rcases h with ⟨rest, hrest, rfl⟩ | ⟨rest, hrest, rfl⟩
      · exact hleaf l rest hnode (.inl hrest)
      · exact hleaf l rest hnode (.inr hrest)
    next mode process other extra =>
      split at h
      next =>
        obtain ⟨hprocess, hother, hback⟩ := hpair mode process other extra hnode
        rcases eq_of_mem_splitPair h with rfl | ⟨rest, hrest, rfl⟩
        · exact hprocess
        · exact hback rest (hleaf other rest hother hrest)
      next =>
        rcases h with h | h
        · exact Option.some.inj h ▸ hnode
        · cases h
    next =>
      rcases h with h | h
      · exact Option.some.inj h ▸ hnode
      · cases h

namespace Node.OnlyConditions

variable {node : Node}

/-- A rule of conditions only has every field in its place. -/
theorem isPlaced (h : node.OnlyConditions) : node.IsPlaced := by
  induction h with
  | leaf h => exact .leaf h.isPlaced
  | logical _ ih => exact .logical ih fun _ _ => SortedMap.get?_empty _

/-- A rule of conditions only has no other fields. -/
theorem extra_eq (h : node.OnlyConditions) : node.extra = .empty := by
  cases h with
  | leaf h => exact h.extra
  | logical _ => rfl

/-- A rule of conditions only refers to no rule set. -/
theorem references_eq (h : node.OnlyConditions) : node.references = [] := by
  rw [references, List.flatMap_eq_nil_iff]
  induction h with
  | leaf h => simpa [leaves] using h.references
  | logical _ ih =>
    intro l hl
    obtain ⟨child, hchild, hl⟩ := mem_leaves_logical.1 hl
    exact ih child hchild l hl

/-- The object of a rule of conditions only is in order. -/
theorem isSorted (h : node.OnlyConditions) : node.toJson.isSorted = true := by
  induction h with
  | leaf h => exact h.isSorted
  | @logical mode children _ ih =>
    refine Json.isSorted_ofMap_iff.2 fun e he => ?_
    have hvalue := SortedMap.mem_entries_iff.1 he
    rw [get?_toMap_logical, toJsonAll_eq_map] at hvalue
    split at hvalue
    · rw [← Option.some.inj hvalue, Json.isSorted_arr_iff, List.forall_mem_map]
      exact ih
    · split at hvalue
      · rw [← Option.some.inj hvalue]
        rfl
      · split at hvalue
        · rw [← Option.some.inj hvalue]
          rfl
        · cases hvalue

/-- The parts of a rule of conditions only are such rules. -/
theorem of_isPartOf {part : Node} (h : node.OnlyConditions) (hpart : part.IsPartOf node) :
    part.OnlyConditions := by
  refine hpart.of_forall (fun l part hl hpart => ?_) (fun mode process other extra hl => ?_) h
  · cases hl with
    | leaf hl => exact .leaf (hpart.elim (hl.parts.1 part) (hl.parts.2 part))
  · cases hl with
    | logical hchildren =>
      have hprocess : Node.OnlyConditions (.leaf process) := hchildren _ (by simp)
      refine ⟨hprocess, hchildren _ (by simp), fun part hpart => .logical ?_⟩
      simp only [List.forall_mem_cons, List.not_mem_nil, false_implies, implies_true, and_true]
      exact ⟨hprocess, hpart⟩

end Node.OnlyConditions

/-! ## Rules that are read back -/

/-- A rule that was read from an object in order, which no two fields with one key are in, is read
back from the object that it is written to, and so is the rule of any grouped conditions. -/
theorem ofJson_toJson_of_ofJson_of_group :
    (∀ value : Json, value.isSorted = true → ∀ node, Node.ofJson value = .ok node →
      Node.ofJson node.toJson = .ok node) ∧
    (∀ conditions included mode grouped, group conditions included mode = .ok grouped →
      ∀ node, grouped.node = some node → Node.ofJson node.toJson = .ok node) ∧
    ∀ value : Json, value.isSorted = true → ∀ rule, Rule.ofJson value = .ok rule →
      Rule.ofJson rule.toJson = .ok rule := by
  refine ⟨fun value hs node h => ?_, fun conditions included mode grouped h node hnode => ?_,
    fun value hs rule h => ?_⟩
  · exact Node.ofJson_toJson (Node.isPlaced_of_ofJson hs h)
  · exact Node.ofJson_toJson (onlyConditions_of_group h hnode).isPlaced
  · exact Rule.ofJson_toJson (Rule.isPlaced_of_ofJson hs h)

/-- A logical rule with a single value and with fields of its own, conditions on processes beside
others, and a rule with an outbound and no action. -/
theorem ofJson_toJson_of_ofJson_of_group_sample :
    (∃ node, Node.ofJson (.obj
        [("mode", .str "or"), ("note", .int 1),
          ("rules", .arr [.obj [("domain", .str "a.com"), ("invert", .bool true)],
            .obj [("port_range", .arr []), ("rule_set", .str "cn")]]),
          ("type", .str "logical")]) = .ok node ∧
      Node.ofJson node.toJson = .ok node) ∧
    (∃ grouped, group [.on .processName "curl" none, .always, .on .dstPort "80-90" none]
        [.processName] .and = .ok grouped ∧
      ∀ node ∈ grouped.node, Node.ofJson node.toJson = .ok node) ∧
    ∃ rule, Rule.ofJson (.obj [("domain", .arr [.str "a.com"]), ("outbound", .str "DIRECT")]) =
        .ok rule ∧ Rule.ofJson rule.toJson = .ok rule := by
  obtain ⟨hread, hgroup, hrule⟩ := ofJson_toJson_of_ofJson_of_group
  refine ⟨?_, ?_, ?_⟩
  · exact Except.exists_of_isSome_toOption (by decide +kernel) fun node =>
      hread _ (by decide +kernel) node
  · exact Except.exists_of_isSome_toOption (by decide +kernel) fun grouped =>
      hgroup _ _ _ grouped
  · exact Except.exists_of_isSome_toOption (by decide +kernel) fun rule =>
      hrule _ (by decide +kernel) rule

end SingBox

end RoutingRules
