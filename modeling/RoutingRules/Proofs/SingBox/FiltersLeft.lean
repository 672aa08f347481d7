import RoutingRules.Proofs.SingBox.ConditionsMoved
import RoutingRules.Proofs.SingBox.ExpansionFrame

/-!
# Filters that are left over

Expansion replaces the filters of an object and does not look into its other fields, so filters
inside of a field that the object keeps are left over.  This module says when a configuration has
none of them.  Everything behind expansion cannot add any: rules are read, extracted and written
field by field, and the rules of routing rules have plain values only.

Main results:

- Theorem {lit}`Expands.lacksKey_iff`: an expanded value has no filters when no object with filters
  keeps a field with others inside.
- Theorems {lit}`Node.lacksFilters_of_ofJson` and {lit}`Node.LacksFilters.toJson`: reading and
  writing a rule adds no filters.
- Theorem {lit}`Node.LacksFilters.remainder`: extraction adds none.
- Theorem {lit}`generate_lacksFilters_iff`: when the section for name queries and the rules of a
  configuration have none.
-/

namespace RoutingRules

open SortedMap (lookupEntry)

/-! ## Values without a key -/

namespace Json

variable {key : String}

theorem lacksKey_arr_iff {items : List Json} :
    (arr items).lacksKey key = true ↔ ∀ item ∈ items, item.lacksKey key = true :=
  itemsLackKey_iff

/-- An object lacks a key when none of its fields has it and their values lack it. -/
theorem lacksKey_obj_iff {fields : List (String × Json)} :
    (obj fields).lacksKey key = true ↔ ∀ f ∈ fields, f.1 ≠ key ∧ f.2.lacksKey key = true := by
  rw [lacksKey, Bool.and_eq_true, Option.isNone_iff_eq_none, SortedMap.lookupEntry_eq_none_iff,
    fieldsLackKey_iff]
  exact forall₂_and.symm

/-- The object of a map lacks a key when no other key has a value with it. -/
theorem lacksKey_ofMap_iff {m : SortedMap Json} :
    (ofMap m).lacksKey key = true ↔
      ∀ name value, m.get? name = some value → name ≠ key ∧ value.lacksKey key = true := by
  rw [ofMap, lacksKey_obj_iff]
  exact ⟨fun h name value hvalue => h _ (SortedMap.mem_entries_iff.2 hvalue),
    fun h f hf => h f.1 f.2 (SortedMap.mem_entries_iff.1 hf)⟩

/-- Entering fields that lack a key keeps an object without it. -/
theorem lacksKey_insertAll {m : SortedMap Json} {fields : List (String × Json)}
    (hm : (ofMap m).lacksKey key = true) (hfields : (obj fields).lacksKey key = true) :
    (ofMap (m.insertAll fields)).lacksKey key = true :=
  lacksKey_obj_iff.2 fun f hf => (SortedMap.mem_entries_insertAll hf).elim
    (lacksKey_obj_iff.1 hm f) (lacksKey_obj_iff.1 hfields f)

/-- Entering a field with another key keeps an object without the key, if the value lacks it. -/
theorem lacksKey_insert {m : SortedMap Json} {name : String} {value : Json}
    (hm : (ofMap m).lacksKey key = true) (hname : name ≠ key) (hvalue : value.lacksKey key = true) :
    (ofMap (m.insert name value)).lacksKey key = true := by
  have hfield : (obj [(name, value)]).lacksKey key = true :=
    lacksKey_obj_iff.2 fun _ hf => List.mem_singleton.1 hf ▸ ⟨hname, hvalue⟩
  exact lacksKey_insertAll hm hfield

/-- Some fields of an object that lacks a key make up one that lacks it. -/
theorem lacksKey_ofList {fields others : List (String × Json)}
    (h : (obj fields).lacksKey key = true) (hothers : ∀ f ∈ others, f ∈ fields) :
    (ofMap (.ofList others)).lacksKey key = true :=
  lacksKey_insertAll rfl (lacksKey_obj_iff.2 fun f hf => lacksKey_obj_iff.1 h f (hothers f hf))

/-- A plain value has no objects. -/
theorem lacksKey_of_isPlain {value : Json} (h : value.isPlain = true) :
    value.lacksKey key = true := by
  cases value <;> first | rfl | cases h

theorem lacksKey_ofTexts (texts : List String) : (ofTexts texts).lacksKey key = true := by
  refine lacksKey_arr_iff.2 fun item hitem => ?_
  obtain ⟨text, _, rfl⟩ := List.mem_map.1 hitem
  rfl

/-- The alternatives that a value stands for lack a key when the value does. -/
theorem lacksKey_alternatives {value : Json} (h : value.lacksKey key = true) :
    (arr (SingBox.alternatives value)).lacksKey key = true := by
  unfold SingBox.alternatives
  split
  next => exact h
  next => exact lacksKey_arr_iff.2 fun item hitem => List.mem_singleton.1 hitem ▸ h

end Json

namespace SingBox

/-! ## Leaves without filters -/

/-- A leaf has no filters among its fields, nor has any object in their values. -/
structure Leaf.LacksFilters (l : Leaf) : Prop where
  conditions : (Json.obj (l.conditions.entries.map fun e => (e.1, .arr e.2))).lacksKey filtersKey =
    true
  extra : (Json.ofMap l.extra).lacksKey filtersKey = true

namespace Leaf

/-- The object of a leaf without filters has none. -/
theorem LacksFilters.toMap {l : Leaf} (h : l.LacksFilters) :
    (Json.ofMap l.toMap).lacksKey filtersKey = true := by
  have hfields := Json.lacksKey_insertAll h.extra h.conditions
  unfold Leaf.toMap
  split
  · exact hfields
  · exact Json.lacksKey_insert hfields (by decide) (Json.lacksKey_ofTexts _)

/-- A leaf that is left with references and other fields has no filters when it had none there. -/
theorem lacksFilters_of_extra {references : List String} {extra : SortedMap Json}
    (h : (Json.ofMap extra).lacksKey filtersKey = true) :
    (⟨.empty, references, extra⟩ : Leaf).LacksFilters :=
  ⟨rfl, h⟩

/-- A leaf that is read from an object without filters has none. -/
theorem lacksFilters_of_ofFields {fields : List (String × Json)} {l : Leaf}
    (h : Leaf.ofFields fields = .ok l) (hfields : (Json.obj fields).lacksKey filtersKey = true) :
    l.LacksFilters := by
  obtain ⟨hconditions, hextra⟩ := fields_of_ofFields h
  refine ⟨Json.lacksKey_obj_iff.2 fun f hf => ?_, ?_⟩
  · obtain ⟨e, he, rfl⟩ := List.mem_map.1 hf
    rw [hconditions] at he
    obtain ⟨old, hold, rfl⟩ := List.mem_map.1 (SortedMap.mem_entries_ofList he)
    obtain ⟨hkey, hvalue⟩ := Json.lacksKey_obj_iff.1 hfields old (List.mem_of_mem_filter hold)
    exact ⟨hkey, Json.lacksKey_alternatives hvalue⟩
  · rw [hextra]
    exact Json.lacksKey_ofList hfields fun f hf => List.mem_of_mem_filter hf

/-- The fields of conditions pushed one after another make up a leaf without filters. -/
theorem lacksFilters_pushAll {fields : List (String × Json)}
    (h : (Json.obj fields).lacksKey filtersKey = true) :
    (empty.pushAll fields).LacksFilters := by
  refine ⟨Json.lacksKey_obj_iff.2 fun f hf => ?_, ?_⟩
  · obtain ⟨⟨key, values⟩, he, rfl⟩ := List.mem_map.1 hf
    obtain ⟨hne, rfl⟩ := mem_entries_pushAll.1 he
    obtain ⟨value, hvalue⟩ := List.exists_mem_of_ne_nil _ hne
    refine ⟨(Json.lacksKey_obj_iff.1 h _ (mem_valuesOf.1 hvalue)).1, ?_⟩
    exact Json.lacksKey_arr_iff.2 fun item hitem =>
      (Json.lacksKey_obj_iff.1 h _ (mem_valuesOf.1 hitem)).2
  · rw [extra_pushAll]
    rfl

/-- The parts of a leaf without filters have none. -/
theorem LacksFilters.parts {l part : Leaf} (h : l.LacksFilters)
    (hpart : part ∈ l.splitAddress.1 ∨ part ∈ l.splitAddress.2) : part.LacksFilters := by
  have hconditions : ∀ conditions : SortedMap (List Json),
      (∀ e ∈ conditions.entries, e ∈ l.conditions.entries) →
        (Json.obj (conditions.entries.map fun e => (e.1, .arr e.2))).lacksKey filtersKey = true := by
    refine fun conditions hsub => Json.lacksKey_obj_iff.2 fun f hf => ?_
    obtain ⟨e, he, rfl⟩ := List.mem_map.1 hf
    exact Json.lacksKey_obj_iff.1 h.conditions _ (List.mem_map_of_mem (hsub e he))
  unfold splitAddress at hpart
  split at hpart
  next =>
    rcases hpart with hpart | hpart
    · exact Option.some.inj hpart ▸ h
    · cases hpart
  next addresses haddresses =>
    dsimp only at hpart
    rcases hpart with hpart | hpart
    · split at hpart
      next => cases hpart
      next =>
        obtain rfl := Option.some.inj hpart
        exact ⟨hconditions _ fun e he => (List.mem_filter.1 he).1, h.extra⟩
    · obtain rfl := Option.some.inj hpart
      refine ⟨hconditions _ fun e he => ?_, h.extra⟩
      obtain rfl := List.mem_singleton.1 he
      exact SortedMap.mem_entries_iff.2 haddresses

end Leaf

/-! ## Rules without filters -/

/-- A rule has no filters among its fields, nor has any object in their values. -/
inductive Node.LacksFilters : Node → Prop
  | leaf {l : Leaf} (h : l.LacksFilters) : LacksFilters (.leaf l)
  | logical {mode : Mode} {children : List Node} {extra : SortedMap Json}
      (hchildren : ∀ child ∈ children, LacksFilters child)
      (hextra : (Json.ofMap extra).lacksKey filtersKey = true) :
      LacksFilters (.logical mode children extra)

namespace Node

/-- The object of a logical rule lacks a key, other than its own ones, when its children and its
other fields do. -/
theorem lacksKey_toJson_logical {key : String} (hkey : key ∉ ["type", "mode", "rules"])
    {mode : Mode} {children : List Node} {extra : SortedMap Json}
    (hextra : (Json.ofMap extra).lacksKey key = true)
    (hchildren : ∀ child ∈ children, child.toJson.lacksKey key = true) :
    (logical mode children extra).toJson.lacksKey key = true := by
  have hrules : (Json.arr (toJsonAll children)).lacksKey key = true := by
    rw [toJsonAll_eq_map]
    exact Json.lacksKey_arr_iff.2 (List.forall_mem_map.2 hchildren)
  have hown : ∀ own ∈ ["type", "mode", "rules"], own ≠ key := by
    rintro own hown rfl
    exact hkey hown
  exact Json.lacksKey_insert (Json.lacksKey_insert
    (Json.lacksKey_insert hextra (hown _ (by simp)) rfl) (hown _ (by simp)) rfl)
    (hown _ (by simp)) hrules

/-- The object of a rule without filters has none. -/
theorem LacksFilters.toJson {node : Node} (h : node.LacksFilters) :
    node.toJson.lacksKey filtersKey = true := by
  induction h with
  | leaf h => exact h.toMap
  | logical _ hextra ih => exact lacksKey_toJson_logical (by decide) hextra ih

/-- A rule that is read from a value without filters has none. -/
theorem lacksFilters_of_ofJson {value : Json} {node : Node} (h : ofJson value = .ok node)
    (hvalue : value.lacksKey filtersKey = true) : node.LacksFilters := by
  refine readInduction
    (motive := fun value node => value.lacksKey filtersKey = true → node.LacksFilters)
    (fun _ hl hvalue => ?_) (fun _ hrules hchildren hvalue => ?_) h hvalue
  · exact .leaf (Leaf.lacksFilters_of_ofFields hl hvalue)
  · refine .logical (fun child hchild => ?_) ?_
    · obtain ⟨item, hitem, hlacks⟩ := exists_mem_of_forall₂ hchildren hchild
      have hitems := (Json.lacksKey_obj_iff.1 hvalue _ (SortedMap.mem_of_lookupEntry hrules)).2
      exact hlacks (Json.lacksKey_arr_iff.1 hitems item hitem)
    · exact Json.lacksKey_ofList hvalue fun f hf => List.mem_of_mem_filter hf

/-- What is left of a rule without filters has none. -/
theorem LacksFilters.remainder {node : Node} (h : node.LacksFilters) (minSize : Nat)
    (tag : String) : (node.remainder minSize tag).LacksFilters := by
  induction h generalizing tag with
  | leaf h =>
    rw [Node.remainder]
    split
    · exact .leaf h
    · exact .leaf (Leaf.lacksFilters_of_extra h.extra)
  | @logical mode children extra _ hextra ih =>
    rw [Node.remainder]
    split
    · exact .leaf (Leaf.lacksFilters_of_extra hextra)
    · refine .logical (fun rest hrest => ?_) hextra
      obtain ⟨child, hchild, _, below, rfl, _⟩ :=
        exists_mem_of_forall₂ (forall₂_remainders minSize tag 0 children) hrest
      exact ih child hchild below

/-- The parts of a rule without filters have none. -/
theorem LacksFilters.of_isPartOf {part node : Node} (h : node.LacksFilters)
    (hpart : part.IsPartOf node) : part.LacksFilters := by
  refine hpart.of_forall (fun l part hl hpart => ?_) (fun mode process other extra hl => ?_) h
  · cases hl with
    | leaf hl => exact .leaf (hl.parts hpart)
  · cases hl with
    | logical hchildren hextra =>
      have hprocess : LacksFilters (.leaf process) := hchildren _ (by simp)
      refine ⟨hprocess, hchildren _ (by simp), fun part hpart => .logical ?_ hextra⟩
      simp only [List.forall_mem_cons, List.not_mem_nil, false_implies, implies_true, and_true]
      exact ⟨hprocess, hpart⟩

end Node

/-- Grouped conditions make up a rule without filters. -/
theorem lacksFilters_of_group {conditions : List Condition} {included : List Kind} {mode : Mode}
    {grouped : Grouped} (h : group conditions included mode = .ok grouped) {node : Node}
    (hnode : grouped.node = some node) : node.LacksFilters := by
  have hside : ∀ isProcess,
      (Leaf.empty.pushAll (sideFields included isProcess conditions)).LacksFilters := by
    refine fun isProcess => Leaf.lacksFilters_pushAll (Json.lacksKey_obj_iff.2 fun f hf => ?_)
    obtain ⟨c, _, _, _, hfield⟩ := mem_sideFields.1 hf
    refine ⟨?_, Json.lacksKey_of_isPlain (Condition.isPlain_of_singBoxField hfield)⟩
    have hholds := holdsConditions_of_mem_keys _ (Condition.mem_keys_of_singBoxField hfield)
    rintro hkey
    have hnot : holdsConditions filtersKey = false := by decide +kernel
    rw [hkey, hnot] at hholds
    cases hholds
  rw [node_of_group h] at hnode
  refine of_joinLeaves hnode (.leaf (hside true)) (.leaf (hside false)) (.logical ?_ rfl)
  simp only [List.forall_mem_cons, List.not_mem_nil, false_implies, implies_true, and_true]
  exact ⟨.leaf (hside true), .leaf (hside false)⟩

namespace Rule

/-- The object of a rule without filters has none. -/
theorem lacksFilters_toJson {rule : Rule} (h : rule.node.LacksFilters) :
    rule.toJson.lacksKey filtersKey = true := by
  have hnode : (Json.ofMap rule.node.toMap).lacksKey filtersKey = true := h.toJson
  unfold toJson toMap
  split
  · exact Json.lacksKey_insert (Json.lacksKey_insert hnode (by decide) rfl) (by decide) rfl
  · exact Json.lacksKey_insert hnode (by decide) rfl

/-- A rule that is read from a value without filters has none. -/
theorem lacksFilters_of_ofJson {value : Json} {rule : Rule} (h : ofJson value = .ok rule)
    (hvalue : value.lacksKey filtersKey = true) : rule.node.LacksFilters := by
  obtain ⟨fields, rfl, _, hnode⟩ := ofJson_eq_ok_iff.1 h
  refine Node.lacksFilters_of_ofJson hnode (Json.lacksKey_obj_iff.2 fun f hf => ?_)
  exact Json.lacksKey_obj_iff.1 hvalue f (List.mem_of_mem_filter hf)

end Rule

/-! ## Expanded values -/

/-- A value is one that an object with filters may become, and no field that the object keeps has
others inside. -/
def Expansion.Clears {σ : Type} (x : Expansion σ) (fields : List (String × Json)) (value : Json) :
    Prop :=
  ∃ conditions grouped, x.FilledBy fields conditions grouped value ∧
    ∀ key old, otherField fields key = some old → writtenField grouped key = none →
      old.lacksKey filtersKey = true

/-- The fields that grouped conditions write have no filters. -/
theorem lacksKey_of_writtenField {conditions : List Condition} {included : List Kind} {mode : Mode}
    {grouped : Grouped} (h : group conditions included mode = .ok grouped) {key : String}
    {value : Json} (hvalue : writtenField grouped key = some value) :
    key ≠ filtersKey ∧ value.lacksKey filtersKey = true := by
  obtain ⟨node, hnode, hvalue⟩ := Option.bind_eq_some_iff.1 hvalue
  exact Json.lacksKey_ofMap_iff.1 (lacksFilters_of_group h hnode).toJson key value hvalue

section Expands

variable {σ : Type} {x : Expansion σ} {fields : List (String × Json)} {before after : Json}

/-- An object with filters becomes a value without them when no field that it keeps has others
inside. -/
theorem Expansion.Fills.lacksKey_iff (h : x.Fills fields after) :
    after.lacksKey filtersKey = true ↔ x.Clears fields after := by
  constructor
  · intro hlacks
    obtain ⟨conditions, grouped, hfilled⟩ := h
    refine ⟨conditions, grouped, hfilled, fun key old hold hnone => ?_⟩
    obtain ⟨_, _, rfl⟩ := hfilled
    have hfield := field?_withGroup fields grouped key
    rw [hnone, hold] at hfield
    exact (Json.lacksKey_ofMap_iff.1 hlacks key old hfield).2
  · rintro ⟨conditions, grouped, ⟨_, hgrouped, rfl⟩, hkept⟩
    refine Json.lacksKey_ofMap_iff.2 fun key value hvalue => ?_
    have hfield := (field?_withGroup fields grouped key).symm.trans hvalue
    cases hwritten : writtenField grouped key with
    | some written =>
      rw [hwritten] at hfield
      obtain rfl := Option.some.inj hfield
      exact lacksKey_of_writtenField hgrouped hwritten
    | none =>
      rw [hwritten, Option.none_or] at hfield
      refine ⟨?_, hkept key value hfield hwritten⟩
      rintro rfl
      rw [otherField, if_pos rfl] at hfield
      cases hfield

/-- An expanded value has no filters when no object with filters keeps a field with others
inside. -/
theorem Expands.lacksKey_iff (h : Expands x.Fills before after) :
    after.lacksKey filtersKey = true ↔ Expands x.Clears before after := by
  induction before using Json.valueInduction generalizing after with
  | obj fields ih =>
    cases h with
    | filters hfilters hfills =>
      rw [hfills.lacksKey_iff, Expands.filters_iff hfilters]
    | @fields _ values hnone hkeys hvalues =>
      have hkept : ∀ f ∈ values, f.1 ≠ filtersKey := by
        refine fun f hf => ?_
        obtain ⟨e, he, hkey⟩ := List.mem_map.1 (hkeys ▸ List.mem_map_of_mem (f := Prod.fst) hf)
        exact hkey ▸ SortedMap.lookupEntry_eq_none_iff.1 hnone e he
      have hlacks : (Json.obj values).lacksKey filtersKey = true ↔
          ∀ value ∈ values.map Prod.snd, value.lacksKey filtersKey = true := by
        rw [Json.lacksKey_obj_iff, List.forall_mem_map]
        exact ⟨fun h f hf => (h f hf).2, fun h f hf => ⟨hkept f hf, h f hf⟩⟩
      rw [hlacks, forall_mem_iff_forall₂ hvalues (List.forall_mem_map.2 fun f hf _ => ih f hf),
        Expands.fields_iff hnone, and_iff_right hkeys]
    | plain _ hfields => cases hfields
  | arr items ih =>
    cases h with
    | items hvalues =>
      rw [Json.lacksKey_arr_iff, forall_mem_iff_forall₂ hvalues fun item hitem _ => ih item hitem,
        Expands.items_iff]
    | plain hitems _ => cases hitems
  | _ =>
    cases h
    exact ⟨fun _ => .plain rfl rfl, fun _ => rfl⟩

end Expands

/-! ## Configurations -/

namespace Generator

variable {σ : Type} {g : Generator σ} {rules : List RouteRule} {template : Json} {d : Draft}
  {before after : World σ}

/-- The rules of routing rules have no filters. -/
theorem Drafts.lacksFilters_made (h : g.Drafts rules template d) :
    ∀ rule ∈ d.routes.made, rule.node.LacksFilters := by
  intro rule hrule
  obtain ⟨_, _, ⟨_, grouped, node, hgrouped, hnode, hpart⟩, _⟩ := h.exists_madeOf hrule
  exact (lacksFilters_of_group hgrouped hnode).of_isPartOf hpart

/-- Compiling rule sets adds no filters to the rules. -/
theorem Drafts.lacksKey_of_compileRoutes (h : g.Drafts rules template d) {routes : Routes}
    (hroutes : (g.compileRoutes d.routes).Yields before routes after)
    (htemplate : ∀ rule ∈ d.routes.template, rule.lacksKey filtersKey = true) :
    ∀ rule ∈ routes.template ++ routes.made.map Rule.toJson, rule.lacksKey filtersKey = true :=
  forall_mem_of_compileRoutes (q := fun rule => rule.node.LacksFilters) hroutes
    (fun _ _ hread hvalue => Rule.lacksFilters_of_ofJson hread hvalue)
    (fun _ tag hrule => hrule.remainder _ tag)
    (fun _ hrule => Rule.lacksFilters_toJson hrule)
    htemplate h.lacksFilters_made

end Generator

/-- The section for name queries has no filters exactly when none of its objects with filters keeps
a field with others inside.  The same holds of the rules of the template after expansion, and if
these have no filters, no rule of the configuration has any.  Without a compiler the converse holds
too; a compiler may move fields with filters into rule sets. -/
theorem generate_lacksFilters_iff {σ : Type} {g : Generator σ} {rules : List RouteRule}
    {template : Json} {before after : World σ} {made : Document}
    (h : (g.generate rules template).Yields before made after) :
    ((∀ dns ∈ (sectionsOf made.content).get? "dns", dns.lacksKey filtersKey = true) ↔
      Option.Rel (Expands (g.expansion true).Clears) ((sectionsOf template).get? "dns")
        ((sectionsOf made.content).get? "dns")) ∧
    ∃ d between, (g.draft rules template).Yields before d between ∧
      ((∀ rule ∈ d.routes.template, rule.lacksKey filtersKey = true) ↔
        List.Forall₂ (Expands (g.expansion false).Clears) (routeRulesOf template)
          d.routes.template) ∧
      ((∀ rule ∈ d.routes.template, rule.lacksKey filtersKey = true) →
        ∀ rule ∈ routeRulesOf made.content, rule.lacksKey filtersKey = true) ∧
      (g.compiler = none →
        (∀ rule ∈ routeRulesOf made.content, rule.lacksKey filtersKey = true) →
          ∀ rule ∈ d.routes.template, rule.lacksKey filtersKey = true) := by
  obtain ⟨d, between, hdraft, hcomplete⟩ := Generator.exists_draft_of_yields h
  have hdrafts := Generator.drafts_of_yields hdraft
  obtain ⟨routes, _, hroutes, rfl⟩ := Generator.eq_of_complete hcomplete
  rw [routeRulesOf_configuration]
  refine ⟨?_, d, between, hdraft, ?_, hdrafts.lacksKey_of_compileRoutes hroutes, ?_⟩
  · rw [sectionsOf_configuration, SortedMap.get?_insert, if_neg (by decide)]
    have hdns := hdrafts.dns
    generalize (sectionsOf template).get? "dns" = old, d.document.get? "dns" = new at hdns ⊢
    cases hdns with
    | none => simp
    | some hexpands => simp [hexpands.lacksKey_iff]
  · exact forall_mem_iff_forall₂ hdrafts.templateRules fun _ _ _ hexpands => hexpands.lacksKey_iff
  · intro hcompiler hall rule hrule
    obtain rfl := Generator.eq_of_compileRoutes hcompiler hroutes
    exact hall rule (List.mem_append_left _ hrule)

/-- The expanded section for name queries of the template, without the condition on a process. -/
def expandedQueries : Json :=
  .obj [("rules", .arr [.obj [("domain", .arr [.str "a.com"]), ("server", .str "local")]])]

theorem generate_lacksFilters_iff_filteredTemplate :
    ∃ made after, (plainGenerator.generate [] filteredTemplate).Yields emptyWorld made after ∧
      (sectionsOf made.content).get? "dns" = some expandedQueries ∧
      Option.Rel (Expands (plainGenerator.expansion true).Clears)
        ((sectionsOf filteredTemplate).get? "dns") (some expandedQueries) ∧
      routeRulesOf made.content = [expandedRule] ∧
      (plainGenerator.expansion false).Clears filteredFields expandedRule := by
  obtain ⟨made, after, hmade, hcheck⟩ := Task.exists_of_succeedsWith (show
    (plainGenerator.generate [] filteredTemplate).succeedsWith emptyWorld (fun made =>
      (sectionsOf made.content).get? "dns" = some expandedQueries &&
        routeRulesOf made.content = [expandedRule]) = true by decide +kernel)
  obtain ⟨hqueries, hrules⟩ := Bool.and_eq_true_iff.1 hcheck
  rw [decide_eq_true_eq] at hqueries hrules
  obtain ⟨_, _, hdraft', hexpanded⟩ := Task.exists_of_succeedsWith (show
    (plainGenerator.draft [] filteredTemplate).succeedsWith emptyWorld (fun d =>
      d.routes.template = [expandedRule]) = true by decide +kernel)
  obtain ⟨hdns, d, _, hdraft, htemplate, _, hback⟩ := generate_lacksFilters_iff hmade
  obtain ⟨rfl, rfl⟩ := hdraft.unique hdraft'
  have hlacks : ∀ rule ∈ routeRulesOf made.content, rule.lacksKey filtersKey = true := by
    rw [hrules]
    exact List.forall_mem_singleton.2 (by decide +kernel)
  have hclears := htemplate.1 (hback rfl hlacks)
  have hfiltered : routeRulesOf filteredTemplate = [.obj filteredFields] := by decide +kernel
  rw [hfiltered, of_decide_eq_true hexpanded] at hclears
  refine ⟨made, after, hmade, hqueries, hqueries ▸ hdns.1 ?_, hrules, ?_⟩
  · rw [hqueries]
    intro dns hmem
    obtain rfl := Option.mem_some_iff.1 hmem
    decide +kernel
  · exact (Expands.filters_iff rfl).1 (List.forall₂_cons.1 hclears).1

/-- A template with a logical rule that has filters beside a child with filters. -/
def nestedTemplate : Json :=
  .obj [("route", .obj [("final", .str "PROXY"), ("rules", .arr
    [.obj [("filters", .arr [.str "DOMAIN,a.com"]), ("mode", .str "or"),
      ("outbound", .str "DIRECT"), ("rules", .arr [.obj [("filters", .arr [.str "DOMAIN,b.com"])]]),
      ("type", .str "logical")]])])]

/-- The filters of the child are left over. -/
theorem generate_nestedTemplate_keeps_filters :
    ∃ made after rule, (plainGenerator.generate [] nestedTemplate).Yields emptyWorld made after ∧
      rule ∈ routeRulesOf made.content ∧
      (rule.field? "rules").bind Json.toItems? =
        some [.obj [("filters", .arr [.str "DOMAIN,b.com"])]] ∧
      rule.lacksKey filtersKey = false := by
  obtain ⟨made, after, hmade, hrules⟩ := Task.exists_of_succeedsWith (show
    (plainGenerator.generate [] nestedTemplate).succeedsWith emptyWorld (fun made =>
      routeRulesOf made.content = [.obj
        [("domain", .arr [.str "a.com"]), ("mode", .str "or"), ("outbound", .str "DIRECT"),
          ("rules", .arr [.obj [("filters", .arr [.str "DOMAIN,b.com"])]]),
          ("type", .str "logical")]]) = true by decide +kernel)
  rw [decide_eq_true_eq] at hrules
  exact ⟨made, after, _, hmade, hrules ▸ List.mem_singleton_self _, by rfl, by decide +kernel⟩

end SingBox

end RoutingRules
