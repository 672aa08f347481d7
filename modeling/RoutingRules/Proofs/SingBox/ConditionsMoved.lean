import RoutingRules.Proofs.SingBox.Draft
import RoutingRules.Proofs.SingBox.ExtractionLossless

/-!
# Configurations with and without rule sets

Compiling rule sets moves conditions out of a configuration.  This module compares what is made
from one template and one list of routing rules with and without a compiler.

Rules of a template that cannot be read stay where they are, and the others are extracted together
with the rules made from the routing rules.  What is left of them returns to the positions that
they were read from, so every rule of the one configuration stands where it stands in the other.

Main results:

- Theorem {lit}`Node.IsPlaced.remainder`: what is left of a rule is read back, unless a logical
  rule has conditions beside its children.
- Theorem {lit}`putBack_of_forall₂`: extracted rules return to where they were read.
- Theorem {lit}`Generator.Drafts.putBack_of_extract`: so does what is left of the rules of a draft.
- Theorem {lit}`forall₂_of_compileRoutes`: what the rules of a configuration come from.
- Theorem {lit}`forall_mem_of_compileRoutes`: what all of them have when the rules that they come
  from have it.
- Theorem {lit}`generate_moves_conditions`: a comparison of the two configurations.
-/

namespace RoutingRules.SingBox

variable {σ : Type}

/-! ## What is left of a rule is read back -/

namespace Node

mutual

/-- Whether no logical rule in a rule has conditions or references beside its children. -/
def hasPlainLogicals : Node → Bool
  | leaf _ => true
  | logical _ children extra =>
    allHavePlainLogicals children && extra.entries.all fun e => isExtraKey e.1

/-- Whether none of several rules has such a logical rule in it. -/
def allHavePlainLogicals : List Node → Bool
  | [] => true
  | node :: nodes => hasPlainLogicals node && allHavePlainLogicals nodes

end

theorem allHavePlainLogicals_iff {nodes : List Node} :
    allHavePlainLogicals nodes = true ↔ ∀ node ∈ nodes, node.hasPlainLogicals = true := by
  induction nodes with
  | nil => simp [allHavePlainLogicals]
  | cons node nodes ih => rw [allHavePlainLogicals, Bool.and_eq_true, ih, List.forall_mem_cons]

/-- The other fields of a plain logical rule are such that a leaf keeps them as they are. -/
theorem hasPlainLogicals_logical {mode : Mode} {children : List Node} {extra : SortedMap Json} :
    (logical mode children extra).hasPlainLogicals = true ↔
      (∀ child ∈ children, child.hasPlainLogicals = true) ∧
        ∀ key, isExtraKey key = false → extra.get? key = none := by
  rw [hasPlainLogicals, Bool.and_eq_true, allHavePlainLogicals_iff, List.all_eq_true]
  refine and_congr_right fun _ => ⟨fun h key hkey => ?_, fun h e he => ?_⟩
  · cases hvalue : extra.get? key with
    | none => rfl
    | some value =>
      rw [h _ (SortedMap.mem_entries_iff.2 hvalue)] at hkey
      cases hkey
  · cases hkey : isExtraKey e.1 with
    | true => rfl
    | false =>
      have hvalue := SortedMap.mem_entries_iff.1 he
      rw [h _ hkey] at hvalue
      cases hvalue

/-- A rule of conditions only has no conditions beside children. -/
theorem OnlyConditions.hasPlainLogicals {node : Node} (h : node.OnlyConditions) :
    node.hasPlainLogicals = true := by
  induction h with
  | leaf => rfl
  | logical _ ih => exact hasPlainLogicals_logical.2 ⟨ih, fun _ _ => SortedMap.get?_empty _⟩

/-- What is left of a rule has the other fields of the rule. -/
theorem extra_remainder (minSize : Nat) (tag : String) (node : Node) :
    (node.remainder minSize tag).extra = node.extra := by
  cases node with
  | leaf l =>
    rw [remainder]
    split <;> rfl
  | logical mode children extra =>
    rw [remainder]
    split <;> rfl

/-- A leaf of references and other fields has every field in its place. -/
theorem isPlaced_of_references {references : List String} {extra : SortedMap Json}
    (hextra : ∀ key, isExtraKey key = false → extra.get? key = none)
    (hplain : (extra.get? "type").bind Json.toText? ≠ some logicalType) :
    (leaf ⟨.empty, references, extra⟩).IsPlaced :=
  .leaf ⟨fun _ _ => SortedMap.get?_empty _, hextra, hplain⟩

/-- What is left of a rule has every field in its place. -/
theorem IsPlaced.remainder {node : Node} (h : node.IsPlaced)
    (hplain : node.hasPlainLogicals = true) (minSize : Nat) (tag : String) :
    (node.remainder minSize tag).IsPlaced := by
  induction h generalizing tag with
  | @leaf l h =>
    rw [Node.remainder]
    split
    next => exact .leaf h
    next => exact isPlaced_of_references h.extra h.notLogical
  | @logical mode children extra hchildren hextra ih =>
    obtain ⟨hplain, hkeys⟩ := hasPlainLogicals_logical.1 hplain
    rw [Node.remainder]
    split
    next =>
      refine isPlaced_of_references hkeys ?_
      simp [hextra "type" (by simp [logicalKeys])]
    next =>
      refine .logical (fun rest hrest => ?_) hextra
      obtain ⟨child, hchild, _, below, rfl, _⟩ :=
        exists_mem_of_forall₂ (forall₂_remainders minSize tag 0 children) hrest
      exact ih child hchild (hplain child hchild) below

end Node

/-! ## Rules and their positions -/

/-- The rules that can be read among some values. -/
def readableRules (values : List Json) : List Rule :=
  values.filterMap fun value => (Rule.ofJson value).toOption

theorem readableRules_append (values others : List Json) :
    readableRules (values ++ others) = readableRules values ++ readableRules others :=
  List.filterMap_append

theorem readableRules_cons (value : Json) (values : List Json) :
    readableRules (value :: values) =
      (TemplateRule.ofJson value).rule.toList ++ readableRules values := by
  rw [readableRules, List.filterMap_cons, TemplateRule.ofJson]
  cases (Rule.ofJson value).toOption <;> rfl

theorem TemplateRule.ofJson_of_error {value : Json} {e : RuleError}
    (h : Rule.ofJson value = .error e) : TemplateRule.ofJson value = ⟨value, none⟩ := by
  rw [TemplateRule.ofJson, h]
  rfl

theorem TemplateRule.ofJson_of_ok {value : Json} {rule : Rule} (h : Rule.ofJson value = .ok rule) :
    TemplateRule.ofJson value = ⟨value, some rule⟩ := by
  rw [TemplateRule.ofJson, h]
  rfl

/-- Rules that are read back are the ones that can be read. -/
theorem readableRules_map_toJson {rules : List Rule} (h : ∀ rule ∈ rules, rule.IsPlaced) :
    readableRules (rules.map Rule.toJson) = rules := by
  induction rules with
  | nil => rfl
  | cons rule rules ih =>
    obtain ⟨hrule, hrules⟩ := List.forall_mem_cons.1 h
    rw [List.map_cons, readableRules_cons, TemplateRule.ofJson_of_ok (Rule.ofJson_toJson hrule),
      ih hrules]
    rfl

/-- The rules read from a template are those that can be read. -/
theorem filterMap_rule_ofJson (values : List Json) :
    (values.map TemplateRule.ofJson).filterMap TemplateRule.rule = readableRules values := by
  rw [List.filterMap_map]
  rfl

/-- Extracted rules return to where they were read, and the rules that are left over stay behind
them. -/
theorem putBack_of_forall₂ {r : Rule → Rule → Prop} {values : List Json}
    {extracted rest : List Rule} (h : List.Forall₂ r (readableRules values) extracted) :
    ∃ results, putBack (values.map TemplateRule.ofJson) (extracted ++ rest) = (results, rest) ∧
      List.Forall₂
        (fun value result => result = value ∨
          ∃ rule left, Rule.ofJson value = .ok rule ∧ r rule left ∧ result = left.toJson)
        values results := by
  induction values generalizing extracted with
  | nil =>
    cases h
    exact ⟨[], rfl, .nil⟩
  | cons value values ih =>
    cases hread : Rule.ofJson value with
    | error e =>
      have htemplate := TemplateRule.ofJson_of_error hread
      rw [readableRules_cons, htemplate] at h
      obtain ⟨results, hput, hresults⟩ := ih h
      refine ⟨value :: results, ?_, .cons (.inl rfl) hresults⟩
      rw [List.map_cons, htemplate, putBack, hput]
    | ok rule =>
      have htemplate := TemplateRule.ofJson_of_ok hread
      rw [readableRules_cons, htemplate] at h
      cases h with
      | @cons _ left _ extracted hleft h =>
        obtain ⟨results, hput, hresults⟩ := ih h
        refine ⟨(if left.node = rule.node then value else left.toJson) :: results, ?_,
          .cons ?_ hresults⟩
        · rw [List.map_cons, htemplate, List.cons_append, putBack, hput]
        · split
          next => exact .inl rfl
          next => exact .inr ⟨rule, left, hread, hleft, rfl⟩

/-- When rule sets are compiled, each rule of the template stays as it is or becomes what is left of
the rule that is read there, and each rule that was made becomes what is left of it or stays. -/
theorem forall₂_of_compileRoutes {g : Generator σ} {routes result : Routes}
    {before after : World σ} (h : (g.compileRoutes routes).Yields before result after) :
    List.Forall₂
      (fun old new => new = old ∨ ∃ rule tag, Rule.ofJson old = .ok rule ∧
        new = Rule.toJson ⟨rule.action, rule.node.remainder g.options.ruleSet.minSize tag⟩)
      routes.template result.template ∧
    List.Forall₂
      (fun rule rest => rest = rule ∨
        ∃ tag, rest = ⟨rule.action, rule.node.remainder g.options.ruleSet.minSize tag⟩)
      routes.made result.made := by
  rcases Generator.compileRoutes_cases h with ⟨_, rfl⟩ | ⟨compiler, _, hcompile⟩
  · exact ⟨List.forall₂_same.2 fun _ _ => .inl rfl, List.forall₂_same.2 fun _ _ => .inl rfl⟩
  · obtain ⟨extraction, artifacts, hextract, _, rfl⟩ := Routes.eq_of_compile hcompile
    rw [filterMap_rule_ofJson] at hextract
    obtain ⟨_, rfl⟩ := extract_eq_ok_iff.1 hextract
    obtain ⟨fromTemplate, left, hrules, hfromTemplate, hleft⟩ := exists_of_forall₂_append
      (forall₂_remainingRules g.options.ruleSet.minSize 0
        (readableRules routes.template ++ routes.made))
    obtain ⟨results, hput, hresults⟩ := @putBack_of_forall₂ _ _ _ left hfromTemplate
    simp only [hrules, hput]
    refine ⟨hresults.imp ?_, hleft.imp ?_⟩
    · rintro old new (rfl | ⟨rule, ⟨_, _⟩, hread, ⟨_, rfl, tag, rfl, _⟩, rfl⟩)
      · exact .inl rfl
      · exact .inr ⟨rule, tag, hread, rfl⟩
    · rintro rule ⟨_, _⟩ ⟨_, rfl, tag, rfl, _⟩
      exact .inr ⟨tag, rfl⟩

/-- After rule sets are compiled, all rules have what those of the template and those that were made
had, as long as reading, extraction and writing of a rule keep it. -/
theorem forall_mem_of_compileRoutes {g : Generator σ} {routes result : Routes}
    {before after : World σ} {p : Json → Prop} {q : Rule → Prop}
    (h : (g.compileRoutes routes).Yields before result after)
    (hread : ∀ value rule, Rule.ofJson value = .ok rule → p value → q rule)
    (hremainder : ∀ rule tag, q rule →
      q ⟨rule.action, rule.node.remainder g.options.ruleSet.minSize tag⟩)
    (hwritten : ∀ rule, q rule → p rule.toJson)
    (htemplate : ∀ value ∈ routes.template, p value) (hmade : ∀ rule ∈ routes.made, q rule) :
    ∀ value ∈ result.template ++ result.made.map Rule.toJson, p value := by
  obtain ⟨hold, hnew⟩ := forall₂_of_compileRoutes h
  intro value hvalue
  rcases List.mem_append.1 hvalue with hvalue | hvalue
  · obtain ⟨old, hmem, rfl | ⟨rule, tag, hrule, rfl⟩⟩ := exists_mem_of_forall₂ hold hvalue
    · exact htemplate _ hmem
    · exact hwritten _ (hremainder rule tag (hread old rule hrule (htemplate old hmem)))
  · obtain ⟨rest, hrest, rfl⟩ := List.mem_map.1 hvalue
    obtain ⟨rule, hmem, rfl | ⟨tag, rfl⟩⟩ := exists_mem_of_forall₂ hnew hrest
    · exact hwritten _ (hmade _ hmem)
    · exact hwritten _ (hremainder rule tag (hmade rule hmem))

/-! ## The two configurations -/

/-- What a rule of a configuration becomes when conditions are moved into rule sets: it stays the
same value, or it is read as the same rule once the references to the rule sets are replaced by
what they hold. -/
def KeepsRule (sets : List RuleSet) (plain moved : Json) : Prop :=
  moved = plain ∨ ∃ rule left, Rule.ofJson plain = .ok rule ∧ Rule.ofJson moved = .ok left ∧
    left.putBack sets = rule

/-- Two configurations that differ in their rules and rule sets only. -/
structure MovesConditions (g : Generator σ) (compiler : Compiler) (rules : List RouteRule)
    (template : Json) (sets : List RuleSet) (plain moved : Document) : Prop where
  /-- The rules correspond to each other one by one. -/
  keeps : List.Forall₂ (KeepsRule sets) (routeRulesOf plain.content) (routeRulesOf moved.content)
  /-- The rules of the template come first, expanded and in their positions. -/
  expanded : List.Forall₂ (Expands (g.expansion false).Fills) (routeRulesOf template)
    ((routeRulesOf plain.content).take (routeRulesOf template).length)
  /-- The rules made from the routing rules follow in order. -/
  made : ∃ (parts : List Routed) (left : List Rule), g.MakesParts template rules parts ∧
    (routeRulesOf plain.content).drop (routeRulesOf template).length =
      (arrange parts).1.map Rule.toJson ∧
    (routeRulesOf moved.content).drop (routeRulesOf template).length = left.map Rule.toJson ∧
    left.map (Rule.putBack sets) = (arrange parts).1
  /-- All other parts are the same, and the new rule sets are behind those of the template. -/
  content : ∃ document route,
    plain.content = configuration document route (routeRulesOf plain.content) ∧
    moved.content = configuration document
      (route.insert referencesKey (.arr
        (routeSetsOf template ++ sets.map fun set => (compiler.descriptor set.tag).toJson)))
      (routeRulesOf moved.content)
  artifacts : plain.artifacts = [] ∧ moved.artifacts.map Artifact.descriptor =
    sets.map fun set => compiler.descriptor set.tag
  unsupported : moved.unsupported = plain.unsupported

/-- The rules of a template in order are in order. -/
theorem isSorted_of_mem_routeRulesOf {template : Json} (h : template.isSorted = true) :
    ∀ rule ∈ routeRulesOf template, rule.isSorted = true := by
  have hnone : ∀ e ∈ (SortedMap.empty : SortedMap Json).entries, e.2.isSorted = true :=
    fun e he => absurd he List.not_mem_nil
  have hsections : ∀ e ∈ (sectionsOf template).entries, e.2.isSorted = true := by
    cases template with
    | obj fields =>
      exact fun e he => (Json.isSorted_obj_iff.1 h).2 e (SortedMap.mem_entries_ofList he)
    | _ => exact hnone
  have hroute : ∀ e ∈ (routeOf template).entries, e.2.isSorted = true := by
    rw [routeOf, readRoute]
    split
    next => exact hnone
    next fields hfields =>
      have hobj := hsections _ (SortedMap.mem_entries_iff.2 hfields)
      exact fun e he => (Json.isSorted_obj_iff.1 hobj).2 e (SortedMap.mem_entries_ofList he)
    next => exact hnone
  rw [routeRulesOf, readRules]
  split
  next => exact fun rule hrule => absurd hrule List.not_mem_nil
  next items hitems =>
    exact Json.isSorted_arr_iff.1 (hroute _ (SortedMap.mem_entries_iff.2 hitems))
  next => exact fun rule hrule => absurd hrule List.not_mem_nil

/-- What is left of extracted rules is read back, and putting the rule sets back gives the rules. -/
theorem forall₂_of_extract {minSize : Nat} {rules : List Rule} {extraction : Extraction}
    (h : extract minSize rules = .ok extraction)
    (hplaced : ∀ rule ∈ rules, rule.IsPlaced ∧ rule.node.hasPlainLogicals = true)
    (hfresh : ∀ set ∈ extraction.sets, ∀ rule ∈ rules, set.tag ∉ rule.node.references) :
    List.Forall₂ (fun rule left => left.IsPlaced ∧ left.putBack extraction.sets = rule)
      rules extraction.rules := by
  obtain ⟨hnodup, rfl⟩ := extract_eq_ok_iff.1 h
  refine (forall₂_remainingRules minSize 0 rules).imp ?_
  rintro rule left ⟨hrule, haction, tag, hleft, hsets⟩
  obtain ⟨hplace, hplain⟩ := hplaced rule hrule
  have hnode : left.node.putBack (ruleSetsOf minSize 0 rules) = rule.node := by
    rw [hleft]
    exact Node.putBack_remainder hnodup (fun set hset => hfresh set hset rule hrule) hsets
  refine ⟨⟨?_, ?_⟩, ?_⟩
  · rw [hleft]
    exact hplace.node.remainder hplain minSize tag
  · rw [hleft, Node.extra_remainder]
    exact hplace.action
  · rw [Rule.putBack, hnode, haction]

/-- What is left of the rules of a template returns to their positions, and what is left of the
others stays behind it. -/
theorem putBack_of_extract {minSize : Nat} {values : List Json} {made : List Rule}
    {extraction : Extraction} (h : extract minSize (readableRules values ++ made) = .ok extraction)
    (hplaced : ∀ rule ∈ readableRules values ++ made,
      rule.IsPlaced ∧ rule.node.hasPlainLogicals = true)
    (hfresh : ∀ set ∈ extraction.sets, ∀ rule ∈ readableRules values ++ made,
      set.tag ∉ rule.node.references) :
    ∃ results left, putBack (values.map TemplateRule.ofJson) extraction.rules = (results, left) ∧
      List.Forall₂ (KeepsRule extraction.sets) values results ∧
      List.Forall₂ (fun rule left => left.IsPlaced ∧ left.putBack extraction.sets = rule)
        made left := by
  obtain ⟨fromTemplate, left, hrules, hfromTemplate, hleft⟩ :=
    exists_of_forall₂_append (forall₂_of_extract h hplaced hfresh)
  obtain ⟨results, hput, hresults⟩ := putBack_of_forall₂ hfromTemplate
  refine ⟨results, left, by rw [hrules, hput], hresults.imp ?_, hleft⟩
  rintro value result (rfl | ⟨rule, left, hread, ⟨hplace, hback⟩, rfl⟩)
  · exact .inl rfl
  · exact .inr ⟨rule, left, hread, Rule.ofJson_toJson hplace, hback⟩

/-- Rules of conditions only have every field in its place. -/
theorem isPlaced_of_onlyConditions {rule : Rule} (h : rule.node.OnlyConditions) :
    rule.IsPlaced :=
  ⟨h.isPlaced, fun key _ => by rw [h.extra_eq, SortedMap.get?_empty]⟩

/-- Rules that can be read from values in order have every field in its place. -/
theorem isPlaced_of_mem_readableRules {values : List Json}
    (h : ∀ value ∈ values, value.isSorted = true) :
    ∀ rule ∈ readableRules values, rule.IsPlaced := by
  intro rule hrule
  obtain ⟨value, hvalue, hread⟩ := List.mem_filterMap.1 hrule
  cases hresult : Rule.ofJson value with
  | error e =>
    rw [hresult] at hread
    cases hread
  | ok other =>
    rw [hresult] at hread
    obtain rfl := Option.some.inj hread
    exact Rule.isPlaced_of_ofJson (h value hvalue) hresult

/-- Written rules are kept when what is left of them is. -/
theorem forall₂_keepsRule_toJson {sets : List RuleSet} {rules lefts : List Rule}
    (hrules : ∀ rule ∈ rules, rule.IsPlaced)
    (h : List.Forall₂ (fun rule left => left.IsPlaced ∧ left.putBack sets = rule) rules lefts) :
    List.Forall₂ (KeepsRule sets) (rules.map Rule.toJson) (lefts.map Rule.toJson) := by
  rw [List.forall₂_map_left_iff, List.forall₂_map_right_iff]
  refine forall₂_imp_of_mem h fun rule hrule left => ?_
  rintro ⟨hleft, hback⟩
  exact .inr ⟨rule, left, Rule.ofJson_toJson (hrules rule hrule), Rule.ofJson_toJson hleft, hback⟩

/-- The rules of a configuration that come from its template and can be read. -/
def templateRulesIn (template : Json) (made : Document) : List Rule :=
  readableRules ((routeRulesOf made.content).take (routeRulesOf template).length)

namespace Generator.Drafts

variable {g : Generator σ} {rules : List RouteRule} {template : Json} {d : Draft}

/-- The rules of routing rules are made of conditions only. -/
theorem onlyConditions (h : g.Drafts rules template d) :
    ∀ rule ∈ d.routes.made, rule.node.OnlyConditions := by
  intro rule hrule
  obtain ⟨_, _, ⟨_, grouped, node, hgrouped, hnode, hpart⟩, _⟩ := h.exists_madeOf hrule
  exact (onlyConditions_of_group hgrouped hnode).of_isPartOf hpart

/-- The rules of routing rules have every field in its place. -/
theorem isPlaced_made (h : g.Drafts rules template d) : ∀ rule ∈ d.routes.made, rule.IsPlaced :=
  fun rule hrule => isPlaced_of_onlyConditions (h.onlyConditions rule hrule)

/-- The rules of a template in order that can be read have every field in its place. -/
theorem isPlaced_template (h : g.Drafts rules template d) (hsorted : template.isSorted = true) :
    ∀ rule ∈ readableRules d.routes.template, rule.IsPlaced := by
  refine isPlaced_of_mem_readableRules fun value hvalue => ?_
  obtain ⟨rule, hrule, hexpands⟩ := exists_mem_of_forall₂ h.templateRules hvalue
  exact hexpands.isSorted (fun _ _ hs hfills => hfills.isSorted hs)
    (isSorted_of_mem_routeRulesOf hsorted rule hrule)

/-- What is left of the rules of a draft returns to where the rules were: only rules of the template
can have conditions beside children or refer to a new rule set. -/
theorem putBack_of_extract (h : g.Drafts rules template d) (hsorted : template.isSorted = true)
    (hlogical : ∀ rule ∈ readableRules d.routes.template, rule.node.hasPlainLogicals = true)
    {minSize : Nat} {extraction : Extraction}
    (hextract : extract minSize (readableRules d.routes.template ++ d.routes.made) = .ok extraction)
    (hfresh : ∀ set ∈ extraction.sets, ∀ rule ∈ readableRules d.routes.template,
      set.tag ∉ rule.node.references) :
    ∃ results left,
      putBack (d.routes.template.map TemplateRule.ofJson) extraction.rules = (results, left) ∧
      List.Forall₂ (KeepsRule extraction.sets) d.routes.template results ∧
      List.Forall₂ (fun rule left => left.IsPlaced ∧ left.putBack extraction.sets = rule)
        d.routes.made left := by
  refine SingBox.putBack_of_extract hextract (fun rule hrule => ?_) fun set hset rule hrule => ?_
  · rcases List.mem_append.1 hrule with htemplate | hmade
    · exact ⟨h.isPlaced_template hsorted rule htemplate, hlogical rule htemplate⟩
    · exact ⟨h.isPlaced_made rule hmade, (h.onlyConditions rule hmade).hasPlainLogicals⟩
  · rcases List.mem_append.1 hrule with htemplate | hmade
    · exact hfresh set hset rule htemplate
    · rw [(h.onlyConditions rule hmade).references_eq]
      exact List.not_mem_nil

/-- A draft completed with its own rules differs from one completed with what is left of them in
rules and rule sets only. -/
theorem movesConditions (h : g.Drafts rules template d) {compiler : Compiler}
    {sets : List RuleSet} {artifacts : List Artifact} {results : List Json} {left : List Rule}
    (hdescriptors : artifacts.map Artifact.descriptor =
      sets.map fun set => compiler.descriptor set.tag)
    (hresults : List.Forall₂ (KeepsRule sets) d.routes.template results)
    (hleft : List.Forall₂ (fun rule left => left.IsPlaced ∧ left.putBack sets = rule)
      d.routes.made left) :
    MovesConditions g compiler rules template sets
      ⟨configuration d.document d.routes.route
        (d.routes.template ++ d.routes.made.map Rule.toJson), d.routes.artifacts, d.unsupported⟩
      ⟨configuration d.document
        (d.routes.route.insert referencesKey (.arr
          ((readRuleSets d.routes.route).toOption.getD [] ++
            artifacts.map fun a => a.descriptor.toJson)))
        (results ++ left.map Rule.toJson), artifacts, d.unsupported⟩ := by
  obtain ⟨parts, hparts, hmade⟩ := h.made
  have hlength : d.routes.template.length = (routeRulesOf template).length :=
    h.templateRules.length_eq.symm
  have hresultsLength : d.routes.template.length = results.length := hresults.length_eq
  have hback : left.map (Rule.putBack sets) = d.routes.made := by
    rw [← List.forall₂_eq_eq_eq, List.forall₂_map_left_iff]
    exact (hleft.imp fun _ _ h => h.2).flip
  have hsets : (artifacts.map fun a => a.descriptor.toJson) =
      sets.map fun set => (compiler.descriptor set.tag).toJson := by
    have hjson := congrArg (List.map Descriptor.toJson) hdescriptors
    rwa [List.map_map, List.map_map] at hjson
  exact {
    keeps := by
      simp only [routeRulesOf_configuration]
      exact List.rel_append hresults (forall₂_keepsRule_toJson h.isPlaced_made hleft)
    expanded := by
      rw [routeRulesOf_configuration, ← hlength, List.take_left]
      exact h.templateRules
    made := by
      refine ⟨parts, left, hparts, ?_, ?_, hmade ▸ hback⟩
      · rw [routeRulesOf_configuration, ← hlength, List.drop_left, hmade]
      · rw [routeRulesOf_configuration, ← hlength, hresultsLength, List.drop_left]
    content := by
      refine ⟨d.document, d.routes.route, ?_, ?_⟩
      · rw [routeRulesOf_configuration]
      · rw [routeRulesOf_configuration, routeSetsOf, ← h.route, ← hsets]
    artifacts := ⟨h.artifacts, hdescriptors⟩
    unsupported := rfl }

end Generator.Drafts

/-- With a compiler the conditions of large rules are moved out of a configuration, and nothing else
changes: if both configurations can be made from one world, no rule of the template refers to a new
rule set and none has conditions beside the children of a logical rule, the rules correspond to
each other in their positions, and all other parts are the same. -/
theorem generate_moves_conditions {g : Generator σ} {compiler : Compiler}
    {rules : List RouteRule} {template : Json} {before afterPlain afterMoved : World σ}
    {plain moved : Document} (hsorted : template.isSorted = true)
    (hplain : (({ g with compiler := none } : Generator σ).generate rules template).Yields before
      plain afterPlain)
    (hmoved : (({ g with compiler := some compiler } : Generator σ).generate rules template).Yields
      before moved afterMoved)
    (hlogical : ∀ rule ∈ templateRulesIn template plain, rule.node.hasPlainLogicals = true) :
    ∃ extraction,
      extract g.options.ruleSet.minSize (readableRules (routeRulesOf plain.content)) =
        .ok extraction ∧
      ((∀ set ∈ extraction.sets, ∀ rule ∈ templateRulesIn template plain,
          set.tag ∉ rule.node.references) →
        MovesConditions g compiler rules template extraction.sets plain moved) := by
  obtain ⟨d, w, hdraft, hcomplete⟩ := Generator.exists_draft_of_yields hplain
  obtain ⟨other, w', hother, hcompleteMoved⟩ := Generator.exists_draft_of_yields hmoved
  rw [Generator.draft_withCompiler] at hdraft hother
  obtain ⟨rfl, rfl⟩ := hdraft.unique hother
  have hdrafts := Generator.drafts_of_yields hdraft
  obtain ⟨routes, _, hroutes, rfl⟩ := Generator.eq_of_complete hcomplete
  obtain rfl := Generator.eq_of_compileRoutes rfl hroutes
  obtain ⟨routes, _, hroutes, rfl⟩ := Generator.eq_of_complete hcompleteMoved
  obtain ⟨extraction, artifacts, hextract, hdescriptors, rfl⟩ := Routes.eq_of_compile hroutes
  rw [filterMap_rule_ofJson] at hextract
  -- The rules of the template and the rules that can be read are seen in the configuration.
  simp only [templateRulesIn, routeRulesOf_configuration, hdrafts.templateRules.length_eq,
    List.take_left, readableRules_append, readableRules_map_toJson hdrafts.isPlaced_made]
    at hlogical ⊢
  refine ⟨extraction, hextract, fun hfresh => ?_⟩
  obtain ⟨results, left, hput, hresults, hleft⟩ :=
    hdrafts.putBack_of_extract hsorted hlogical hextract hfresh
  simp only [hput]
  exact hdrafts.movesConditions hdescriptors hresults hleft

/-- A template with a rule that cannot be read, one with filters, one that refers to a rule set and a
logical one. -/
def sampleTemplate : Json :=
  .obj [("route", .obj
    [("final", .str "DIRECT"),
      ("rule_set", .arr [.obj [("tag", .str "geo")]]),
      ("rules", .arr
        [.obj [("action", .str "sniff")],
          .obj [("filters", .arr [.str "DOMAIN,a.com", .str "DOMAIN-SUFFIX,b.com"]),
            ("outbound", .str "DIRECT")],
          .obj [("action", .str "reject"), ("rule_set", .str "geo")],
          .obj [("action", .str "reject"), ("mode", .str "or"),
            ("rules", .arr
              [.obj [("domain", .arr [.str "c.com", .str "d.com"])],
                .obj [("port", .arr [.int 80, .int 443])]]),
            ("type", .str "logical")]])])]

/-- A routing rule on a domain and on addresses. -/
def sampleRouteRule : RouteRule :=
  ⟨.outbound "PROXY", [.on .domain "e.com" none, .on .ipCidr "10.0.0.0/8" (some false)]⟩

/-- A generator without a compiler that extracts leaves with two alternatives. -/
def sampleGenerator : Generator Unit :=
  { options := { Options.standard with ruleSet := { RuleSetOptions.standard with minSize := 2 } }
    destinations := .ofNames []
    remote := fun _ => .ofDocuments .empty
    compiler := none }

/-- A compiler that runs the tool with the standard name. -/
def sampleCompiler : Compiler :=
  ⟨RuleSetOptions.standard.binary, "/sets", "https://sets/", none⟩

/-- A tool that makes the same file of all documents. -/
def sampleTool : Files.Tool where
  version := ⟨0, "sing-box version 1.11.0", ""⟩
  compile _ := (⟨0, "", ""⟩, some (.binary [0, 1]))

/-- A world without files, on a machine with an installed tool. -/
def sampleWorld : World Unit where
  files :=
    { entries := []
      here := []
      installed := ⟨fun name => if name = "sing-box" then .ok sampleTool else .error .notFound⟩ }
  remote := ()
  notices := []

/-- Whether no rule of a template refers to one of the given rule sets. -/
def areUnused (sets : List RuleSet) (template : Json) (plain : Document) : Bool :=
  sets.all fun set => (templateRulesIn template plain).all fun rule => set.tag ∉ rule.node.references

theorem areUnused_iff {sets : List RuleSet} {template : Json} {plain : Document} :
    areUnused sets template plain = true ↔
      ∀ set ∈ sets, ∀ rule ∈ templateRulesIn template plain, set.tag ∉ rule.node.references := by
  simp only [areUnused, List.all_eq_true, decide_eq_true_eq]

theorem generate_moves_conditions_sampleTemplate :
    ∃ plain moved afterPlain afterMoved extraction,
      sampleTemplate.isSorted = true ∧
      (({ sampleGenerator with compiler := none } : Generator Unit).generate [sampleRouteRule]
        sampleTemplate).Yields sampleWorld plain afterPlain ∧
      (({ sampleGenerator with compiler := some sampleCompiler } : Generator Unit).generate
        [sampleRouteRule] sampleTemplate).Yields sampleWorld moved afterMoved ∧
      (∀ rule ∈ templateRulesIn sampleTemplate plain, rule.node.hasPlainLogicals = true) ∧
      extract 2 (readableRules (routeRulesOf plain.content)) = .ok extraction ∧
      (∀ set ∈ extraction.sets, ∀ rule ∈ templateRulesIn sampleTemplate plain,
        set.tag ∉ rule.node.references) ∧
      MovesConditions sampleGenerator sampleCompiler [sampleRouteRule] sampleTemplate
        extraction.sets plain moved ∧
      (moved.artifacts.map fun a => a.descriptor.tag) = ["direct-0", "reject-2", "proxy-3"] ∧
      (readableRules (routeRulesOf moved.content)).map (fun rule => rule.node.references) =
        [["direct-0"], ["geo"], ["reject-2"], ["proxy-3"]] := by
  have hsorted : sampleTemplate.isSorted = true := by decide +kernel
  obtain ⟨plain, afterPlain, hplain, hcheck⟩ := Task.exists_of_succeedsWith (show
    (({ sampleGenerator with compiler := none } : Generator Unit).generate [sampleRouteRule]
      sampleTemplate).succeedsWith sampleWorld (fun plain =>
        (templateRulesIn sampleTemplate plain).all (·.node.hasPlainLogicals) &&
          match extract 2 (readableRules (routeRulesOf plain.content)) with
          | .ok extraction =>
            extraction.sets.map RuleSet.tag = ["direct-0", "reject-2", "proxy-3"] &&
              areUnused extraction.sets sampleTemplate plain
          | .error _ => false) = true by decide +kernel)
  obtain ⟨moved, afterMoved, hmoved, hreferences⟩ := Task.exists_of_succeedsWith (show
    (({ sampleGenerator with compiler := some sampleCompiler } : Generator Unit).generate
      [sampleRouteRule] sampleTemplate).succeedsWith sampleWorld (fun moved =>
        (readableRules (routeRulesOf moved.content)).map (fun rule => rule.node.references) =
          [["direct-0"], ["geo"], ["reject-2"], ["proxy-3"]]) = true by decide +kernel)
  obtain ⟨hlogical, hcheck⟩ := Bool.and_eq_true_iff.1 hcheck
  rw [List.all_eq_true] at hlogical
  obtain ⟨extraction, hextract, hmoves⟩ :=
    generate_moves_conditions hsorted hplain hmoved hlogical
  have hextract : extract 2 (readableRules (routeRulesOf plain.content)) = .ok extraction := hextract
  rw [hextract] at hcheck
  obtain ⟨htags, hunused⟩ := Bool.and_eq_true_iff.1 hcheck
  have hmoved' := hmoves (areUnused_iff.1 hunused)
  refine ⟨plain, moved, afterPlain, afterMoved, extraction, hsorted, hplain, hmoved, hlogical,
    hextract, areUnused_iff.1 hunused, hmoved', ?_, of_decide_eq_true hreferences⟩
  have hdescriptors := congrArg (List.map Descriptor.tag) hmoved'.artifacts.2
  rw [List.map_map, List.map_map] at hdescriptors
  exact hdescriptors.trans (of_decide_eq_true htags)

end RoutingRules.SingBox
