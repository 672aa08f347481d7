import RoutingRules.Proofs.SingBox.ConditionsMoved

/-!
# Tags of the rule sets of a configuration

A configuration lists the rule sets of its template and, behind them, one for each rule set that was
compiled.  The tags of the new ones are made from the names of actions and the places of rules, and
extraction refuses to use one of them twice.  It does not look at the rule sets of the template, so
a reference can still mean two rule sets: a new one and one of the template.

Main results:

- Theorem {lit}`Generator.routeSetsOf_of_generate`: which rule sets a configuration lists.
- Theorem {lit}`Generator.nodup_tags_of_generate`: the new ones have distinct tags.
- Theorem {lit}`generate_tags_nodup_iff`: when all tags of a configuration are distinct.
-/

namespace RoutingRules.SingBox

variable {σ : Type} {before after : World σ}

/-! ## Lists of rule sets -/

section Configuration

variable (document route : SortedMap Json) (rules : List Json)

/-- The routing section of a document is the one that was put there. -/
theorem routeOf_insert : routeOf (.ofMap (document.insert "route" (.ofMap route))) = route := by
  have hsections : sectionsOf (.ofMap (document.insert "route" (.ofMap route))) =
      document.insert "route" (.ofMap route) := SortedMap.ofList_entries _
  rw [routeOf, hsections, readRoute, SortedMap.get?_insert, if_pos rfl]
  exact SortedMap.ofList_entries _

/-- The rule sets of a configuration are those that it was made with. -/
theorem routeSetsOf_configuration :
    routeSetsOf (configuration document route rules) = (readRuleSets route).toOption.getD [] := by
  have hsets : (withFinal (route.insert "rules" (.arr rules))).get? referencesKey =
      route.get? referencesKey := by
    rw [withFinal, SortedMap.get?_insert, if_neg (by decide), SortedMap.get?_insert,
      if_neg (by decide)]
  rw [routeSetsOf, configuration, routeOf_insert, readRuleSets, hsets]
  rfl

end Configuration

namespace Generator

variable {g : Generator σ} {rules : List RouteRule} {template : Json} {made : Document}

/-- A configuration lists the rule sets of its template and, behind them, those that were
compiled. -/
theorem routeSetsOf_of_generate (h : (g.generate rules template).Yields before made after) :
    routeSetsOf made.content =
      routeSetsOf template ++ made.artifacts.map fun a => a.descriptor.toJson := by
  obtain ⟨d, _, routes, _, _, hdraft, hroutes, rfl⟩ := exists_routes_of_yields h
  have hdrafts := drafts_of_yields hdraft
  rw [routeSetsOf_configuration, routeSetsOf, ← hdrafts.route]
  rcases compileRoutes_cases hroutes with ⟨_, rfl⟩ | ⟨compiler, _, hcompile⟩
  · rw [hdrafts.artifacts, List.map_nil, List.append_nil]
  · obtain ⟨_, artifacts, _, _, rfl⟩ := Routes.eq_of_compile hcompile
    rw [readRuleSets, SortedMap.get?_insert, if_pos rfl]
    rfl

/-- The rule sets that were compiled have distinct tags, and the compiler describes each of them. -/
theorem nodup_tags_of_generate (h : (g.generate rules template).Yields before made after) :
    (made.artifacts.map fun a => a.descriptor.tag).Nodup ∧
      ∀ a ∈ made.artifacts, ∃ compiler, g.compiler = some compiler ∧
        a.descriptor = compiler.descriptor a.descriptor.tag := by
  obtain ⟨d, _, routes, _, _, hdraft, hroutes, rfl⟩ := exists_routes_of_yields h
  have hdrafts := drafts_of_yields hdraft
  rcases compileRoutes_cases hroutes with ⟨_, rfl⟩ | ⟨compiler, hcompiler, hcompile⟩
  · rw [hdrafts.artifacts]
    exact ⟨List.nodup_nil, nofun⟩
  · obtain ⟨extraction, artifacts, hextract, hdescriptors, rfl⟩ := Routes.eq_of_compile hcompile
    have htags : (artifacts.map fun a => a.descriptor.tag) = extraction.sets.map RuleSet.tag := by
      have htags := congrArg (List.map Descriptor.tag) hdescriptors
      rwa [List.map_map, List.map_map] at htags
    obtain ⟨hnodup, hsets⟩ := extract_eq_ok_iff.1 hextract
    refine ⟨?_, fun a ha => ⟨compiler, hcompiler, ?_⟩⟩
    · rw [htags, hsets]
      exact hnodup
    · have hmem : a.descriptor ∈ artifacts.map Artifact.descriptor := List.mem_map_of_mem ha
      rw [hdescriptors] at hmem
      obtain ⟨set, _, hset⟩ := List.mem_map.1 hmem
      rw [← hset]
      rfl

end Generator

/-! ## Tags -/

/-- The tag of a rule set of a configuration. -/
def setTag (set : Json) : Option String :=
  (set.field? "tag").bind Json.toText?

/-- The tags of the rule sets of a template or a configuration. -/
def setTagsOf (content : Json) : List String :=
  (routeSetsOf content).filterMap setTag

/-- A descriptor has its tag as a field. -/
theorem setTag_toJson (d : Descriptor) : setTag d.toJson = some d.tag := by
  obtain ⟨tag, url, detour⟩ := d
  have hget : (Descriptor.toJson ⟨tag, url, detour⟩).field? "tag" = some (.str tag) := by
    show SortedMap.get? (.ofList _) "tag" = _
    cases detour <;> simp [SortedMap.ofList, SortedMap.insertAll, SortedMap.get?_insert]
  rw [setTag, hget]
  rfl

namespace Generator

variable {g : Generator σ} {rules : List RouteRule} {template : Json} {made : Document}

/-- The tags of a configuration are those of its template and, behind them, those of the rule sets
that were compiled. -/
theorem setTagsOf_of_generate (h : (g.generate rules template).Yields before made after) :
    setTagsOf made.content =
      setTagsOf template ++ made.artifacts.map fun a => a.descriptor.tag := by
  rw [setTagsOf, routeSetsOf_of_generate h, List.filterMap_append, List.filterMap_map]
  have htags : (fun a : Artifact => setTag a.descriptor.toJson) = fun a => some a.descriptor.tag :=
    funext fun a => setTag_toJson a.descriptor
  show _ ++ made.artifacts.filterMap (fun a => setTag a.descriptor.toJson) = _
  rw [htags, List.filterMap_eq_map']
  rfl

end Generator

/-- The rule sets of a configuration have distinct tags exactly when those of the template do and
none of them is the tag of a rule set that was compiled.  Each of the latter tags stands for one
rule set more than in the template. -/
theorem generate_tags_nodup_iff {g : Generator σ} {rules : List RouteRule} {template : Json}
    {made : Document} (h : (g.generate rules template).Yields before made after) :
    ((setTagsOf made.content).Nodup ↔ (setTagsOf template).Nodup ∧
      ∀ a ∈ made.artifacts, a.descriptor.tag ∉ setTagsOf template) ∧
    ∀ a ∈ made.artifacts, (setTagsOf made.content).count a.descriptor.tag =
      (setTagsOf template).count a.descriptor.tag + 1 := by
  have hnodup := (Generator.nodup_tags_of_generate h).1
  rw [Generator.setTagsOf_of_generate h]
  refine ⟨?_, fun a ha => ?_⟩
  · rw [List.nodup_append']
    constructor
    · rintro ⟨htemplate, _, hdisjoint⟩
      exact ⟨htemplate, fun a ha hmem => hdisjoint hmem (List.mem_map_of_mem ha)⟩
    · rintro ⟨htemplate, hfresh⟩
      refine ⟨htemplate, hnodup, fun tag htag hmade => ?_⟩
      obtain ⟨a, ha, rfl⟩ := List.mem_map.1 hmade
      exact hfresh a ha htag
  · have hmem : a.descriptor.tag ∈ made.artifacts.map fun a => a.descriptor.tag :=
      List.mem_map_of_mem ha
    rw [List.count_append, List.count_eq_one_of_mem hnodup hmem]

/-- A generator that compiles rule sets. -/
def compilingGenerator : Generator Unit :=
  { sampleGenerator with compiler := some sampleCompiler }

theorem generate_tags_nodup_iff_sampleTemplate :
    ∃ made after,
      (compilingGenerator.generate [sampleRouteRule] sampleTemplate).Yields sampleWorld made
        after ∧
      setTagsOf sampleTemplate = ["geo"] ∧ made.artifacts.length = 3 ∧
      (setTagsOf made.content).Nodup ∧
      ∀ a ∈ made.artifacts, (setTagsOf made.content).count a.descriptor.tag = 1 := by
  obtain ⟨made, after, hmade, hcheck⟩ := Task.exists_of_succeedsWith (show
    (compilingGenerator.generate [sampleRouteRule] sampleTemplate).succeedsWith sampleWorld
      (fun made => made.artifacts.length = 3 &&
        made.artifacts.all fun a => a.descriptor.tag ≠ "geo") = true by decide +kernel)
  simp only [Bool.and_eq_true, List.all_eq_true, decide_eq_true_eq] at hcheck
  obtain ⟨hlength, hfresh⟩ := hcheck
  have htags : setTagsOf sampleTemplate = ["geo"] := by decide +kernel
  obtain ⟨hnodup, hcount⟩ := generate_tags_nodup_iff hmade
  simp only [htags, List.mem_singleton] at hnodup hcount
  refine ⟨made, after, hmade, htags, hlength, hnodup.2 ⟨List.nodup_singleton _, hfresh⟩, ?_⟩
  intro a ha
  rw [hcount a ha, List.count_eq_zero.2 (by simpa using hfresh a ha)]

/-- A template with a rule set whose tag is the one of the first rule set for the standard proxy. -/
def taggedTemplate : Json :=
  .obj [("route", .obj [("rule_set", .arr [.obj [("tag", .str "proxy-0")]])])]

/-- The tags of the template are distinct, but a rule refers to a tag that two rule sets have. -/
theorem generate_taggedTemplate_repeats_tag :
    ∃ made after,
      (compilingGenerator.generate [sampleRouteRule] taggedTemplate).Yields sampleWorld made
        after ∧
      (setTagsOf taggedTemplate).Nodup ∧
      (readableRules (routeRulesOf made.content)).map (fun rule => rule.node.references) =
        [["proxy-0"]] ∧
      setTagsOf made.content = ["proxy-0", "proxy-0"] := by
  obtain ⟨made, after, hmade, hcheck⟩ := Task.exists_of_succeedsWith (show
    (compilingGenerator.generate [sampleRouteRule] taggedTemplate).succeedsWith sampleWorld
      (fun made =>
        (readableRules (routeRulesOf made.content)).map (fun rule => rule.node.references) =
          [["proxy-0"]] && setTagsOf made.content = ["proxy-0", "proxy-0"]) = true by
            decide +kernel)
  rw [Bool.and_eq_true, decide_eq_true_eq, decide_eq_true_eq] at hcheck
  exact ⟨made, after, hmade, by decide +kernel, hcheck⟩

end RoutingRules.SingBox
