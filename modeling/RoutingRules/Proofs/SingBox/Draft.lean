import RoutingRules.Proofs.SingBox.Expansion
import RoutingRules.SingBox.Document

/-!
# Configurations in two halves

A configuration is made in two halves.  The first one, the draft, expands the template and makes
rules from the routing rules; it does not know whether rule sets are compiled.  The second one may
move conditions into rule sets, puts the rules into the document and checks the last outbound.

Main results:

- Theorem {lit}`Generator.generate_eq`: making a configuration is making a draft and completing it.
- Theorem {lit}`Generator.drafts_of_yields`: a draft that succeeds holds the template with its
  sections expanded and nothing else changed, and the rules of the routing rules.
- Theorem {lit}`Compiler.descriptors_of_compileAll`: compiling gives a descriptor for each rule set.
-/

namespace RoutingRules.SingBox

variable {σ : Type} {before after : World σ}

/-! ## Templates -/

/-- The sections of a template or a configuration. -/
def sectionsOf (content : Json) : SortedMap Json :=
  (readTemplate content).toOption.getD .empty

/-- The fields of the routing section of a template or a configuration. -/
def routeOf (content : Json) : SortedMap Json :=
  (readRoute (sectionsOf content)).toOption.getD .empty

/-- The rules of the routing section of a template or a configuration. -/
def routeRulesOf (content : Json) : List Json :=
  (readRules (routeOf content)).toOption.getD []

/-- The rule sets of the routing section of a template or a configuration. -/
def routeSetsOf (content : Json) : List Json :=
  (readRuleSets (routeOf content)).toOption.getD []

/-- The kinds of conditions on processes that are kept. -/
def Options.included (options : Options) : List Kind :=
  (options.kinds.toOption.getD none).getD []

/-! ## The halves -/

/-- A configuration before rule sets are compiled. -/
structure Draft where
  /-- The template with its section for name queries expanded. -/
  document : SortedMap Json
  /-- The names of all outbounds. -/
  names : List String
  /-- The routing section. -/
  routes : Routes
  /-- How many conditions sing-box does not know. -/
  unsupported : Nat

namespace Generator

/-- Expand a template and make rules from routing rules. -/
def draft (g : Generator σ) (rules : List RouteRule) (template : Json) :
    Task RuleError σ Draft := do
  let document ← readTemplate template
  let included := (← g.options.kinds).getD []
  let names := outboundNames g.destinations document
  let (document, dnsCount) ← g.expandDns included document
  let route ← readRoute document
  let templateRules ← readRules route
  let expanded ← templateRules.mapM (g.expandRule included names)
  let (made, madeCount) ← g.routeRules included names rules
  return {
    document
    names
    routes := ⟨route, expanded.map Prod.fst, made, []⟩
    unsupported := dnsCount + Number.total (expanded.map Prod.snd) + madeCount }

/-- Move conditions into rule sets, if there is a compiler. -/
def compileRoutes (g : Generator σ) (routes : Routes) : Task RuleError σ Routes :=
  match g.compiler with
  | none => pure routes
  | some compiler => routes.compile g.options.ruleSet.minSize compiler

/-- Put the rules into the document. -/
def complete (g : Generator σ) (d : Draft) : Task RuleError σ Document := do
  let routes ← g.compileRoutes d.routes
  let all := routes.template ++ routes.made.map Rule.toJson
  let route ← finish d.names (routes.route.insert "rules" (.arr all))
  return ⟨.ofMap (d.document.insert "route" (.ofMap route)), routes.artifacts, d.unsupported⟩

/-- Making a configuration is making a draft and completing it. -/
theorem generate_eq (g : Generator σ) (rules : List RouteRule) (template : Json) :
    g.generate rules template = g.draft rules template >>= g.complete := by
  obtain ⟨options, destinations, remote, compiler⟩ := g
  cases compiler <;>
    simp only [generate, draft, complete, compileRoutes, bind_assoc, pure_bind]

/-- A configuration that is made has a draft. -/
theorem exists_draft_of_yields {g : Generator σ} {rules : List RouteRule} {template : Json}
    {made : Document} (h : (g.generate rules template).Yields before made after) :
    ∃ d between, (g.draft rules template).Yields before d between ∧
      (g.complete d).Yields between made after := by
  rw [generate_eq] at h
  exact Task.yields_bind.1 h

/-- Without a compiler rules stay as they are. -/
theorem eq_of_compileRoutes {g : Generator σ} {routes result : Routes} (hcompiler : g.compiler = none)
    (h : (g.compileRoutes routes).Yields before result after) : result = routes := by
  rw [compileRoutes, hcompiler] at h
  exact (Task.yields_pure.1 h).1.symm

/-- A draft does not depend on the compiler. -/
theorem draft_withCompiler (g : Generator σ) (compiler : Option Compiler) :
    ({ g with compiler } : Generator σ).draft = g.draft :=
  rfl

/-! ## Drafts -/

/-- How sections for name queries and rules of a template are expanded. -/
def expansion (g : Generator σ) (forDns : Bool) : Expansion σ :=
  ⟨g.remote, g.options.included, g.options.mode, forDns⟩

/-- The names of the outbounds to which rules may lead. -/
def names (g : Generator σ) (template : Json) : List String :=
  outboundNames g.destinations (sectionsOf template)

/-- What routing rules are made into, one by one. -/
def MakesParts (g : Generator σ) (template : Json) (rules : List RouteRule)
    (parts : List Routed) : Prop :=
  List.Forall₂
    (fun rule part => ∃ notices,
      routeRule g.options g.options.included (g.names template) rule = .ok (part, notices))
    rules parts

/-- A draft holds the template with its sections expanded, and the rules of the routing rules. -/
structure Drafts (g : Generator σ) (rules : List RouteRule) (template : Json) (d : Draft) :
    Prop where
  /-- The section for name queries is expanded. -/
  dns : Option.Rel (Expands (g.expansion true).Fills) ((sectionsOf template).get? "dns")
    (d.document.get? "dns")
  /-- The other sections are those of the template. -/
  sections : ∀ key, key ≠ "dns" → d.document.get? key = (sectionsOf template).get? key
  route : d.routes.route = routeOf template
  /-- The rules of the template are expanded one by one. -/
  templateRules : List.Forall₂ (Expands (g.expansion false).Fills) (routeRulesOf template)
    d.routes.template
  made : ∃ parts, g.MakesParts template rules parts ∧ d.routes.made = (arrange parts).1
  artifacts : d.routes.artifacts = []

/-- The section for name queries is expanded, and the other sections stay. -/
theorem dns_of_expandDns {g : Generator σ} {document : SortedMap Json}
    {result : Expanded (SortedMap Json)}
    (h : (g.expandDns g.options.included document).Yields before result after) :
    Option.Rel (Expands (g.expansion true).Fills) (document.get? "dns") (result.1.get? "dns") ∧
      ∀ key, key ≠ "dns" → result.1.get? key = document.get? key := by
  rw [expandDns] at h
  split at h
  next hnone =>
    obtain ⟨rfl, _⟩ := Task.yields_pure.1 h
    rw [hnone]
    exact ⟨.none, fun _ _ => rfl⟩
  next dns hdns =>
    simp only [Task.yields_bind, Task.yields_pure] at h
    obtain ⟨⟨value, count⟩, _, hexpand, rfl, _⟩ := h
    refine ⟨?_, fun key hkey => ?_⟩
    · rw [hdns, SortedMap.get?_insert, if_pos rfl]
      exact .some (Expansion.expands_of_expand hexpand)
    · rw [SortedMap.get?_insert, if_neg hkey]

/-- A rule of the template is expanded. -/
theorem expands_of_expandRule {g : Generator σ} {names : List String} {rule : Json}
    {result : Expanded Json}
    (h : (g.expandRule g.options.included names rule).Yields before result after) :
    Expands (g.expansion false).Fills rule result.1 := by
  simp only [expandRule, Task.yields_bind] at h
  obtain ⟨⟨value, count⟩, _, hexpand, h⟩ := h
  have hexpands := Expansion.expands_of_expand hexpand
  split at h
  · simp only [Task.yields_bind, Task.yields_pure] at h
    obtain ⟨_, _, _, rfl, _⟩ := h
    exact hexpands
  · obtain ⟨rfl, _⟩ := Task.yields_pure.1 h
    exact hexpands

/-- A rule is one of those that a routing rule makes: it has the action of the routing rule and is the
rule of its grouped conditions, or a part of that. -/
def MadeOf (options : Options) (included : List Kind) (rule : RouteRule) (made : Rule) : Prop :=
  made.action = .ofDestination rule.destination ∧
    ∃ grouped node, group rule.conditions included options.mode = .ok grouped ∧
      grouped.node = some node ∧ made.node.IsPartOf node

/-- A routing rule makes rules of its grouped conditions. -/
theorem madeOf_of_routeRule {options : Options} {included : List Kind} {names : List String}
    {rule : RouteRule} {part : Routed} {notices : List Notice}
    (h : routeRule options included names rule = .ok (part, notices)) :
    ∀ made ∈ part.direct ++ part.deferred, MadeOf options included rule made := by
  obtain ⟨_, _, h⟩ := Except.bind_eq_ok_iff.1 h
  obtain ⟨grouped, hgrouped, h⟩ := Except.bind_eq_ok_iff.1 h
  obtain ⟨rfl, _⟩ := Prod.mk.inj (Except.ok.inj h)
  split
  next => nofun
  next node hnode =>
    have hmade : ∀ part : Node, part.IsPartOf node →
        MadeOf options included rule ⟨.ofDestination rule.destination, part⟩ :=
      fun part hpart => ⟨rfl, grouped, node, hgrouped, hnode, hpart⟩
    unfold routeNode
    split
    next =>
      intro made hmem
      simp only [List.mem_append, List.mem_map, Option.mem_toList] at hmem
      rcases hmem with ⟨part, hpart, rfl⟩ | ⟨part, hpart, rfl⟩
      · exact hmade part (.inr (.inl hpart))
      · exact hmade part (.inr (.inr hpart))
    next =>
      intro made hmem
      obtain rfl := List.mem_singleton.1 hmem
      exact hmade node (.inl rfl)

/-- The rules of routing rules are made one by one and arranged. -/
theorem parts_of_routeRules {g : Generator σ} {template : Json} {rules : List RouteRule}
    {result : List Rule × Nat}
    (h : (g.routeRules g.options.included (g.names template) rules).Yields before result after) :
    ∃ parts, g.MakesParts template rules parts ∧ result = arrange parts := by
  simp only [routeRules, Task.yields_bind, Task.yields_pure] at h
  obtain ⟨parts, _, hparts, rfl, _⟩ := h
  refine ⟨parts, (Task.forall₂_of_yields_mapM hparts).imp ?_, rfl⟩
  rintro rule part ⟨w, w', hpart⟩
  simp only [Task.yields_bind, Task.yields_lift, Task.yields_pure] at hpart
  obtain ⟨⟨routed, notices⟩, _, ⟨hroute, _⟩, _, _, _, rfl, _⟩ := hpart
  exact ⟨notices, hroute⟩

/-- A draft that succeeds holds the template with its sections expanded and nothing else changed, and
the rules of the routing rules. -/
theorem drafts_of_yields {g : Generator σ} {rules : List RouteRule} {template : Json} {d : Draft}
    (h : (g.draft rules template).Yields before d after) : g.Drafts rules template d := by
  simp only [draft, Task.yields_bind, Task.yields_lift, Task.yields_pure] at h
  obtain ⟨document, _, ⟨hdocument, rfl⟩, kinds, _, ⟨hkinds, rfl⟩, ⟨expandedDocument, dnsCount⟩, _,
    hdns, route, _, ⟨hroute, rfl⟩, templateRules, _, ⟨hrules, rfl⟩, expanded, _, hexpanded,
    ⟨made, madeCount⟩, _, hmade, rfl, _⟩ := h
  obtain rfl : sectionsOf template = document := by
    rw [sectionsOf, hdocument]
    rfl
  have hincluded : g.options.included = kinds.getD [] := by
    rw [Options.included, hkinds]
    rfl
  rw [← hincluded] at hdns hexpanded hmade
  obtain ⟨hdns, hsections⟩ := dns_of_expandDns hdns
  obtain ⟨parts, hparts, hmade⟩ := parts_of_routeRules hmade
  obtain rfl : routeOf template = route := by
    have hsame : readRoute (sectionsOf template) = .ok route := by
      rw [← hroute, readRoute, readRoute, hsections "route" (by decide)]
    rw [routeOf, hsame]
    rfl
  obtain rfl : routeRulesOf template = templateRules := by
    rw [routeRulesOf, hrules]
    rfl
  exact {
    dns := hdns
    sections := hsections
    route := rfl
    templateRules := by
      rw [List.forall₂_map_right_iff]
      refine (Task.forall₂_of_yields_mapM hexpanded).imp ?_
      rintro rule result ⟨w, w', hresult⟩
      exact expands_of_expandRule hresult
    made := ⟨parts, hparts, congrArg Prod.fst hmade⟩
    artifacts := rfl }

/-- Rules are arranged without others among them. -/
theorem exists_mem_of_arrange {parts : List Routed} {rule : Rule} (h : rule ∈ (arrange parts).1) :
    ∃ part ∈ parts, rule ∈ part.direct ++ part.deferred := by
  rw [arrange, List.mem_append, List.mem_flatMap, List.mem_flatMap] at h
  rcases h with ⟨part, hpart, hrule⟩ | ⟨part, hpart, hrule⟩
  · exact ⟨part, hpart, List.mem_append_left _ hrule⟩
  · exact ⟨part, hpart, List.mem_append_right _ hrule⟩

/-- Each rule that routing rules are made into was made from one of them. -/
theorem Drafts.exists_madeOf {g : Generator σ} {rules : List RouteRule} {template : Json}
    {d : Draft} (h : g.Drafts rules template d) {made : Rule} (hmade : made ∈ d.routes.made) :
    ∃ rule ∈ rules, MadeOf g.options g.options.included rule made ∧
      checkDestination (g.names template) rule.destination = .ok () := by
  obtain ⟨parts, hparts, harrange⟩ := h.made
  rw [harrange] at hmade
  obtain ⟨part, hpart, hmem⟩ := exists_mem_of_arrange hmade
  obtain ⟨rule, hrule, _, hroute⟩ := exists_mem_of_forall₂ hparts hpart
  obtain ⟨_, hcheck, _⟩ := Except.bind_eq_ok_iff.1 hroute
  exact ⟨rule, hrule, madeOf_of_routeRule hroute made hmem, hcheck⟩

end Generator

/-! ## Rule sets -/

/-- Compiling a rule set gives its descriptor. -/
theorem Compiler.descriptor_of_compile {c : Compiler} {format : Nat} {set : RuleSet}
    {artifact : Artifact} (h : (c.compile format set).Yields before artifact after) :
    artifact.tag = set.tag ∧ artifact.descriptor = c.descriptor set.tag := by
  simp only [compile, Task.yields_bind] at h
  obtain ⟨_, _, _, ran, _, _, _, _, _, h⟩ := h
  split at h
  · simp only [Task.yields_bind, Task.not_yields_throw, false_and, exists_false] at h
  · simp only [Task.yields_bind, Task.yields_pure] at h
    obtain ⟨_, _, _, rfl, _⟩ := h
    exact ⟨rfl, rfl⟩

/-- Compiling gives a descriptor for each rule set, in order. -/
theorem Compiler.descriptors_of_compileAll {c : Compiler} {sets : List RuleSet}
    {artifacts : List Artifact} (h : (c.compileAll sets).Yields before artifacts after) :
    artifacts.map Artifact.descriptor = sets.map fun set => c.descriptor set.tag := by
  rw [compileAll] at h
  split at h
  next hempty =>
    obtain ⟨rfl, _⟩ := Task.yields_pure.1 h
    rw [List.isEmpty_iff.1 hempty]
    rfl
  next =>
    simp only [Task.yields_bind] at h
    obtain ⟨_, _, _, _, _, _, hartifacts⟩ := h
    rw [← List.forall₂_eq_eq_eq, List.forall₂_map_left_iff, List.forall₂_map_right_iff]
    refine ((Task.forall₂_of_yields_mapM hartifacts).imp ?_).flip
    rintro set artifact ⟨w, w', hcompile⟩
    exact (descriptor_of_compile hcompile).2

/-- Large rules are extracted, compiled and replaced by what is left of them. -/
theorem Routes.eq_of_compile {minSize : Nat} {compiler : Compiler} {routes result : Routes}
    (h : (routes.compile minSize compiler).Yields before result after) :
    ∃ extraction artifacts,
      extract minSize ((routes.template.map TemplateRule.ofJson).filterMap TemplateRule.rule ++
        routes.made) = .ok extraction ∧
      artifacts.map Artifact.descriptor =
        (extraction.sets.map fun set => compiler.descriptor set.tag) ∧
      result = {
        route := routes.route.insert referencesKey
          (.arr ((readRuleSets routes.route).toOption.getD [] ++
            artifacts.map fun a => a.descriptor.toJson))
        template := (putBack (routes.template.map TemplateRule.ofJson) extraction.rules).1
        made := (putBack (routes.template.map TemplateRule.ofJson) extraction.rules).2
        artifacts } := by
  simp only [compile, Task.yields_bind, Task.yields_lift, Task.yields_pure] at h
  obtain ⟨extraction, _, ⟨hextract, _⟩, artifacts, _, hartifacts, sets, _, ⟨hsets, _⟩, rfl, _⟩ := h
  refine ⟨extraction, artifacts, hextract, Compiler.descriptors_of_compileAll hartifacts, ?_⟩
  rw [hsets]
  rfl

/-! ## Documents -/

/-- The fields of the routing section with an outbound for all other connections. -/
def withFinal (route : SortedMap Json) : SortedMap Json :=
  route.insert "final" ((route.get? "final").getD (.str defaultFinal))

/-- The configuration with given sections and rules; `route` are the other fields of the routing
section. -/
def configuration (document route : SortedMap Json) (rules : List Json) : Json :=
  .ofMap (document.insert "route" (.ofMap (withFinal (route.insert "rules" (.arr rules)))))

section Configuration

variable (document route : SortedMap Json) (rules : List Json)

/-- The sections of a configuration are those that it was made with. -/
theorem sectionsOf_configuration :
    sectionsOf (configuration document route rules) =
      document.insert "route" (.ofMap (withFinal (route.insert "rules" (.arr rules)))) :=
  SortedMap.ofList_entries _

/-- The rules of a configuration are those that it was made with. -/
theorem routeRulesOf_configuration : routeRulesOf (configuration document route rules) = rules := by
  have hroute : routeOf (configuration document route rules) =
      withFinal (route.insert "rules" (.arr rules)) := by
    rw [routeOf, sectionsOf_configuration, readRoute, SortedMap.get?_insert, if_pos rfl]
    exact SortedMap.ofList_entries _
  have hrules : (withFinal (route.insert "rules" (.arr rules))).get? "rules" =
      some (.arr rules) := by
    rw [withFinal, SortedMap.get?_insert, if_neg (by decide), SortedMap.get?_insert, if_pos rfl]
  rw [routeRulesOf, hroute, readRules, hrules]
  rfl

end Configuration

namespace Generator

/-- The outbound for all other connections is the one that is set, or the one that counts unless
another is. -/
theorem eq_withFinal_of_finish {names : List String} {route result : SortedMap Json}
    (h : (finish names route : Task RuleError σ _).Yields before result after) :
    result = withFinal route := by
  rw [finish] at h
  split at h
  next name hname =>
    simp only [Task.yields_bind, Task.yields_pure] at h
    obtain ⟨_, _, _, rfl, _⟩ := h
    refine SortedMap.ext_get? fun key => ?_
    rw [withFinal, hname, SortedMap.get?_insert]
    split
    next hkey => rw [hkey, hname, Option.getD_some]
    next => rfl
  next => exact absurd h Task.not_yields_throw
  next hnone =>
    simp only [Task.yields_bind, Task.yields_pure] at h
    obtain ⟨_, _, _, rfl, _⟩ := h
    rw [withFinal, hnone]
    rfl

/-- A draft is completed with the rules that are left after rule sets are compiled. -/
theorem eq_of_complete {g : Generator σ} {d : Draft} {made : Document}
    (h : (g.complete d).Yields before made after) :
    ∃ routes between, (g.compileRoutes d.routes).Yields before routes between ∧
      made = ⟨configuration d.document routes.route
        (routes.template ++ routes.made.map Rule.toJson), routes.artifacts, d.unsupported⟩ := by
  simp only [complete, Task.yields_bind, Task.yields_pure] at h
  obtain ⟨routes, between, hroutes, route, _, hfinish, rfl, _⟩ := h
  exact ⟨routes, between, hroutes, by rw [eq_withFinal_of_finish hfinish]; rfl⟩

/-- Without a compiler rules stay as they are, and with one large rules are moved into rule sets. -/
theorem compileRoutes_cases {g : Generator σ} {routes result : Routes}
    (h : (g.compileRoutes routes).Yields before result after) :
    g.compiler = none ∧ result = routes ∨
      ∃ compiler, g.compiler = some compiler ∧
        (routes.compile g.options.ruleSet.minSize compiler).Yields before result after := by
  cases hcompiler : g.compiler with
  | none => exact .inl ⟨rfl, eq_of_compileRoutes hcompiler h⟩
  | some compiler =>
    rw [compileRoutes, hcompiler] at h
    exact .inr ⟨compiler, rfl, h⟩

/-- A configuration that is made is a draft with the rules that are left after rule sets are
compiled. -/
theorem exists_routes_of_yields {g : Generator σ} {rules : List RouteRule} {template : Json}
    {made : Document} (h : (g.generate rules template).Yields before made after) :
    ∃ d between routes w w', (g.draft rules template).Yields before d between ∧
      (g.compileRoutes d.routes).Yields w routes w' ∧
      made = ⟨configuration d.document routes.route
        (routes.template ++ routes.made.map Rule.toJson), routes.artifacts, d.unsupported⟩ := by
  obtain ⟨d, between, hdraft, hcomplete⟩ := exists_draft_of_yields h
  obtain ⟨routes, w, hroutes, hmade⟩ := eq_of_complete hcomplete
  exact ⟨d, between, routes, between, w, hdraft, hroutes, hmade⟩

end Generator

end RoutingRules.SingBox
