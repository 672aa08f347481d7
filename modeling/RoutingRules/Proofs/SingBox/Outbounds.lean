import RoutingRules.Proofs.SingBox.RuleSetTags

/-!
# Outbounds of a configuration

A configuration may only name outbounds that exist: the one for name queries, those of the table of
destinations and those of the template.  Rules of the template are checked after their filters are
expanded, rules made from routing rules when they are made, and the outbound for all other
connections at the end.  In between, extraction writes rules anew, but it keeps their actions.
The outbound through which clients download rule sets is not checked anywhere.

Main results:

- Theorem {lit}`Rule.leadsInto_toJson`: a rule that is written names the outbound of its action.
- Theorem {lit}`Generator.rules_lead_into`: the rules of a configuration name outbounds that exist.
- Theorem {lit}`generate_outbounds_exist_iff`: when all outbounds that a configuration names exist.
-/

namespace RoutingRules.SingBox

variable {σ : Type} {before after : World σ}

/-! ## Rules and their outbounds -/

/-- The outbound that a rule of a configuration names. -/
def outboundOf (rule : Json) : Option String :=
  (rule.field? "outbound").bind Json.toText?

/-- Whether a rule of a configuration names one of the outbounds, if it names any. -/
def LeadsInto (names : List String) (rule : Json) : Prop :=
  ∀ name, outboundOf rule = some name → name ∈ names

/-- Whether an action leads to one of the outbounds, if it leads to any. -/
def Action.LeadsInto (names : List String) (action : Action) : Prop :=
  ∀ name, action = .route name → name ∈ names

/-- An outbound that passes the check is one of those that exist. -/
theorem mem_of_checkOutbound {names : List String} {name : String}
    (h : checkOutbound names name = .ok ()) : name ∈ names := by
  unfold checkOutbound at h
  split at h
  next hmem => simpa using hmem
  next => cases h

/-- A rule that is read leads where the value that it was read from does. -/
theorem Rule.leadsInto_of_ofJson {names : List String} {value : Json} {rule : Rule}
    (hread : Rule.ofJson value = .ok rule) (h : LeadsInto names value) :
    rule.action.LeadsInto names := by
  obtain ⟨fields, rfl, haction, _⟩ := Rule.ofJson_eq_ok_iff.1 hread
  intro name hname
  rw [hname] at haction
  refine h name ?_
  unfold Rule.readAction at haction
  dsimp only at haction
  split at haction
  · cases haction
  · obtain rfl := Action.route.inj (Except.ok.inj haction)
    assumption
  · obtain rfl := Action.route.inj (Except.ok.inj haction)
    assumption
  · cases haction

/-- A rule whose conditions and other fields have no outbound names the one of its action. -/
theorem Rule.leadsInto_toJson {names : List String} {rule : Rule}
    (hnode : rule.node.toMap.get? "outbound" = none) (h : rule.action.LeadsInto names) :
    LeadsInto names rule.toJson := by
  obtain ⟨action, node⟩ := rule
  intro name hname
  cases action with
  | route outbound =>
    have hget : (Rule.toJson ⟨.route outbound, node⟩).field? "outbound" = some (.str outbound) := by
      show ((node.toMap.insert _ _).insert _ _).get? _ = _
      rw [SortedMap.get?_insert, if_pos rfl]
    rw [outboundOf, hget] at hname
    obtain rfl : outbound = name := Option.some.inj hname
    exact h outbound rfl
  | reject =>
    have hget : (Rule.toJson ⟨.reject, node⟩).field? "outbound" = none := by
      show (node.toMap.insert _ _).get? _ = _
      rw [SortedMap.get?_insert, if_neg (by decide)]
      exact hnode
    rw [outboundOf, hget] at hname
    cases hname

/-! ## Fields with an outbound -/

/-- The conditions and the other fields of a rule that was read have no outbound. -/
theorem Rule.get?_outbound_of_ofJson {value : Json} {rule : Rule}
    (h : Rule.ofJson value = .ok rule) : rule.node.toMap.get? "outbound" = none := by
  obtain ⟨fields, rfl, _, hnode⟩ := Rule.ofJson_eq_ok_iff.1 h
  have hlacks : ∀ f ∈ Rule.nodeFields fields, f.1 ≠ "outbound" := by
    intro f hf
    simpa using (Bool.and_eq_true_iff.1 (List.mem_filter.1 hf).2).2
  cases hlogical : isLogical (Rule.nodeFields fields) with
  | false =>
    obtain ⟨l, hl, hleaf⟩ := (Node.ofJson_leaf_eq_ok_iff hlogical).1 hnode
    obtain ⟨hconditions, hextra⟩ := Leaf.fields_of_ofFields hl
    have hcondition : l.conditions.get? "outbound" = none := by
      rw [hconditions]
      refine SortedMap.get?_ofList_eq_none fun e he => ?_
      obtain ⟨f, hf, rfl⟩ := List.mem_map.1 he
      exact hlacks f (List.mem_of_mem_filter hf)
    have hother : l.extra.get? "outbound" = none := by
      rw [hextra]
      exact SortedMap.get?_ofList_eq_none fun e he => hlacks e (List.mem_of_mem_filter he)
    rw [hleaf]
    show l.toMap.get? "outbound" = none
    rw [Leaf.get?_toMap, if_neg (by simp [referencesKey]), hcondition, hother]
    rfl
  | true =>
    obtain ⟨mode, children, _, _, hnode⟩ := (Node.ofJson_logical_eq_ok_iff hlogical).1 hnode
    rw [hnode, Node.get?_toMap_logical]
    exact SortedMap.get?_ofList_eq_none fun e he => hlacks e (List.mem_of_mem_filter he)

/-- What is left of a rule without an outbound among its fields has none there either. -/
theorem Node.get?_outbound_remainder {node : Node} (h : node.toMap.get? "outbound" = none)
    (minSize : Nat) (tag : String) :
    (node.remainder minSize tag).toMap.get? "outbound" = none := by
  have hreferences : ∀ (references : List String) (extra : SortedMap Json),
      extra.get? "outbound" = none →
        (leaf ⟨.empty, references, extra⟩).toMap.get? "outbound" = none := by
    intro references extra hextra
    show (Leaf.toMap _).get? "outbound" = none
    rw [Leaf.get?_toMap, if_neg (by simp [referencesKey]), SortedMap.get?_empty, hextra]
    rfl
  cases node with
  | leaf l =>
    rw [remainder]
    split
    next => exact h
    next =>
      have hfields : l.toMap.get? "outbound" = none := h
      rw [Leaf.get?_toMap, if_neg (by simp [referencesKey]), Option.or_eq_none_iff] at hfields
      exact hreferences _ _ hfields.2
  | logical mode children extra =>
    rw [get?_toMap_logical] at h
    rw [remainder]
    split
    next => exact hreferences _ _ h
    next =>
      rw [get?_toMap_logical]
      exact h

namespace Generator

variable {g : Generator σ} {rules : List RouteRule} {template : Json}

/-! ## Rules that were checked -/

/-- A rule of the template leads to an outbound that exists. -/
theorem leadsInto_of_expandRule {included : List Kind} {names : List String} {rule : Json}
    {result : Expanded Json}
    (h : (g.expandRule included names rule).Yields before result after) :
    LeadsInto names result.1 := by
  simp only [expandRule, Task.yields_bind] at h
  obtain ⟨⟨value, count⟩, _, _, h⟩ := h
  intro other hother
  cases hname : (value.field? "outbound").bind Json.toText? with
  | some name =>
    simp only [hname, Task.yields_bind, Task.yields_lift, Task.yields_pure] at h
    obtain ⟨_, _, ⟨hcheck, _⟩, rfl, _⟩ := h
    obtain rfl : name = other := Option.some.inj (hname.symm.trans hother)
    exact mem_of_checkOutbound hcheck
  | none =>
    simp only [hname, Task.yields_pure] at h
    obtain ⟨rfl, _⟩ := h
    cases hother.symm.trans hname

/-- The rules of the template in a draft lead to outbounds that exist. -/
theorem leadsInto_of_draft {d : Draft} (h : (g.draft rules template).Yields before d after) :
    d.names = g.names template ∧ ∀ rule ∈ d.routes.template, LeadsInto (g.names template) rule := by
  simp only [draft, Task.yields_bind, Task.yields_lift, Task.yields_pure] at h
  obtain ⟨document, _, ⟨hdocument, rfl⟩, _, _, _, _, _, _, _, _, _, _, _, _, expanded, _, hexpanded,
    _, _, _, rfl, _⟩ := h
  have hnames : outboundNames g.destinations document = g.names template := by
    rw [names, sectionsOf, hdocument]
    rfl
  refine ⟨hnames, fun rule hrule => ?_⟩
  obtain ⟨result, hresult, rfl⟩ := List.mem_map.1 hrule
  obtain ⟨_, _, _, _, hchecked⟩ :=
    exists_mem_of_forall₂ (Task.forall₂_of_yields_mapM hexpanded) hresult
  rw [← hnames]
  exact leadsInto_of_expandRule hchecked

/-- The rules of routing rules lead to outbounds that exist. -/
theorem Drafts.leadsInto_made {d : Draft} (h : g.Drafts rules template d) :
    ∀ rule ∈ d.routes.made, rule.action.LeadsInto (g.names template) := by
  intro made hmade name hname
  obtain ⟨rule, _, ⟨haction, _⟩, hcheck⟩ := h.exists_madeOf hmade
  rw [haction] at hname
  cases hdestination : rule.destination with
  | reject =>
    rw [hdestination] at hname
    cases hname
  | outbound other =>
    rw [hdestination] at hname hcheck
    obtain rfl := Action.route.inj hname
    exact mem_of_checkOutbound hcheck

/-- The rules of routing rules have no outbound among their conditions and other fields. -/
theorem Drafts.get?_outbound_made {d : Draft} (h : g.Drafts rules template d) :
    ∀ rule ∈ d.routes.made, rule.node.toMap.get? "outbound" = none := by
  intro rule hrule
  have hplaced := h.isPlaced_made rule hrule
  rw [hplaced.node.get?_toMap_of_mem_actionKeys "outbound" (by simp [actionKeys]),
    hplaced.action "outbound" (by simp [actionKeys])]

/-! ## Rules of configurations -/

/-- The rules of a configuration lead to outbounds that exist. -/
theorem rules_lead_into {made : Document}
    (h : (g.generate rules template).Yields before made after) :
    ∀ rule ∈ routeRulesOf made.content, LeadsInto (g.names template) rule := by
  obtain ⟨d, _, routes, _, _, hdraft, hroutes, rfl⟩ := exists_routes_of_yields h
  have hdrafts := drafts_of_yields hdraft
  rw [routeRulesOf_configuration]
  -- The action of a rule stays, and what is left of its conditions names no outbound.
  refine forall_mem_of_compileRoutes
    (q := fun rule => rule.node.toMap.get? "outbound" = none ∧
      rule.action.LeadsInto (g.names template))
    hroutes ?_ ?_ ?_ (leadsInto_of_draft hdraft).2 ?_
  · intro value rule hread hvalue
    exact ⟨Rule.get?_outbound_of_ofJson hread, Rule.leadsInto_of_ofJson hread hvalue⟩
  · rintro rule tag ⟨hnone, haction⟩
    exact ⟨Node.get?_outbound_remainder hnone _ tag, haction⟩
  · rintro rule ⟨hnone, haction⟩
    exact Rule.leadsInto_toJson hnone haction
  · intro rule hrule
    exact ⟨hdrafts.get?_outbound_made rule hrule, hdrafts.leadsInto_made rule hrule⟩

/-! ## The outbound for all other connections -/

/-- The outbound for all other connections is checked, or it is the one that counts unless another is
set. -/
theorem final_of_finish {names : List String} {route result : SortedMap Json}
    (h : (finish names route : Task RuleError σ _).Yields before result after) :
    ∃ name, result.get? "final" = some (.str name) ∧ (name ∈ names ∨ name = defaultFinal) := by
  rw [finish] at h
  split at h
  next name hname =>
    simp only [Task.yields_bind, Task.yields_lift, Task.yields_pure] at h
    obtain ⟨_, _, ⟨hcheck, _⟩, rfl, _⟩ := h
    exact ⟨name, hname, .inl (mem_of_checkOutbound hcheck)⟩
  next => exact absurd h Task.not_yields_throw
  next =>
    simp only [Task.yields_bind, Task.yields_pure] at h
    obtain ⟨_, _, _, rfl, _⟩ := h
    exact ⟨defaultFinal, by rw [SortedMap.get?_insert, if_pos rfl], .inr rfl⟩

/-- A configuration names an outbound for all other connections, which is one of those that exist or
the one that counts unless another is set. -/
theorem final_of_generate {made : Document}
    (h : (g.generate rules template).Yields before made after) :
    ∃ name, (routeOf made.content).get? "final" = some (.str name) ∧
      (name ∈ g.names template ∨ name = defaultFinal) := by
  obtain ⟨d, _, hdraft, hcomplete⟩ := exists_draft_of_yields h
  simp only [complete, Task.yields_bind, Task.yields_pure] at hcomplete
  obtain ⟨routes, _, _, route, _, hfinish, rfl, _⟩ := hcomplete
  obtain ⟨name, hname, hexists⟩ := final_of_finish hfinish
  rw [(leadsInto_of_draft hdraft).1] at hexists
  exact ⟨name, by rw [routeOf_insert, hname], hexists⟩

end Generator

/-! ## Outbounds for downloads -/

/-- The outbound through which clients download a rule set of a configuration. -/
def detourOf (set : Json) : Option String :=
  (set.field? "download_detour").bind Json.toText?

/-- A descriptor has its outbound for downloads as a field. -/
theorem detourOf_toJson (d : Descriptor) : detourOf d.toJson = d.detour := by
  obtain ⟨tag, url, detour⟩ := d
  have hget : (Descriptor.toJson ⟨tag, url, detour⟩).field? "download_detour" =
      detour.map Json.str := by
    show SortedMap.get? (.ofList _) "download_detour" = _
    cases detour <;> simp [SortedMap.ofList, SortedMap.insertAll, SortedMap.get?_insert]
  rw [detourOf, hget]
  cases detour <;> rfl

/-- The rule sets that are listed behind those of the template. -/
def addedSetsOf (template content : Json) : List Json :=
  (routeSetsOf content).drop (routeSetsOf template).length

namespace Generator

variable {g : Generator σ} {rules : List RouteRule} {template : Json} {made : Document}

/-- The outbounds for downloads that a configuration adds are the one of the compiler, if a rule set
was compiled. -/
theorem exists_detourOf_iff (h : (g.generate rules template).Yields before made after)
    (name : String) :
    (∃ set ∈ addedSetsOf template made.content, detourOf set = some name) ↔
      made.artifacts ≠ [] ∧
        ∃ compiler, g.compiler = some compiler ∧ compiler.detour = some name := by
  have hdescribed := (nodup_tags_of_generate h).2
  rw [addedSetsOf, routeSetsOf_of_generate h, List.drop_left]
  constructor
  · rintro ⟨set, hset, hdetour⟩
    obtain ⟨a, ha, rfl⟩ := List.mem_map.1 hset
    obtain ⟨compiler, hcompiler, hdescriptor⟩ := hdescribed a ha
    rw [detourOf_toJson, hdescriptor] at hdetour
    exact ⟨List.ne_nil_of_mem ha, compiler, hcompiler, hdetour⟩
  · rintro ⟨hne, compiler, hcompiler, hdetour⟩
    obtain ⟨a, ha⟩ := List.exists_mem_of_ne_nil _ hne
    obtain ⟨other, hother, hdescriptor⟩ := hdescribed a ha
    obtain rfl := Option.some.inj (hcompiler.symm.trans hother)
    refine ⟨_, List.mem_map_of_mem ha, ?_⟩
    rw [detourOf_toJson, hdescriptor]
    exact hdetour

/-- Whether an outbound exists: it is the one for name queries, one of the table, or one of the
template. -/
def HasOutbound (g : Generator σ) (template : Json) (name : String) : Prop :=
  name = dnsOutbound ∨ g.destinations.contains name = true ∨
    ∃ outbounds, (sectionsOf template).get? "outbounds" = some (.arr outbounds) ∧
      ∃ outbound ∈ outbounds, outboundTag outbound = some name

theorem hasOutbound_iff {name : String} :
    g.HasOutbound template name ↔ name ∈ g.names template := by
  have htags : name ∈ outboundTags (sectionsOf template) ↔
      ∃ outbounds, (sectionsOf template).get? "outbounds" = some (.arr outbounds) ∧
        ∃ outbound ∈ outbounds, outboundTag outbound = some name := by
    rw [outboundTags, List.mem_filterMap]
    cases (sectionsOf template).get? "outbounds" with
    | none => simp
    | some value => cases value <;> simp [Json.toItems?]
  rw [HasOutbound, names, outboundNames, List.mem_append, List.mem_cons, or_assoc, htags,
    DestinationTable.contains, List.contains_iff_mem]

end Generator

/-- The rules of a configuration name outbounds that exist, and it names one that exists for all
other connections.  The rule sets that it adds do so exactly when the compiler is given an outbound
for downloads that exists, unless it has none or nothing was compiled. -/
theorem generate_outbounds_exist_iff {g : Generator σ} {rules : List RouteRule} {template : Json}
    {made : Document} {others : List String} (htable : g.destinations = .ofNames others)
    (h : (g.generate rules template).Yields before made after) :
    (∀ rule ∈ routeRulesOf made.content, ∀ name, outboundOf rule = some name →
      g.HasOutbound template name) ∧
    (∃ name, (routeOf made.content).get? "final" = some (.str name) ∧
      g.HasOutbound template name) ∧
    ((∀ set ∈ addedSetsOf template made.content, ∀ name, detourOf set = some name →
      g.HasOutbound template name) ↔
        ∀ compiler, g.compiler = some compiler → ∀ name, compiler.detour = some name →
          made.artifacts = [] ∨ g.HasOutbound template name) := by
  refine ⟨fun rule hrule name hname => ?_, ?_, ?_⟩
  · exact Generator.hasOutbound_iff.2 (Generator.rules_lead_into h rule hrule name hname)
  · obtain ⟨name, hfinal, hexists⟩ := Generator.final_of_generate h
    refine ⟨name, hfinal, ?_⟩
    rcases hexists with hexists | rfl
    · exact Generator.hasOutbound_iff.2 hexists
    · refine .inr (.inl ?_)
      rw [htable, DestinationTable.contains, List.contains_iff_mem]
      exact List.mem_append_left _ (by decide)
  · constructor
    · intro hsets compiler hcompiler name hdetour
      by_cases hne : made.artifacts = []
      · exact .inl hne
      · obtain ⟨set, hset, hname⟩ :=
          (Generator.exists_detourOf_iff h name).2 ⟨hne, compiler, hcompiler, hdetour⟩
        exact .inr (hsets set hset name hname)
    · intro hcompilers set hset name hname
      obtain ⟨hne, compiler, hcompiler, hdetour⟩ :=
        (Generator.exists_detourOf_iff h name).1 ⟨set, hset, hname⟩
      exact (hcompilers compiler hcompiler name hdetour).resolve_left hne

/-- A generator whose rule sets are downloaded through an outbound. -/
def generatorThrough (outbound : String) : Generator Unit :=
  { sampleGenerator with compiler := some { sampleCompiler with detour := some outbound } }

theorem generate_outbounds_exist_iff_sampleTemplate :
    ∃ made after,
      ((generatorThrough "PROXY").generate [sampleRouteRule] sampleTemplate).Yields sampleWorld made
        after ∧
      (routeRulesOf made.content).map outboundOf =
        [none, some "DIRECT", none, none, some "PROXY"] ∧
      (generatorThrough "PROXY").HasOutbound sampleTemplate "DIRECT" ∧
      (routeOf made.content).get? "final" = some (.str "DIRECT") ∧
      (∃ set ∈ addedSetsOf sampleTemplate made.content, detourOf set = some "PROXY") ∧
      ∀ set ∈ addedSetsOf sampleTemplate made.content, ∀ name, detourOf set = some name →
        (generatorThrough "PROXY").HasOutbound sampleTemplate name := by
  obtain ⟨made, after, hmade, hcheck⟩ := Task.exists_of_succeedsWith (show
    ((generatorThrough "PROXY").generate [sampleRouteRule] sampleTemplate).succeedsWith sampleWorld
      (fun made => (routeRulesOf made.content).map outboundOf =
          [none, some "DIRECT", none, none, some "PROXY"] &&
        (routeOf made.content).get? "final" = some (.str "DIRECT") &&
        (addedSetsOf sampleTemplate made.content).any fun set => detourOf set = some "PROXY") =
          true by decide +kernel)
  simp only [Bool.and_eq_true, List.any_eq_true, decide_eq_true_eq] at hcheck
  obtain ⟨⟨houtbounds, hfinal⟩, hadded⟩ := hcheck
  obtain ⟨hrules, _, hdetours⟩ := generate_outbounds_exist_iff rfl hmade
  have hnamed : ∀ name, some name ∈ (routeRulesOf made.content).map outboundOf →
      (generatorThrough "PROXY").HasOutbound sampleTemplate name := by
    intro name hname
    obtain ⟨rule, hrule, houtbound⟩ := List.mem_map.1 hname
    exact hrules rule hrule name houtbound
  rw [houtbounds] at hnamed
  refine ⟨made, after, hmade, houtbounds, hnamed "DIRECT" (by decide), hfinal, hadded, ?_⟩
  refine hdetours.2 fun compiler hcompiler name hname => .inr ?_
  obtain rfl := Option.some.inj hcompiler
  obtain rfl : "PROXY" = name := Option.some.inj hname
  exact hnamed "PROXY" (by decide)

/-- No outbound has the name, but clients are told to download rule sets through it. -/
theorem generate_strayDetour_names_missing :
    ∃ made after,
      ((generatorThrough "Nowhere").generate [sampleRouteRule] (.obj [])).Yields sampleWorld made
        after ∧
      (∃ set ∈ addedSetsOf (.obj []) made.content, detourOf set = some "Nowhere") ∧
      ¬(generatorThrough "Nowhere").HasOutbound (.obj []) "Nowhere" := by
  obtain ⟨made, after, hmade, hdetour⟩ := Task.exists_of_succeedsWith (show
    ((generatorThrough "Nowhere").generate [sampleRouteRule] (.obj [])).succeedsWith sampleWorld
      (fun made => (addedSetsOf (.obj []) made.content).any fun set =>
        detourOf set = some "Nowhere") = true by decide +kernel)
  obtain ⟨set, hset, hname⟩ := List.any_eq_true.1 hdetour
  refine ⟨made, after, hmade, ⟨set, hset, of_decide_eq_true hname⟩, ?_⟩
  rw [Generator.hasOutbound_iff]
  decide +kernel

end RoutingRules.SingBox
