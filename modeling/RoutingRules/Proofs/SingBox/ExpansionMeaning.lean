import RoutingRules.Proofs.SingBox.Draft
import RoutingRules.Proofs.SingBox.GroupMeaning

/-!
# What expanded rules match

A rule of a template with filters asks for one of the conditions that the filters resolve to.
This module compares that with what the expanded rule matches.

The fields of the grouped conditions are written over those of the rule, so an expanded rule that
holds has met one of the conditions, unless something in the rule takes their place: a field that
turns the rule around, other fields in each of their groups, or children of its own.  When no
condition is left at all, nothing is written, and the rule matches on its other fields alone.

Main results:

- Theorem {lit}`shape_of_group`: grouped conditions make up one leaf or a pair of leaves.
- Theorem {lit}`exists_isMet_of_leaf` and {lit}`exists_isMet_of_pair`: an expanded rule that holds
  has met one of the conditions.
- Theorem {lit}`holds_of_isEmpty`: a rule without conditions matches a connection that meets none.
- Theorem {lit}`generate_narrows`: the same for every rule with filters in a template.
-/

namespace RoutingRules.SingBox

open SortedMap (lookupEntry)

variable {σ γ : Type} [DecidableEq γ]

/-! ## The shape of grouped conditions -/

/-- The leaf of the conditions on one side. -/
def sideLeaf (included : List Kind) (isProcess : Bool) (conditions : List Condition) : Leaf :=
  Leaf.empty.pushAll (sideFields included isProcess conditions)

section Group

variable {conditions : List Condition} {included : List Kind} {mode : Mode} {grouped : Grouped}

/-- Grouped conditions make up the leaf of one side or a pair of both; a side that is there has
fields. -/
theorem shape_of_group (h : group conditions included mode = .ok grouped) {node : Node}
    (hnode : grouped.node = some node) :
    (∃ isProcess, sideFields included isProcess conditions ≠ [] ∧
      node = .leaf (sideLeaf included isProcess conditions)) ∨
      (∀ isProcess, sideFields included isProcess conditions ≠ []) ∧
        node = .logical mode
          [.leaf (sideLeaf included true conditions), .leaf (sideLeaf included false conditions)]
          .empty := by
  rw [node_of_group h, joinLeaves, Leaf.isEmpty_pushAll, Leaf.isEmpty_pushAll] at hnode
  split at hnode
  next => cases hnode
  next _ hother =>
    exact .inl ⟨false, List.isEmpty_eq_false_iff.1 hother, (Option.some.inj hnode).symm⟩
  next hprocess _ =>
    exact .inl ⟨true, List.isEmpty_eq_false_iff.1 hprocess, (Option.some.inj hnode).symm⟩
  next hprocess hother =>
    refine .inr ⟨fun isProcess => ?_, (Option.some.inj hnode).symm⟩
    cases isProcess
    · exact List.isEmpty_eq_false_iff.1 hother
    · exact List.isEmpty_eq_false_iff.1 hprocess

/-- No rule is left of conditions of which none is both wanted and known. -/
theorem node_eq_none_iff (h : group conditions included mode = .ok grouped) :
    grouped.node = none ↔ ∀ c ∈ conditions, isWanted included c = true →
      ∀ field, c.singBoxField ≠ .ok field := by
  have hsides : grouped.node = none ↔ ∀ isProcess, sideFields included isProcess conditions = [] := by
    rw [node_of_group h, joinLeaves, Leaf.isEmpty_pushAll, Leaf.isEmpty_pushAll]
    cases hprocess : (sideFields included true conditions).isEmpty <;>
      cases hother : (sideFields included false conditions).isEmpty <;>
        simp_all [Bool.forall_bool]
  rw [hsides]
  constructor
  · intro hempty c hc hwanted field hfield
    have hmem := mem_sideFields.2 ⟨c, hc, hwanted, rfl, hfield⟩
    rw [hempty] at hmem
    cases hmem
  · intro hnone isProcess
    refine List.eq_nil_iff_forall_not_mem.2 fun field hmem => ?_
    obtain ⟨c, hc, hwanted, _, hfield⟩ := mem_sideFields.1 hmem
    exact hnone c hc hwanted field hfield

/-- A condition with a field that holds is met. -/
theorem exists_isMet_of_someHolds {isProcess : Bool} {connection : Connection}
    (h : someHolds connection (sideFields included isProcess conditions) = true) :
    ∃ c ∈ conditions, c.isMet connection = true := by
  have hkept : (kept included conditions).any (Condition.isMet connection) = true := by
    rw [any_kept_isMet, Bool.or_eq_true]
    cases isProcess
    · exact .inr h
    · exact .inl h
  obtain ⟨c, hc, hmet⟩ := List.any_eq_true.1 hkept
  exact ⟨c, (mem_kept.1 hc).1, hmet⟩

/-- A condition is met when the leaf of a side that is there holds. -/
theorem exists_isMet_of_holds {isProcess : Bool} (group : String → γ) {connection : Connection}
    (hside : sideFields included isProcess conditions ≠ [])
    (h : (sideLeaf included isProcess conditions).holds group connection = true) :
    ∃ c ∈ conditions, c.isMet connection = true := by
  have hholds : sideHolds group connection (sideFields included isProcess conditions) = true := by
    rw [sideHolds_of_ne_nil group connection hside, ← Leaf.holds_pushAll]
    exact h
  exact exists_isMet_of_someHolds (someHolds_of_sideHolds hholds)

end Group

/-! ## The fields of an expanded rule -/

/-- The fields of a rule with filters that are kept unless they are written over. -/
theorem get?_withGroup (fields : List (String × Json)) {grouped : Grouped} {made : Node}
    (hmade : grouped.node = some made) (key : String) :
    (Expansion.withGroup fields grouped).get? key =
      (made.toMap.get? key).or (((SortedMap.ofList fields).erase filtersKey).get? key) := by
  simp only [Expansion.withGroup, hmade, SortedMap.get?_insertAll _ made.toMap.sorted]
  rfl

/-- The verdict of a rule that is not turned around needs its conditions or its children. -/
theorem Connection.core_of_judge {connection : Connection} {extra : SortedMap Json} {core : Bool}
    (hplain : isInverted extra = false) (h : connection.judge extra core = true) : core = true := by
  rw [judge, hplain, Bool.false_xor, Bool.and_eq_true] at h
  exact h.1

/-- An expanded rule still asks for the grouped conditions: it is not turned around, and the
conditions are its children or have one group of its fields to themselves. -/
def AsksFor (group : String → γ) (made read : Node) : Prop :=
  isInverted read.extra = false ∧
    match made, read with
    | .leaf l, .leaf other =>
      ∃ key, (l.conditions.get? key).isSome = true ∧
        ∀ k, (other.conditions.get? k).isSome = true → group k = group key →
          (l.conditions.get? k).isSome = true
    | .leaf _, .logical _ _ _ => False
    | .logical _ _ _, _ => True

/-- With every field on its own, a leaf that is not turned around still asks for its conditions. -/
theorem asksFor_id {l other : Leaf} (hplain : isInverted other.extra = false) {key : String}
    (hkey : (l.conditions.get? key).isSome = true) : AsksFor id (.leaf l) (.leaf other) :=
  ⟨hplain, key, hkey, fun k _ (hsame : k = key) => hsame ▸ hkey⟩

section Expanded

variable {conditions : List Condition} {included : List Kind} {mode : Mode} {grouped : Grouped}
  {fields : List (String × Json)}

/-- The conditions of a leaf are read from the expanded rule as they are. -/
theorem get?_conditions_of_written {l read : Leaf} (hl : l.OnlyConditions)
    (hmade : grouped.node = some (.leaf l))
    (hread : Leaf.ofFields (Expansion.withGroup fields grouped).entries = .ok read) {key : String}
    {values : List Json} (hvalues : l.conditions.get? key = some values) :
    read.conditions.get? key = some values := by
  have hkey : holdsConditions key = true := hl.keys _ (SortedMap.mem_entries_iff.2 hvalues)
  have hwritten : l.toMap.get? key = some (.arr values) := by
    rw [Leaf.get?_toMap, if_neg fun hboth => hboth.2 hl.references, hvalues]
    rfl
  have hfield : lookupEntry key (Expansion.withGroup fields grouped).entries =
      some (.arr values) := by
    show (Expansion.withGroup fields grouped).get? key = _
    rw [get?_withGroup fields hmade, Node.toMap, hwritten]
    rfl
  rw [(Leaf.fields_of_ofFields hread).1,
    get?_conditionFields (Expansion.withGroup fields grouped).sorted, if_pos hkey, hfield]
  rfl

/-- An expanded leaf that holds has met one of the conditions, if they have a group of its fields to
themselves. -/
theorem exists_isMet_of_leaf (hgroup : group conditions included mode = .ok grouped) {l read : Leaf}
    (hmade : grouped.node = some (.leaf l))
    (hread : Leaf.ofFields (Expansion.withGroup fields grouped).entries = .ok read)
    {fieldGroup : String → γ} (hasks : AsksFor fieldGroup (.leaf l) (.leaf read))
    {connection : Connection} (h : read.holds fieldGroup connection = true) :
    ∃ c ∈ conditions, c.isMet connection = true := by
  obtain ⟨hplain, key, hkey, halone⟩ := hasks
  obtain ⟨values, hvalues⟩ := Option.isSome_iff_exists.1 hkey
  cases onlyConditions_of_group hgroup hmade with
  | leaf hl =>
    have hsame {k : String} {vs : List Json} := @get?_conditions_of_written grouped fields l read hl
      hmade hread k vs
    have hcore := Connection.core_of_judge hplain h
    have hconditions := (Bool.and_eq_true_iff.1 hcore).1
    have hentry := SortedMap.mem_entries_iff.2 (hsame hvalues)
    obtain ⟨⟨k, vs⟩, hk, hholds⟩ :=
      List.any_eq_true.1 (List.all_eq_true.1 hconditions _ hentry)
    obtain ⟨hshared, hmet⟩ := Bool.and_eq_true_iff.1 hholds
    -- The alternative that is met is one of those written, as no other field shares the group.
    have hread := SortedMap.mem_entries_iff.1 hk
    obtain ⟨written, hwritten⟩ := Option.isSome_iff_exists.1
      (halone k (by rw [hread]; rfl) (of_decide_eq_true hshared))
    obtain rfl : written = vs := Option.some.inj ((hsame hwritten).symm.trans hread)
    obtain ⟨v, hv, hmeets⟩ := List.any_eq_true.1 hmet
    rcases shape_of_group hgroup hmade with ⟨isProcess, _, hl⟩ | ⟨_, hl⟩
    · obtain rfl := Node.leaf.inj hl
      obtain ⟨_, rfl⟩ := Leaf.mem_entries_pushAll.1 (SortedMap.mem_entries_iff.2 hwritten)
      exact exists_isMet_of_someHolds
        (List.any_eq_true.2 ⟨(k, v), mem_valuesOf.1 hv, hmeets⟩)
    · cases hl

/-- An expanded rule with a pair of leaves has these as its children. -/
theorem ofJson_of_pair (hgroup : group conditions included mode = .ok grouped) {m : Mode}
    {children : List Node} {extra : SortedMap Json}
    (hmade : grouped.node = some (.logical m children extra)) :
    Node.ofJson (.ofMap (Expansion.withGroup fields grouped)) =
      .ok (.logical m children (logicalExtra (Expansion.withGroup fields grouped).entries)) := by
  have hget : ∀ key value, (Node.logical m children extra).toMap.get? key = some value →
      lookupEntry key (Expansion.withGroup fields grouped).entries = some value := by
    intro key value hvalue
    show (Expansion.withGroup fields grouped).get? key = _
    rw [get?_withGroup fields hmade, hvalue]
    rfl
  have hwritten := Node.get?_toMap_logical m children extra
  refine Node.ofJson_of_lookupEntry (hget _ _ (hwritten "type")) (hget _ _ (hwritten "mode"))
    (hget _ _ (hwritten "rules")) ?_
  cases onlyConditions_of_group hgroup hmade with
  | logical hchildren => exact fun child hchild => Node.ofJson_toJson (hchildren child hchild).isPlaced

/-- An expanded rule with a pair of leaves that holds has met one of the conditions. -/
theorem exists_isMet_of_pair (hgroup : group conditions included mode = .ok grouped) {m : Mode}
    {children : List Node} {extra : SortedMap Json}
    (hmade : grouped.node = some (.logical m children extra)) {read : Node}
    (hread : Node.ofJson (.ofMap (Expansion.withGroup fields grouped)) = .ok read)
    (hplain : isInverted read.extra = false) {fieldGroup : String → γ} {connection : Connection}
    (h : read.holds fieldGroup connection = true) :
    ∃ c ∈ conditions, c.isMet connection = true := by
  obtain rfl := Except.ok.inj ((ofJson_of_pair hgroup hmade).symm.trans hread)
  rw [Node.holds_logical] at h
  have hjoin := Connection.core_of_judge hplain h
  rcases shape_of_group hgroup hmade with ⟨_, _, hshape⟩ | ⟨hsides, hshape⟩
  · cases hshape
  · obtain ⟨rfl, rfl, rfl⟩ := Node.logical.inj hshape
    have hone : (sideLeaf included true conditions).holds fieldGroup connection = true ∨
        (sideLeaf included false conditions).holds fieldGroup connection = true := by
      cases m with
      | and => exact .inl (Bool.and_eq_true_iff.1 hjoin).1
      | or => simpa [Mode.join] using hjoin
    rcases hone with hone | hone
    · exact exists_isMet_of_holds fieldGroup (hsides true) hone
    · exact exists_isMet_of_holds fieldGroup (hsides false) hone

/-- An expanded rule that still asks for the conditions and holds has met one of them. -/
theorem exists_isMet_of_asksFor (hgroup : group conditions included mode = .ok grouped)
    {made read : Node} (hmade : grouped.node = some made)
    (hread : Node.ofJson (.ofMap (Expansion.withGroup fields grouped)) = .ok read)
    {fieldGroup : String → γ} (hasks : AsksFor fieldGroup made read) {connection : Connection}
    (h : read.holds fieldGroup connection = true) :
    ∃ c ∈ conditions, c.isMet connection = true := by
  cases made with
  | logical m children extra => exact exists_isMet_of_pair hgroup hmade hread hasks.1 h
  | leaf l =>
    cases read with
    | logical m children extra => exact hasks.2.elim
    | leaf read =>
      cases hlogical : isLogical (Expansion.withGroup fields grouped).entries with
      | true =>
        obtain ⟨_, _, _, _, hread⟩ := (Node.ofJson_logical_eq_ok_iff hlogical).1 hread
        cases hread
      | false =>
        obtain ⟨_, hfields, hread⟩ := (Node.ofJson_leaf_eq_ok_iff hlogical).1 hread
        obtain rfl := Node.leaf.inj hread
        exact exists_isMet_of_leaf hgroup hmade hfields hasks h

end Expanded

/-! ## Rules without conditions -/

/-- The connection that meets no condition and is in no rule set, but passes all else. -/
def Connection.bare : Connection :=
  ⟨fun _ _ => false, fun _ => false, fun _ _ => true⟩

/-- A bare connection meets no condition. -/
theorem isMet_bare (c : Condition) : c.isMet .bare = false := by
  unfold Condition.isMet
  split <;> rfl

/-- A rule without conditions matches a connection that meets none. -/
theorem holds_of_isEmpty {l : Leaf} (hempty : l.isEmpty = true)
    (hplain : isInverted l.extra = false) (group : String → γ) :
    l.holds group .bare = true := by
  obtain ⟨hconditions, hreferences⟩ := Bool.and_eq_true_iff.1 hempty
  have hnone : l.conditions = .empty := SortedMap.isEmpty_iff.1 hconditions
  rw [Leaf.holds, Leaf.referencesHold, hreferences, hnone, Connection.judge, hplain]
  simp [Leaf.conditionsHold, SortedMap.empty, Connection.bare]

/-! ## Rules with filters -/

/-- What an object with filters becomes, and what this means: as long as it still asks for the
conditions that the filters resolve to, it matches no connection that meets none of them.  When no
condition is left, it keeps its other fields alone, and if these are no conditions, it matches a
connection that meets none. -/
def Expansion.Narrows (x : Expansion σ) (group : String → γ) (fields : List (String × Json))
    (value : Json) : Prop :=
  ∃ conditions grouped, x.FilledBy fields conditions grouped value ∧
    (∀ made read, grouped.node = some made → Node.ofJson value = .ok read →
      AsksFor group made read → ∀ connection : Connection, read.holds group connection = true →
        ∃ c ∈ conditions, c.isMet connection = true) ∧
    (grouped.node = none ↔ ∀ c ∈ conditions, isWanted x.included c = true →
      ∀ field, c.singBoxField ≠ .ok field) ∧
    (grouped.node = none → value = .ofMap ((SortedMap.ofList fields).erase filtersKey) ∧
      ∀ l, Node.ofJson value = .ok (.leaf l) → l.isEmpty = true → isInverted l.extra = false →
        ∃ connection : Connection, l.holds group connection = true ∧
          ∀ c ∈ conditions, c.isMet connection = false)

/-- Every object with filters becomes one that matches as it should while it asks for the
conditions. -/
theorem Expansion.Fills.narrows {x : Expansion σ} {fields : List (String × Json)} {value : Json}
    (h : x.Fills fields value) (group : String → γ) : x.Narrows group fields value := by
  obtain ⟨conditions, grouped, hresolves, hgrouped, rfl⟩ := h
  refine ⟨conditions, grouped, ⟨hresolves, hgrouped, rfl⟩, ?_, node_eq_none_iff hgrouped,
    fun hnone => ⟨?_, ?_⟩⟩
  · intro made read hmade hread hasks connection hholds
    exact exists_isMet_of_asksFor hgrouped hmade hread hasks hholds
  · rw [withGroup, hnone]
  · intro l _ hempty hplain
    exact ⟨.bare, holds_of_isEmpty hempty hplain group, fun c _ => isMet_bare c⟩

/-- A configuration that is made has every object with filters, in the section for name queries and
in the rules of the template, replaced by one that matches no connection without one of the
conditions that its filters resolve to, as long as it still asks for them. -/
theorem generate_narrows (group : String → γ) {g : Generator σ} {rules : List RouteRule}
    {template : Json} {before after : World σ} {made : Document}
    (h : (g.generate rules template).Yields before made after) :
    Option.Rel (Expands ((g.expansion true).Narrows group)) ((sectionsOf template).get? "dns")
        ((sectionsOf made.content).get? "dns") ∧
      ∃ d between, (g.draft rules template).Yields before d between ∧
        List.Forall₂ (Expands ((g.expansion false).Narrows group)) (routeRulesOf template)
          d.routes.template ∧
        (g.compiler = none →
          (routeRulesOf made.content).take (routeRulesOf template).length = d.routes.template) := by
  obtain ⟨d, between, hdraft, hcomplete⟩ := Generator.exists_draft_of_yields h
  have hdrafts := Generator.drafts_of_yields hdraft
  obtain ⟨routes, _, hroutes, rfl⟩ := Generator.eq_of_complete hcomplete
  have hnarrows : ∀ forDns fields value, (g.expansion forDns).Fills fields value →
      (g.expansion forDns).Narrows group fields value :=
    fun _ _ _ hfills => hfills.narrows group
  refine ⟨?_, d, between, hdraft, ?_, fun hcompiler => ?_⟩
  · rw [sectionsOf_configuration, SortedMap.get?_insert, if_neg (by decide)]
    have hdns := hdrafts.dns
    generalize (sectionsOf template).get? "dns" = old, d.document.get? "dns" = new at hdns ⊢
    cases hdns with
    | none => exact .none
    | some hexpands => exact .some (hexpands.imp (hnarrows true))
  · exact hdrafts.templateRules.imp fun _ _ hexpands => hexpands.imp (hnarrows false)
  · obtain rfl := Generator.eq_of_compileRoutes hcompiler hroutes
    rw [routeRulesOf_configuration, hdrafts.templateRules.length_eq, List.take_left]

/-- A generator that keeps no conditions on processes. -/
def plainGenerator : Generator Unit :=
  { options := .standard
    destinations := .ofNames []
    remote := fun _ => .ofDocuments .empty
    compiler := none }

/-- A world without files. -/
def emptyWorld : World Unit :=
  ⟨⟨[], []⟩, (), []⟩

/-- The fields of a rule with filters beside others. -/
def filteredFields : List (String × Json) :=
  [("filters", .arr [.str "DOMAIN-SUFFIX,b.com"]), ("outbound", .str "PROXY"),
    ("port", .arr [.int 443])]

/-- A template with filters beside other fields, in the section for name queries and in a rule. -/
def filteredTemplate : Json :=
  .obj
    [("dns", .obj [("rules", .arr
        [.obj [("filters", .arr [.str "DOMAIN,a.com", .str "PROCESS-NAME,curl"]),
          ("server", .str "local")]])]),
      ("route", .obj [("final", .str "DIRECT"), ("rules", .arr [.obj filteredFields])])]

/-- The expanded rule of the template. -/
def expandedRule : Json :=
  .obj [("domain_suffix", .arr [.str "b.com"]), ("outbound", .str "PROXY"),
    ("port", .arr [.int 443])]

set_option maxRecDepth 4000 in
theorem generate_narrows_filteredTemplate :
    ∃ made after node,
      (plainGenerator.generate [] filteredTemplate).Yields emptyWorld made after ∧
      routeRulesOf made.content = [expandedRule] ∧ Node.ofJson expandedRule = .ok node ∧
      ∀ connection : Connection, node.holds id connection = true →
        (Condition.on .domainSuffix "b.com" none).isMet connection = true := by
  obtain ⟨made, after, hmade, hrules⟩ := Task.exists_of_succeedsWith (show
    (plainGenerator.generate [] filteredTemplate).succeedsWith emptyWorld (fun made =>
      routeRulesOf made.content = [expandedRule]) = true by decide +kernel)
  rw [decide_eq_true_eq] at hrules
  obtain ⟨_, d, _, _, hexpands, htake⟩ := generate_narrows id hmade
  have htemplate : routeRulesOf filteredTemplate = [.obj filteredFields] := by decide +kernel
  rw [← htake rfl, hrules, htemplate] at hexpands
  obtain ⟨hrule, _⟩ := List.forall₂_cons.1 hexpands
  obtain ⟨l, hread, hplain⟩ :
      ∃ l, Node.ofJson expandedRule = .ok (.leaf l) ∧ isInverted l.extra = false := ⟨_, rfl, rfl⟩
  refine ⟨made, after, _, hmade, hrules, hread, fun connection hholds => ?_⟩
  obtain ⟨conditions, grouped, ⟨hresolves, hgrouped, _⟩, hmeets, _⟩ :=
    (Expands.filters_iff rfl).1 hrule
  obtain ⟨value, filters, files, start, _, hvalue, hfilters, hconditions⟩ := hresolves
  obtain rfl : .arr [.str "DOMAIN-SUFFIX,b.com"] = value := Option.some.inj hvalue
  obtain rfl : [.literal "DOMAIN-SUFFIX,b.com"] = filters := Except.ok.inj hfilters
  obtain rfl : [.on .domainSuffix "b.com" none] = conditions :=
    Except.ok.inj (congrArg Prod.fst hconditions)
  obtain rfl := Except.ok.inj hgrouped
  have hkey : ((sideLeaf [] false [.on .domainSuffix "b.com" none]).conditions.get?
      "domain_suffix").isSome = true := rfl
  obtain ⟨c, hc, hmet⟩ := hmeets _ _ rfl hread (asksFor_id hplain hkey) connection hholds
  rwa [List.mem_singleton.1 hc] at hmet

/-- The fields of a rule whose only condition is one on a process. -/
def droppedFields : List (String × Json) :=
  [("filters", .arr [.str "PROCESS-NAME,curl"]), ("outbound", .str "DIRECT")]

/-- A template with a rule whose only condition is one on a process. -/
def droppedTemplate : Json :=
  .obj [("route", .obj [("final", .str "PROXY"), ("rules", .arr [.obj droppedFields])])]

set_option maxRecDepth 4000 in
/-- When the only condition is dropped, the rule matches every connection, also those that do not
meet the condition. -/
theorem generate_droppedTemplate_matches_all :
    ∃ made after rule conditions,
      (plainGenerator.generate [] droppedTemplate).Yields emptyWorld made after ∧
      routeRulesOf droppedTemplate = [.obj droppedFields] ∧
      (plainGenerator.expansion false).Resolves droppedFields conditions ∧
      routeRulesOf made.content = [.obj [("outbound", .str "DIRECT")]] ∧
      Rule.ofJson (.obj [("outbound", .str "DIRECT")]) = .ok rule ∧
      (∀ connection : Connection, rule.node.holds fieldGroup connection = true) ∧
      ∃ connection : Connection, ∀ c ∈ conditions, c.isMet connection = false := by
  obtain ⟨made, after, hmade, hrules⟩ := Task.exists_of_succeedsWith (show
    (plainGenerator.generate [] droppedTemplate).succeedsWith emptyWorld (fun made =>
      routeRulesOf made.content = [.obj [("outbound", .str "DIRECT")]]) = true by decide +kernel)
  have hresolves : (plainGenerator.expansion false).Resolves droppedFields
      [.on .processName "curl" none] :=
    ⟨_, [.literal "PROCESS-NAME,curl"], ⟨[], []⟩, (), (), rfl, rfl, rfl⟩
  have hread : Rule.ofJson (.obj [("outbound", .str "DIRECT")]) =
      .ok ⟨.route "DIRECT", .leaf .empty⟩ := rfl
  exact ⟨made, after, _, _, hmade, by decide +kernel, hresolves, of_decide_eq_true hrules, hread,
    fun _ => rfl, .bare, fun c _ => isMet_bare c⟩

end RoutingRules.SingBox
