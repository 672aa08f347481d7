import RoutingRules.Proofs.SingBox.FiltersLeft

/-!
# Filters for name queries

Rules about name queries are expanded like the rules of the routing section, but only with the
conditions that can decide about a query: those on domains and on the names of processes.  This
module says what is left out, which is the same whether one filter is resolved or many of them, and
which fields the rest is written to.

Main results:

- Theorem {lit}`Filter.conditions_forDns`: a filter for name queries resolves to some of its
  conditions, or fails as it does otherwise.
- Theorem {lit}`Filter.conditionsOfAll_forDns`: so do several filters.
- Theorem {lit}`lacksKey_of_group_forDns`: conditions that can decide about name queries are written
  to no other fields.
- Theorem {lit}`generate_writesForDns`: the same for all filters and for all configurations.
-/

namespace RoutingRules

variable {σ : Type}

/-! ## Conditions that are left -/

namespace Filter

/-- The conditions that can decide about name queries. -/
def keptForDns (conditions : List Condition) : List Condition :=
  conditions.filter fun c => c.kind.isDnsCompatible

variable {fetch : Fetcher σ} {forDns : Bool}

/-- For name queries a filter is resolved in the same way, and some of its conditions are left out
afterwards. -/
theorem conditions_forDns (fetch : Fetcher σ) (filter : Filter) :
    filter.conditions fetch true = keptForDns <$> filter.conditions fetch false := by
  unfold conditions
  rw [map_bind]
  refine bind_congr fun all => ?_
  by_cases hall : all = []
  · simp only [hall, if_true, map_bind]
    rfl
  · simp only [hall, if_false]
    rfl

/-- Several filters are resolved one by one in the same way. -/
theorem mapM_conditions_forDns (fetch : Fetcher σ) (filters : List Filter) :
    filters.mapM (conditions fetch true) =
      List.map keptForDns <$> filters.mapM (conditions fetch false) := by
  induction filters with
  | nil => rfl
  | cons filter filters ih =>
    rw [List.mapM_cons, List.mapM_cons, conditions_forDns, ih]
    simp only [map_eq_pure_bind, bind_assoc, pure_bind, List.map_cons]

/-- What is left of the conditions of several filters is what is left of all of them together. -/
theorem conditionsOfAll_forDns (fetch : Fetcher σ) (filters : List Filter) :
    conditionsOfAll fetch true filters = keptForDns <$> conditionsOfAll fetch false filters := by
  unfold conditionsOfAll
  rw [mapM_conditions_forDns, bind_map_left, map_bind]
  refine bind_congr fun parts => ?_
  rw [map_pure, keptForDns, List.filter_flatten]
  rfl

/-- A result that is changed afterwards comes with the same error and leaves the same state. -/
theorem run_map {α β : Type} (f : α → β) (request : Fetching σ α) (before : σ) :
    (f <$> request).run.run before =
      ((request.run.run before).1.map f, (request.run.run before).2) := by
  rw [map_eq_pure_bind]
  simp only [ExceptT.run_bind, StateT.run_bind]
  rcases request.run.run before with ⟨answer | answer, after⟩ <;> rfl

end Filter

/-! ## Fields that are written -/

namespace SingBox

/-- The fields of conditions that can decide about name queries.  The names of processes are among
them only if they are kept. -/
def dnsFields (included : List Kind) : List String :=
  ["domain", "domain_suffix", "domain_keyword", "domain_regex"] ++
    if included.contains .processName then ["process_name"] else []

variable {included : List Kind} {key : String}

/-- A condition that can decide about name queries is written to no other field. -/
theorem mem_dnsFields {c : Condition} (hdns : c.kind.isDnsCompatible = true)
    (hwanted : isWanted included c = true) {field : String × Json}
    (hfield : c.singBoxField = .ok field) : field.1 ∈ dnsFields included := by
  have hkeys := Condition.mem_keys_of_singBoxField hfield
  unfold isWanted at hwanted
  unfold dnsFields
  generalize c.kind = kind at hdns hwanted hkeys
  cases kind with
  | processName =>
    have hkey : field.1 = "process_name" := List.mem_singleton.1 hkeys
    have hincluded : included.contains .processName = true := hwanted
    rw [hkey, if_pos hincluded]
    simp
  | domain | domainSuffix | domainKeyword | domainRegex | domainWildcard | domainListItem =>
    simp only [Kind.keys, List.mem_cons, List.not_mem_nil, or_false] at hkeys
    simp only [List.mem_append, List.mem_cons, List.not_mem_nil, or_false]
    tauto
  | _ => cases hdns

/-- A leaf of pushed fields has a key only if one of them has it. -/
theorem Leaf.lacksKey_pushAll {fields : List (String × Json)}
    (h : ∀ f ∈ fields, f.1 ≠ key ∧ f.2.isPlain = true) :
    (Json.ofMap (empty.pushAll fields).toMap).lacksKey key = true := by
  rw [Json.lacksKey_ofMap_iff]
  intro name value hvalue
  rw [get?_toMap, references_pushAll, extra_pushAll, if_neg (fun hboth => hboth.2 rfl)] at hvalue
  have hconditions : ((empty.pushAll fields).conditions.get? name).map Json.arr = some value := by
    rw [← hvalue]
    exact (Option.or_none).symm
  obtain ⟨values, hvalues, rfl⟩ := Option.map_eq_some_iff.1 hconditions
  obtain ⟨hne, rfl⟩ := mem_entries_pushAll.1 (SortedMap.mem_entries_iff.2 hvalues)
  have hpushed : ∀ v ∈ valuesOf name fields, name ≠ key ∧ v.isPlain = true := by
    intro v hv
    exact h (name, v) (mem_valuesOf.1 hv)
  obtain ⟨v, hv⟩ := List.exists_mem_of_ne_nil _ hne
  refine ⟨(hpushed v hv).1, ?_⟩
  rw [Json.lacksKey_arr_iff]
  intro item hitem
  exact Json.lacksKey_of_isPlain (hpushed item hitem).2

/-- Conditions that can decide about name queries are written to their fields and to those of a
logical rule, and to no others inside of it. -/
theorem lacksKey_of_group_forDns {conditions : List Condition} {mode : Mode} {grouped : Grouped}
    (h : group conditions included mode = .ok grouped) {node : Node}
    (hnode : grouped.node = some node)
    (hdns : ∀ c ∈ conditions, c.kind.isDnsCompatible = true) (hkey : key ∉ dnsFields included)
    (hlogical : key ∉ ["type", "mode", "rules"]) : node.toJson.lacksKey key = true := by
  have hside : ∀ isProcess, (Node.leaf (Leaf.empty.pushAll
      (sideFields included isProcess conditions))).toJson.lacksKey key = true := by
    intro isProcess
    apply Leaf.lacksKey_pushAll
    intro f hf
    obtain ⟨c, hc, hwanted, _, hfield⟩ := mem_sideFields.1 hf
    refine ⟨?_, Condition.isPlain_of_singBoxField hfield⟩
    rintro rfl
    exact hkey (mem_dnsFields (hdns c hc) hwanted hfield)
  rw [node_of_group h] at hnode
  refine of_joinLeaves (p := fun node => node.toJson.lacksKey key = true) hnode (hside true)
    (hside false) (Node.lacksKey_toJson_logical hlogical rfl ?_)
  simp only [List.forall_mem_cons, List.not_mem_nil, false_implies, implies_true, and_true]
  exact ⟨hside true, hside false⟩

/-! ## Expanded values -/

/-- A value is one that an object with filters may become, the conditions that its filters resolve
to can decide about name queries, and what is written for them has no other fields than theirs and
those of a logical rule. -/
def Expansion.WritesForDns (x : Expansion σ) (fields : List (String × Json)) (value : Json) :
    Prop :=
  ∃ conditions grouped, x.FilledBy fields conditions grouped value ∧
    (∀ c ∈ conditions, c.kind.isDnsCompatible = true) ∧
    ∀ node ∈ grouped.node, ∀ key, key ∉ dnsFields x.included → key ∉ ["type", "mode", "rules"] →
      node.toJson.lacksKey key = true

/-- The filters of an object in the section for name queries resolve to conditions that can decide
about these. -/
theorem Expansion.Resolves.isDnsCompatible {x : Expansion σ} {fields : List (String × Json)}
    {conditions : List Condition} (hdns : x.forDns = true) (h : x.Resolves fields conditions) :
    ∀ c ∈ conditions, c.kind.isDnsCompatible = true := by
  obtain ⟨_, filters, files, before, after, _, _, hconditions⟩ := h
  rw [hdns, Filter.conditionsOfAll_forDns, Filter.run_map] at hconditions
  obtain ⟨all, _, rfl⟩ := Except.map_eq_ok_iff.1 (congrArg Prod.fst hconditions)
  intro c hc
  exact (List.mem_filter.1 hc).2

/-- Every object with filters in the section for name queries becomes one with the fields of
conditions that can decide about these. -/
theorem Expansion.Fills.writesForDns {x : Expansion σ} {fields : List (String × Json)}
    {value : Json} (hdns : x.forDns = true) (h : x.Fills fields value) :
    x.WritesForDns fields value := by
  obtain ⟨conditions, grouped, hresolves, hgrouped, hvalue⟩ := h
  have hall := hresolves.isDnsCompatible hdns
  refine ⟨conditions, grouped, ⟨hresolves, hgrouped, hvalue⟩, hall, ?_⟩
  intro node hnode key hkey hlogical
  exact lacksKey_of_group_forDns hgrouped hnode hall hkey hlogical

/-- For name queries every filter is resolved as it is otherwise, with the same error and the same
requests, and what is left are the conditions that can decide about these, in order.  In every
configuration that is made, the section for name queries is that of the template with every object
with filters replaced by one with the fields of such conditions: domains, and the names of processes
if these are kept. -/
theorem generate_writesForDns :
    (∀ (fetch : Fetcher σ) (filter : Filter) (before : σ),
      (filter.conditions fetch true).run.run before =
        (((filter.conditions fetch false).run.run before).1.map
            (List.filter fun c => c.kind.isDnsCompatible),
          ((filter.conditions fetch false).run.run before).2)) ∧
    ∀ (g : Generator σ) (rules : List RouteRule) (template : Json) (before : World σ)
      (made : Document) (after : World σ),
      (g.generate rules template).Yields before made after →
        Option.Rel (Expands (g.expansion true).WritesForDns) ((sectionsOf template).get? "dns")
          ((sectionsOf made.content).get? "dns") := by
  constructor
  · intro fetch filter before
    rw [Filter.conditions_forDns, Filter.run_map]
    rfl
  · intro g rules template before made after h
    obtain ⟨d, between, hdraft, hcomplete⟩ := Generator.exists_draft_of_yields h
    have hdns := (Generator.drafts_of_yields hdraft).dns
    obtain ⟨routes, _, _, rfl⟩ := Generator.eq_of_complete hcomplete
    rw [sectionsOf_configuration, SortedMap.get?_insert, if_neg (by decide)]
    generalize (sectionsOf template).get? "dns" = old, d.document.get? "dns" = new at hdns ⊢
    cases hdns with
    | none => exact .none
    | some hexpands =>
      refine .some (hexpands.imp ?_)
      intro fields value hfills
      exact hfills.writesForDns rfl

/-- A generator that keeps the names of processes. -/
def processGenerator : Generator Unit :=
  { plainGenerator with
    options := { Options.standard with includedKinds := some ["process-name"] } }

/-- A template with a rule about name queries that has filters on a domain, an address and a
process. -/
def queryTemplate : Json :=
  .obj
    [("dns", .obj [("rules", .arr
        [.obj [("filters", .arr [.str "DOMAIN-SUFFIX,a.com", .str "IP-CIDR,10.0.0.0/8,no-resolve",
            .str "PROCESS-NAME,curl"]),
          ("server", .str "local")]])]),
      ("route", .obj [("final", .str "DIRECT")])]

/-- The address is left out, and the process and the domain are written to a logical rule. -/
theorem generate_writesForDns_queryTemplate :
    ∃ made after, (processGenerator.generate [] queryTemplate).Yields emptyWorld made after ∧
      Option.Rel (Expands (processGenerator.expansion true).WritesForDns)
        ((sectionsOf queryTemplate).get? "dns") ((sectionsOf made.content).get? "dns") ∧
      (sectionsOf made.content).get? "dns" = some (.obj [("rules", .arr
        [.obj [("mode", .str "or"),
          ("rules", .arr
            [.obj [("process_name", .arr [.str "curl"])],
              .obj [("domain_suffix", .arr [.str "a.com"])]]),
          ("server", .str "local"), ("type", .str "logical")]])]) := by
  obtain ⟨made, after, hmade, hdns⟩ := Task.exists_of_succeedsWith (show
    (processGenerator.generate [] queryTemplate).succeedsWith emptyWorld (fun made =>
      (sectionsOf made.content).get? "dns" = some (.obj [("rules", .arr
        [.obj [("mode", .str "or"),
          ("rules", .arr
            [.obj [("process_name", .arr [.str "curl"])],
              .obj [("domain_suffix", .arr [.str "a.com"])]]),
          ("server", .str "local"), ("type", .str "logical")]])])) = true by decide +kernel)
  rw [decide_eq_true_eq] at hdns
  exact ⟨made, after, hmade, generate_writesForDns.2 _ _ _ _ _ _ hmade, hdns⟩

end SingBox

end RoutingRules
