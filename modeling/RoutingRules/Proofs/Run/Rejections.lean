import RoutingRules.Proofs.Line.Rendered
import RoutingRules.Proofs.Run.Renames
import RoutingRules.Proofs.SingBox.Outbounds
import RoutingRules.Run

/-!
# Rejections and their name

A configuration has a name for rejection, and reading a configuration turns this name into the
rejection itself.  New names of destinations are not read in this way: a rejection keeps its name,
and an outbound whose new name is that of rejection stays an outbound.  Every client then sends
connections there instead of rejecting them.

Main results:

- Theorem {lit}`Destination.renameAll_eq_rejectName_iff`: when replacements one after another give
  an outbound the name of rejection.
- Theorem {lit}`Config.isNamed_of_ofText?`: the destinations of a configuration are what their names
  stand for.
- Theorems {lit}`RenderedRules.exists_of_mem_lines` and
  {lit}`SingBox.Generator.exists_of_mem_routeRules`: what clients are told about where rules lead.
- Theorem {lit}`Run.isNamed_renameAll_and_written`: which rules of a configuration are written as
  rejections.
-/

namespace RoutingRules

/-! ## Destinations and their names -/

namespace Destination

/-- A destination is the one that its name stands for. -/
def IsNamed (d : Destination) : Prop :=
  ofName d.name = d

/-- The destination of a name is the one that its own name stands for. -/
theorem isNamed_ofName (name : String) : (ofName name).IsNamed := by
  unfold IsNamed ofName
  split
  · exact if_pos rfl
  · rename_i h
    exact if_neg h

/-- Only an outbound with the name of rejection is not what its name stands for. -/
theorem isNamed_iff {d : Destination} : d.IsNamed ↔ d ≠ outbound rejectName := by
  cases d with
  | reject => simp [IsNamed, ofName, name]
  | outbound n => by_cases h : n = rejectName <;> simp [IsNamed, ofName, name, h]

/-- A replacement leads to an outbound with the name of rejection when it gives its source this
name, or when it leaves such an outbound alone. -/
theorem rename_eq_rejectName_iff {source target : String} {d : Destination} :
    d.rename source target = outbound rejectName ↔
      d = outbound source ∧ target = rejectName ∨
        d = outbound rejectName ∧ source ≠ rejectName := by
  cases d with
  | reject => simp [rename]
  | outbound n =>
    by_cases h : n = source
    · subst h
      simp only [rename, if_true, outbound.injEq, true_and]
      exact ⟨.inl, fun h => h.elim id fun h => absurd h.1 h.2⟩
    · simp only [rename, outbound.injEq, h, false_and, false_or, if_false]
      exact ⟨fun hn => ⟨hn, fun hs => h (hn.trans hs.symm)⟩, And.left⟩

/-- Replacements are made one after another. -/
theorem renameAll_append_singleton (renames : List (String × String)) (r : String × String)
    (d : Destination) : d.renameAll (renames ++ [r]) = (d.renameAll renames).rename r.1 r.2 :=
  List.foldl_concat _ _ _ _

/-- One of some replacements gives a destination the name of rejection, and none behind it replaces
this name. -/
def TakesRejectName (renames : List (String × String)) (d : Destination) : Prop :=
  ∃ earlier source later, renames = earlier ++ (source, rejectName) :: later ∧
    d.renameAll earlier = outbound source ∧ ∀ r ∈ later, r.1 ≠ rejectName

/-- The last of some replacements gives a destination the name of rejection, or one in front of it
does and the last one does not replace this name. -/
theorem takesRejectName_append_singleton {renames : List (String × String)} {r : String × String}
    {d : Destination} :
    d.TakesRejectName (renames ++ [r]) ↔
      d.renameAll renames = outbound r.1 ∧ r.2 = rejectName ∨
        d.TakesRejectName renames ∧ r.1 ≠ rejectName := by
  constructor
  · rintro ⟨earlier, source, later, heq, hsource, hlater⟩
    rcases List.eq_nil_or_concat later with rfl | ⟨front, last, rfl⟩
    · obtain ⟨rfl, hr⟩ := List.append_inj' heq rfl
      obtain rfl := List.singleton_inj.1 hr
      exact .inl ⟨hsource, rfl⟩
    · rw [List.concat_eq_append, ← List.cons_append, ← List.append_assoc] at heq
      obtain ⟨rfl, hr⟩ := List.append_inj' heq rfl
      obtain rfl := List.singleton_inj.1 hr
      simp only [List.concat_eq_append, List.forall_mem_append, List.forall_mem_singleton]
        at hlater
      exact .inr ⟨⟨earlier, source, front, rfl, hsource, hlater.1⟩, hlater.2⟩
  · rintro (⟨hsource, hr⟩ | ⟨⟨earlier, source, later, rfl, hsource, hlater⟩, hr⟩)
    · refine ⟨renames, r.1, [], ?_, hsource, nofun⟩
      rw [← hr]
    · refine ⟨earlier, source, later ++ [r], by simp, hsource, ?_⟩
      exact List.forall_mem_append.2 ⟨hlater, List.forall_mem_singleton.2 hr⟩

/-- Replacements one after another lead a destination that is what its name stands for to an
outbound with the name of rejection when one of them gives it this name for good. -/
theorem renameAll_eq_rejectName_iff {renames : List (String × String)} {d : Destination}
    (h : d.IsNamed) : d.renameAll renames = outbound rejectName ↔ d.TakesRejectName renames := by
  induction renames using List.reverseRecOn with
  | nil =>
    refine ⟨fun heq => absurd heq (isNamed_iff.1 h), ?_⟩
    rintro ⟨earlier, source, later, heq, _⟩
    simp at heq
  | append_singleton renames r ih =>
    rw [renameAll_append_singleton, rename_eq_rejectName_iff, takesRejectName_append_singleton, ih]

/-- A destination stays what its name stands for when no replacement gives it the name of rejection
for good. -/
theorem isNamed_renameAll_iff {renames : List (String × String)} {d : Destination}
    (h : d.IsNamed) : (d.renameAll renames).IsNamed ↔ ¬d.TakesRejectName renames := by
  rw [isNamed_iff, ne_eq, renameAll_eq_rejectName_iff h]

end Destination

/-! ## Destinations of configurations -/

/-- The entries of a list that is read are read one by one. -/
theorem Yaml.Decode.exists_of_mem_list {α : Type} {read : Yaml.Expanded → Option α}
    {node : Yaml.Expanded} {values : List α} (h : list read node = some values) {value : α}
    (hvalue : value ∈ values) : ∃ item, read item = some value := by
  unfold list at h
  split at h
  next items =>
    induction items generalizing values with
    | nil =>
      obtain rfl := Option.some.inj h
      cases hvalue
    | cons item items ih =>
      rw [List.mapM_cons] at h
      obtain ⟨first, hfirst, h⟩ := Option.bind_eq_some_iff.1 h
      obtain ⟨others, hothers, h⟩ := Option.bind_eq_some_iff.1 h
      obtain rfl := Option.some.inj h
      rcases List.mem_cons.1 hvalue with rfl | hmem
      · exact ⟨item, hfirst⟩
      · exact ih hmem hothers
  next =>
    split at h
    · obtain rfl := Option.some.inj h
      cases hvalue
    · cases h

namespace Config

/-- The destination of a rule that is read is the one of a name. -/
theorem isNamed_of_readRule {node : Yaml.Expanded} {rule : Rule} (h : readRule node = some rule) :
    rule.destination.IsNamed := by
  obtain ⟨fs, _, h⟩ := Option.bind_eq_some_iff.1 h
  obtain ⟨name, _, h⟩ := Option.bind_eq_some_iff.1 h
  obtain ⟨filters, _, h⟩ := Option.bind_eq_some_iff.1 h
  obtain rfl := Option.some.inj h
  exact Destination.isNamed_ofName name

/-- The destinations of a configuration are what their names stand for. -/
theorem isNamed_of_ofText? {text : String} {config : Config} (h : ofText? text = some config) :
    ∀ rule ∈ config.rules, rule.destination.IsNamed := by
  obtain ⟨node?, _, h⟩ := Option.bind_eq_some_iff.1 h
  cases node? with
  | none => cases h
  | some node =>
    obtain ⟨fs, _, h⟩ := Option.bind_eq_some_iff.1 h
    obtain ⟨destinations, _, h⟩ := Option.bind_eq_some_iff.1 h
    obtain ⟨rules, hrules, h⟩ := Option.bind_eq_some_iff.1 h
    obtain ⟨targets, _, h⟩ := Option.bind_eq_some_iff.1 h
    obtain rfl := Option.some.inj h
    obtain ⟨field, _, hrules⟩ := Option.bind_eq_some_iff.1 hrules
    intro rule hrule
    obtain ⟨item, hitem⟩ := Yaml.Decode.exists_of_mem_list hrules hrule
    exact isNamed_of_readRule hitem

end Config

namespace Run

variable {σ : Type} {before after : World σ}

/-- Resolving a rule keeps its destination. -/
theorem destination_of_resolveRule {remote : Task.Remote σ} {table : DestinationTable}
    {index : Nat} {rule : Config.Rule} {resolved : RouteRule}
    (h : (resolveRule remote table index rule).Yields before resolved after) :
    resolved.destination = rule.destination := by
  unfold resolveRule at h
  split at h
  next => exact absurd h Task.not_yields_throw
  next =>
    simp only [Task.yields_bind, Task.yields_pure] at h
    obtain ⟨_, _, _, rfl, _⟩ := h
    rfl

/-- Resolving rules keeps their destinations. -/
theorem destinations_of_resolveRules {remote : Task.Remote σ} {table : DestinationTable}
    {index : Nat} {rules : List Config.Rule} {resolved : List RouteRule}
    (h : (resolveRules remote table index rules).Yields before resolved after) :
    resolved.map RouteRule.destination = rules.map Config.Rule.destination := by
  induction rules generalizing index before after resolved with
  | nil =>
    obtain ⟨rfl, _⟩ := Task.yields_pure.1 h
    rfl
  | cons rule rules ih =>
    simp only [resolveRules, Task.yields_bind, Task.yields_pure] at h
    obtain ⟨first, _, hfirst, others, _, hothers, rfl, _⟩ := h
    rw [List.map_cons, List.map_cons, ih hothers, destination_of_resolveRule hfirst]

end Run

/-! ## Rules as they are written -/

/-- Each line is that of a condition with the word for the destination of its rule. -/
theorem RenderedRules.exists_of_mem_lines {client : LineClient} {rules : List RouteRule}
    {rendered : RenderedRules} (h : ofRules client rules = .ok rendered) {line : String}
    (hline : line ∈ rendered.lines) :
    ∃ rule ∈ rules, ∃ c ∈ rule.conditions, line = Text.joinWith ","
      (withDestination (client.destinationName rule.destination) (c.writtenFields client)) := by
  rw [ofRules_eq] at h
  split at h
  next => cases h
  next =>
    obtain rfl := Except.ok.inj h
    obtain ⟨p, hp, rfl⟩ := List.mem_map.1 hline
    obtain ⟨hmem, _⟩ := mem_inStages.1 ((firstOf_sublist _ _).subset hp)
    obtain ⟨rule, hrule, hmem⟩ := List.mem_flatMap.1 hmem
    obtain ⟨c, hc, rfl⟩ := List.mem_map.1 hmem
    exact ⟨rule, hrule, c, hc, rfl⟩

namespace SingBox

/-- What a rule object says about where it leads. -/
def Action.IsSaidBy (value : Json) : Action → Prop
  | .route name =>
    value.field? "action" = some (.str "route") ∧ value.field? "outbound" = some (.str name)
  | .reject => value.field? "action" = some (.str "reject") ∧ value.field? "outbound" = none

/-- A rule without an outbound among its conditions and other fields says where it leads. -/
theorem Rule.isSaidBy_toJson {rule : Rule} (h : rule.node.toMap.get? "outbound" = none) :
    rule.action.IsSaidBy rule.toJson := by
  obtain ⟨action, node⟩ := rule
  cases action with
  | route name =>
    constructor
    · show ((node.toMap.insert _ _).insert _ _).get? _ = _
      rw [SortedMap.get?_insert, if_neg (by decide), SortedMap.get?_insert, if_pos rfl]
    · show ((node.toMap.insert _ _).insert _ _).get? _ = _
      rw [SortedMap.get?_insert, if_pos rfl]
  | reject =>
    constructor
    · show (node.toMap.insert _ _).get? _ = _
      rw [SortedMap.get?_insert, if_pos rfl]
    · show (node.toMap.insert _ _).get? _ = _
      rw [SortedMap.get?_insert, if_neg (by decide)]
      exact h

/-- Each rule of a configuration behind those of its template leads where a routing rule does. -/
theorem Generator.exists_of_mem_routeRules {σ : Type} {g : Generator σ} {rules : List RouteRule}
    {template : Json} {before after : World σ} {made : Document}
    (h : (g.generate rules template).Yields before made after) {value : Json}
    (hvalue : value ∈ (routeRulesOf made.content).drop (routeRulesOf template).length) :
    ∃ rule ∈ rules, (Action.ofDestination rule.destination).IsSaidBy value := by
  obtain ⟨d, _, routes, _, _, hdraft, hroutes, rfl⟩ := exists_routes_of_yields h
  have hdrafts := drafts_of_yields hdraft
  obtain ⟨hold, hnew⟩ := forall₂_of_compileRoutes hroutes
  rw [routeRulesOf_configuration, hdrafts.templateRules.length_eq, hold.length_eq,
    List.drop_left] at hvalue
  obtain ⟨rest, hrest, rfl⟩ := List.mem_map.1 hvalue
  obtain ⟨made, hmade, hremains⟩ := exists_mem_of_forall₂ hnew hrest
  obtain ⟨rule, hrule, ⟨haction, _⟩, _⟩ := hdrafts.exists_madeOf hmade
  have hnone := hdrafts.get?_outbound_made made hmade
  refine ⟨rule, hrule, haction ▸ ?_⟩
  rcases hremains with rfl | ⟨tag, rfl⟩
  · exact Rule.isSaidBy_toJson hnone
  · exact Rule.isSaidBy_toJson (Node.get?_outbound_remainder hnone _ tag)

end SingBox

/-- What is written for the destination of a rule after replacements of names: that for an outbound
with the name of rejection if one of them gives it this name for good, and otherwise that for the
destination that its new name stands for. -/
structure RouteRule.IsWritten {α : Type} (rule : RouteRule) (renames : List (String × String))
    (write : Destination → α) (written : α) : Prop where
  takes : rule.destination.TakesRejectName renames →
    written = write (.outbound Destination.rejectName)
  named : ¬rule.destination.TakesRejectName renames →
    written = write (.ofName (rule.renameAll renames).destination.name)

/-- What is written for the new destination of a rule. -/
theorem RouteRule.isWritten_renameAll {α : Type} {rule : RouteRule} (h : rule.destination.IsNamed)
    (renames : List (String × String)) (write : Destination → α) :
    rule.IsWritten renames write (write (rule.renameAll renames).destination) :=
  ⟨fun htakes => congrArg write ((Destination.renameAll_eq_rejectName_iff h).2 htakes),
    fun hnot => congrArg write ((Destination.isNamed_renameAll_iff h).2 hnot).symm⟩

namespace Run

variable {σ : Type} {before after : World σ}

/-- The destinations of rules that were resolved are what their names stand for. -/
theorem isNamed_of_resolveRules {text : String} {config : Config}
    (hconfig : Config.ofText? text = some config) {remote : Task.Remote σ}
    {table : DestinationTable} {index : Nat} {rules : List RouteRule}
    (hrules : (resolveRules remote table index config.rules).Yields before rules after) :
    ∀ rule ∈ rules, rule.destination.IsNamed := by
  intro rule hrule
  have hmem : rule.destination ∈ rules.map RouteRule.destination := List.mem_map_of_mem hrule
  rw [destinations_of_resolveRules hrules] at hmem
  obtain ⟨read, hread, heq⟩ := List.mem_map.1 hmem
  exact heq ▸ Config.isNamed_of_ofText? hconfig read hread

/-- A rule of a configuration is, after any replacements of names, to a destination that is what its
name stands for unless one of them gives it the name of rejection for good.  Clients with lines and
sing-box are told the destination that its new name stands for, so a rejection for the name of
rejection, but in that case an outbound with this name. -/
theorem isNamed_renameAll_and_written {text : String} {config : Config}
    (hconfig : Config.ofText? text = some config) {remote : Task.Remote σ}
    {table : DestinationTable} {index : Nat} {rules : List RouteRule}
    (hrules : (resolveRules remote table index config.rules).Yields before rules after)
    (renames : List (String × String)) :
    (∀ rule ∈ rules, (rule.renameAll renames).destination.IsNamed ↔
      ¬rule.destination.TakesRejectName renames) ∧
    (∀ client rendered,
      RenderedRules.ofRules client (rules.map (RouteRule.renameAll renames)) = .ok rendered →
      ∀ line ∈ rendered.lines, ∃ rule ∈ rules, ∃ c ∈ rule.conditions, ∃ word,
        line = Text.joinWith "," (withDestination word (c.writtenFields client)) ∧
        rule.IsWritten renames client.destinationName word) ∧
    ∀ (g : SingBox.Generator σ) template (w w' : World σ) made,
      (g.generate (rules.map (RouteRule.renameAll renames)) template).Yields w made w' →
      ∀ value ∈ (SingBox.routeRulesOf made.content).drop (SingBox.routeRulesOf template).length,
        ∃ rule ∈ rules, ∃ action : SingBox.Action, action.IsSaidBy value ∧
          rule.IsWritten renames SingBox.Action.ofDestination action := by
  have hnamed := isNamed_of_resolveRules hconfig hrules
  refine ⟨fun rule hrule => ?_, fun client rendered hok line hline => ?_,
    fun g template w w' made hmade value hvalue => ?_⟩
  · exact Destination.isNamed_renameAll_iff (hnamed rule hrule)
  · obtain ⟨_, hmem, c, hc, hword⟩ := RenderedRules.exists_of_mem_lines hok hline
    obtain ⟨rule, hrule, rfl⟩ := List.mem_map.1 hmem
    exact ⟨rule, hrule, c, hc, _, hword, RouteRule.isWritten_renameAll (hnamed rule hrule) _ _⟩
  · obtain ⟨_, hmem, hsaid⟩ := SingBox.Generator.exists_of_mem_routeRules hmade hvalue
    obtain ⟨rule, hrule, rfl⟩ := List.mem_map.1 hmem
    exact ⟨rule, hrule, _, hsaid, RouteRule.isWritten_renameAll (hnamed rule hrule) _ _⟩

/-- A configuration with a rule to an outbound and one that rejects. -/
def rejectingText : String :=
  "destinations: [A]\nrules:\n- destination: A\n  filters:\n  - DOMAIN,a.com\n" ++
    "- destination: REJECT\n  filters:\n  - DOMAIN,b.com\ntargets: []\n"

theorem isNamed_renameAll_and_written_rejectingText :
    ∃ config rules after, Config.ofText? rejectingText = some config ∧
      (resolveRules chainedRun.remote (.ofNames config.destinations) 0 config.rules).Yields
        ⟨⟨[], []⟩, (), []⟩ rules after ∧
      rules.map RouteRule.destination = [.outbound "A", .reject] ∧
      (∀ rule ∈ rules, (rule.renameAll [("A", "REJECT")]).destination.IsNamed ↔
        ¬rule.destination.TakesRejectName [("A", "REJECT")]) ∧
      (∀ client rendered,
        RenderedRules.ofRules client (rules.map (RouteRule.renameAll [("A", "REJECT")])) =
          .ok rendered →
        ∀ line ∈ rendered.lines, ∃ rule ∈ rules, ∃ c ∈ rule.conditions, ∃ word,
          line = Text.joinWith "," (withDestination word (c.writtenFields client)) ∧
          rule.IsWritten [("A", "REJECT")] client.destinationName word) ∧
      ∀ (g : SingBox.Generator Unit) template (w w' : World Unit) made,
        (g.generate (rules.map (RouteRule.renameAll [("A", "REJECT")])) template).Yields w made
          w' →
        ∀ value ∈ (SingBox.routeRulesOf made.content).drop (SingBox.routeRulesOf template).length,
          ∃ rule ∈ rules, ∃ action : SingBox.Action, action.IsSaidBy value ∧
            rule.IsWritten [("A", "REJECT")] SingBox.Action.ofDestination action := by
  have hruns : (Config.ofText? rejectingText).any (fun config =>
      (resolveRules chainedRun.remote (.ofNames config.destinations) 0 config.rules).succeedsWith
        ⟨⟨[], []⟩, (), []⟩ fun rules =>
          rules.map RouteRule.destination = [.outbound "A", .reject]) = true := by
    decide +kernel
  obtain ⟨config, hconfig, hruns⟩ := (Option.any_eq_true _ _).1 hruns
  obtain ⟨rules, after, hrules, hdestinations⟩ := Task.exists_of_succeedsWith hruns
  exact ⟨config, rules, after, hconfig, hrules, of_decide_eq_true hdestinations,
    isNamed_renameAll_and_written hconfig hrules _⟩

/-- A target in which an outbound gets the name of rejection. -/
def rejectingTarget : Config.Target :=
  { name := "box"
    client := .singBox
    file := none
    renames := .ofList [("A", "REJECT")]
    options := []
    singBox := .standard }

/-- What is written for the target. -/
def rejectingDocument : Json :=
  .obj [("route", .obj [("final", .str "PROXY"), ("rules", .arr
    [.obj [("action", .str "route"), ("domain", .arr [.str "a.com"]),
      ("outbound", .str "REJECT")]])])]

/-- The rule has the name of rejection, but it is written as one to an outbound of this name. -/
theorem writeTarget_rejectingTarget_leads_to_outbound :
    ∃ report after,
      (chainedRun.writeTarget chainedRules rejectingTarget).Yields ⟨⟨[], []⟩, (), []⟩ report
        after ∧
      after.files.contentAt? ["out", "box.json"] =
        some (.text (rejectingDocument.pretty ++ "\n")) ∧
      ∀ rule ∈ chainedRules.map (RouteRule.renameAll rejectingTarget.effectiveRenames.entries),
        rule.destination.name = Destination.rejectName ∧
          Destination.ofName rule.destination.name ≠ rule.destination := by
  obtain ⟨report, after, hyields, hcontent⟩ := Task.exists_of_yieldsWith (show
    (chainedRun.writeTarget chainedRules rejectingTarget).yieldsWith ⟨⟨[], []⟩, (), []⟩
      (fun _ after => after.files.contentAt? ["out", "box.json"] =
        some (.text (rejectingDocument.pretty ++ "\n"))) = true by decide +kernel)
  exact ⟨report, after, hyields, of_decide_eq_true hcontent, by decide +kernel⟩

end Run

end RoutingRules
