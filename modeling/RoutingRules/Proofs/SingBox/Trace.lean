import RoutingRules.Proofs.SingBox.Draft
import RoutingRules.Proofs.SingBox.ExtractionPlaces
import RoutingRules.Proofs.World.Replay

/-!
# What is done for a configuration

The draft of a configuration only requests documents.  Compiling rule sets requests none: it looks
at the tool, makes the directory of the rule sets, and then writes for each rule set its document and
what the tool made of it.

Main results:

- Theorem {lit}`Generator.does_draft`: a draft only requests documents.
- Theorem {lit}`Compiler.does_compile`: compiling a rule set only touches its own files.
- Theorem {lit}`Compiler.writes_compileAll`: compiling that succeeds writes for each rule set its
  document and what the tool made of it, if anything.
- Theorem {lit}`Generator.works_complete`: a draft is completed without requests, and files are used
  only in the directory of the rule sets, after it was made.
-/

open RoutingRules.Task (Does Works Writes)

namespace RoutingRules

variable {σ : Type} {remote : Task.Remote σ}

/-! ## Filters -/

namespace Filter

theorem does_fetchConditions (s : Source) (type : ListType) :
    Does remote Access.IsRequest (Task.fetching fun files => s.fetchConditions (remote files) type) := by
  unfold Source.fetchConditions
  by_cases hmark : type = .networks ∧ s.mark = none
  · simp only [hmark, and_self, if_true]
    exact Does.fetching_lift (.error _)
  · simp only [hmark, if_false]
    apply Does.fetching_bind
    · unfold Source.fetchLines
      cases s.url with
      | none => exact Does.fetching_lift (.error _)
      | some url =>
        apply Does.fetching_bind
        · exact Does.request url trivial
        · exact fun text => Does.fetching_lift _
    · exact fun lines => Does.fetching_lift _

/-- Resolving a filter only requests documents. -/
theorem does_conditions (forDns : Bool) (filter : Filter) :
    Does remote Access.IsRequest
      (Task.fetching fun files => filter.conditions (remote files) forDns) := by
  unfold conditions
  apply Does.fetching_bind
  · cases filter with
    | literal text =>
      apply Does.fetching_bind
      · exact Does.fetching_lift (Condition.ofLiteral text)
      · exact fun condition => Does.fetching_lift (.ok [condition])
    | source s =>
      simp only [allConditions, Source.conditions]
      cases ListType.ofName? s.type with
      | some type => exact does_fetchConditions s type
      | none =>
        apply Does.fetching_bind
        · exact Does.fetching_lift s.condition
        · exact fun condition => Does.fetching_lift (.ok [condition])
  · intro all
    by_cases hall : all = []
    · simp only [hall, if_true]
      exact Does.fetching_lift (.error _)
    · simp only [hall, if_false]
      exact Does.fetching_lift (.ok _)

theorem does_conditionsOfAll (forDns : Bool) (filters : List Filter) :
    Does remote Access.IsRequest
      (Task.fetching fun files => conditionsOfAll (remote files) forDns filters) := by
  unfold conditionsOfAll
  apply Does.fetching_bind
  · exact Does.fetching_mapM fun filter _ => does_conditions forDns filter
  · exact fun parts => Does.fetching_lift (.ok _)

end Filter

/-! ## Templates -/

namespace SingBox

namespace Expansion

variable (x : Expansion σ)

theorem does_expandHere (fields : List (String × Json)) (filters : Json) :
    Does x.remote Access.IsRequest (x.expandHere fields filters) := by
  unfold expandHere
  apply Does.bind (Does.lift _)
  intro filters
  apply Does.bind (Filter.does_conditionsOfAll x.forDns filters)
  intro conditions
  apply Does.bind (Does.lift _)
  intro grouped
  apply Does.bind (Does.tell _)
  exact fun _ => Does.pure _

theorem does_expandItems {items : List Json}
    (h : ∀ item ∈ items, Does x.remote Access.IsRequest (x.expand item)) :
    Does x.remote Access.IsRequest (x.expandItems items) := by
  induction items with
  | nil => exact Does.pure _
  | cons item items ih =>
    rw [List.forall_mem_cons] at h
    unfold expandItems
    apply Does.bind h.1
    rintro ⟨value, count⟩
    apply Does.bind (ih h.2)
    rintro ⟨values, others⟩
    exact Does.pure _

theorem does_expandFields {fields : List (String × Json)}
    (h : ∀ f ∈ fields, Does x.remote Access.IsRequest (x.expand f.2)) :
    Does x.remote Access.IsRequest (x.expandFields fields) := by
  induction fields with
  | nil => exact Does.pure _
  | cons f fields ih =>
    rw [List.forall_mem_cons] at h
    unfold expandFields
    apply Does.bind h.1
    rintro ⟨value, count⟩
    apply Does.bind (ih h.2)
    rintro ⟨values, others⟩
    exact Does.pure _

/-- Expanding a value only requests documents. -/
theorem does_expand (value : Json) : Does x.remote Access.IsRequest (x.expand value) := by
  induction value using Json.valueInduction with
  | obj fields ih =>
    unfold expand
    split
    · exact x.does_expandHere fields _
    · apply Does.bind (x.does_expandFields ih)
      rintro ⟨values, count⟩
      exact Does.pure _
  | arr items ih =>
    unfold expand
    apply Does.bind (x.does_expandItems ih)
    rintro ⟨values, count⟩
    exact Does.pure _
  | _ => exact Does.pure _

end Expansion

/-! ## Drafts -/

namespace Generator

variable (g : Generator σ)

theorem does_expandDns (included : List Kind) (document : SortedMap Json) :
    Does g.remote Access.IsRequest (g.expandDns included document) := by
  unfold expandDns
  split
  · exact Does.pure _
  · apply Does.bind (Expansion.does_expand ⟨g.remote, included, g.options.mode, true⟩ _)
    rintro ⟨dns, count⟩
    exact Does.pure _

theorem does_expandRule (included : List Kind) (names : List String) (rule : Json) :
    Does g.remote Access.IsRequest (g.expandRule included names rule) := by
  unfold expandRule
  apply Does.bind (Expansion.does_expand ⟨g.remote, included, g.options.mode, false⟩ rule)
  rintro ⟨value, count⟩
  dsimp only
  split
  · exact Does.bind (Does.lift _) fun _ => Does.pure _
  · exact Does.pure _

theorem does_routeRules (included : List Kind) (names : List String) (rules : List RouteRule) :
    Does g.remote Access.IsRequest (g.routeRules included names rules) := by
  unfold routeRules
  refine Does.bind (Does.mapM fun rule _ => ?_) fun parts => Does.pure _
  apply Does.bind (Does.lift _)
  rintro ⟨routed, notices⟩
  exact Does.bind (Does.tell _) fun _ => Does.pure _

/-- A draft only requests documents. -/
theorem does_draft (rules : List RouteRule) (template : Json) :
    Does g.remote Access.IsRequest (g.draft rules template) := by
  unfold draft
  apply Does.bind (Does.lift _)
  intro document
  apply Does.bind (Does.lift _)
  intro kinds
  apply Does.bind (g.does_expandDns _ _)
  rintro ⟨document, dnsCount⟩
  apply Does.bind (Does.lift _)
  intro route
  apply Does.bind (Does.lift _)
  intro templateRules
  apply Does.bind (Does.mapM fun rule _ => g.does_expandRule _ _ rule)
  intro expanded
  apply Does.bind (g.does_routeRules _ _ rules)
  rintro ⟨made, madeCount⟩
  exact Does.pure _

/-- Checking the last outbound does nothing. -/
theorem does_finish {p : Access → Prop} (names : List String) (route : SortedMap Json) :
    Does remote p (finish names route : Task RuleError σ (SortedMap Json)) := by
  unfold finish
  split
  · exact Does.bind (Does.lift _) fun _ => Does.pure _
  · exact Does.throw _
  · exact Does.bind (Does.tell _) fun _ => Does.pure _

end Generator

/-! ## Rule sets -/

namespace Compiler

variable (c : Compiler)

/-- What is done for a rule set: the tool is run on its document, and its own files are written and
looked at. -/
def Touches (tag : String) : Access → Prop
  | .write path _ | .refuse path => path = c.sourcePath tag ∨ path = c.compiledPath tag
  | .measure path => path = c.compiledPath tag
  | .runTool name source output _ =>
    name = c.binary ∧ source = c.sourcePath tag ∧ output = c.compiledPath tag
  | .request _ | .askVersion .. | .make _ => False

/-- Writing what the tool made. -/
theorem changing_afterRun_eq (path : String) (made : Option Files.Content)
    (wrap : Files.Fault → RuleError) :
    (Task.changing (fun tree => .ok (afterRun path made tree)) wrap : Task RuleError σ Unit) =
      match made with
      | none => pure ()
      | some content => Task.writing path content none := by
  apply Task.ext
  intro w
  rw [Task.run_changing]
  cases made with
  | none => rfl
  | some content =>
    show (_, { w with files := (w.files.write path content).toOption.getD w.files }) = _
    rw [Task.run_writing]
    cases w.files.write path content <;> rfl

/-- Write what the tool made of a rule set. -/
def writeMade (tag : String) (made : Option Files.Content) : Task RuleError σ Unit :=
  match made with
  | none => pure ()
  | some content => Task.writing (c.compiledPath tag) content none

/-- What is done after the tool has run on a rule set. -/
def keepMade (set : RuleSet) (run : Files.ToolRun) (made : Option Files.Content) :
    Task RuleError σ Artifact :=
  c.writeMade set.tag made >>= fun _ =>
    if run.code ≠ 0 then
      throw (.tool (.compileFailed set.tag run.code (Text.trim run.complaint)))
    else
      Task.asking (·.size (c.compiledPath set.tag))
        (fun fault => .tool (.resultMissing (c.compiledPath set.tag) fault)) >>= fun size =>
      pure ⟨set.tag, c.compiledPath set.tag, size, c.descriptor set.tag⟩

/-- Compiling a rule set is writing its document, running the tool and keeping what that made. -/
theorem compile_eq (format : Nat) (set : RuleSet) :
    (c.compile format set : Task RuleError σ Artifact) =
      Task.writing (c.sourcePath set.tag) (.text (set.source format).pretty) (some .io) >>= fun _ =>
      Task.asking (·.runTool c.binary (c.sourcePath set.tag) (c.compiledPath set.tag)
          (.text (set.source format).pretty))
        (fun fault => .tool (.compileNotRun c.binary fault)) >>= fun ran =>
      c.keepMade set ran.1 ran.2 := by
  unfold compile keepMade writeMade
  simp only [Task.changing_write_eq, changing_afterRun_eq]
  refine bind_congr fun _ => bind_congr fun ran => bind_congr fun _ => ?_
  split <;> rfl

theorem does_keepMade (set : RuleSet) (run : Files.ToolRun) (made : Option Files.Content) :
    Does remote (c.Touches set.tag) (c.keepMade set run made) := by
  unfold keepMade
  apply Does.bind
  · unfold writeMade
    cases made with
    | none => exact Does.pure _
    | some content => exact Does.writing (.inr rfl) (.inr rfl)
  · intro _
    split
    · exact Does.throw _
    · exact Does.bind (Does.measure rfl) fun _ => Does.pure _

/-- Compiling a rule set only touches its own files. -/
theorem does_compile (format : Nat) (set : RuleSet) :
    Does remote (c.Touches set.tag) (c.compile format set) := by
  rw [compile_eq]
  apply Does.bind (Does.writing (.inl rfl) (.inl rfl))
  intro _
  refine Does.bind (Does.runTool ?_) fun ran => c.does_keepMade set ran.1 ran.2
  exact ⟨rfl, rfl, rfl⟩

theorem slash_not_mem_of_plain {tag : String} (htag : IsPlainTag tag) :
    '/' ∉ (tag ++ ".json").toList ∧ '/' ∉ (tag ++ ".srs").toList := by
  have hslash : '/' ∉ tag.toList := fun hmem => (htag _ hmem).elim (by decide) (by decide)
  simp only [String.toList_append, List.mem_append, hslash, false_or]
  exact ⟨by decide, by decide⟩

/-- The files of a rule set are in the directory of rule sets. -/
theorem uses_of_touches {tag : String} (htag : IsPlainTag tag) {access : Access}
    (h : c.Touches tag access) :
    ¬access.IsRequest ∧ ∀ here, access.uses here ⊆ Files.visited here c.directory := by
  obtain ⟨hsource, hcompiled⟩ := slash_not_mem_of_plain htag
  have hway : ∀ path, (path = c.sourcePath tag ∨ path = c.compiledPath tag) → ∀ here,
      Files.wayOf here path ⊆ Files.visited here c.directory := by
    rintro path (rfl | rfl) here s hs
    · exact Files.way_join_subset hsource hs
    · exact Files.way_join_subset hcompiled hs
  cases access with
  | request | askVersion | make => exact h.elim
  | measure path => exact ⟨id, hway path (.inr h)⟩
  | runTool _ _ path _ =>
    refine ⟨id, fun here => ?_⟩
    unfold Access.uses
    dsimp only
    split
    · simp
    · exact hway path (.inr h.2.2) here
  | write path _ | refuse path =>
    refine ⟨id, fun here => ?_⟩
    unfold Access.uses
    dsimp only
    split
    · simp
    · exact hway path h here

/-- The tool is asked for its version. -/
def Asks (access : Access) : Prop :=
  ∃ looks, access = .askVersion c.binary looks

/-- Asking the tool for its version does nothing else. -/
theorem does_version : Does remote c.Asks (c.version : Task RuleError σ Version) := by
  unfold version
  apply Does.bind
  · exact Does.askVersion ⟨_, rfl⟩
  · intro run
    dsimp only
    split
    · exact Does.bind (Does.throw _) fun _ => Does.lift _
    · exact Does.lift _

/-- Compiling requests nothing, and uses files only in the directory of rule sets, after it was
made. -/
theorem works_compileAll {sets : List RuleSet} (hplain : ∀ set ∈ sets, IsPlainTag set.tag) :
    Works remote (c.compileAll sets) := by
  unfold compileAll
  split
  · exact Works.of_does (Does.pure []) fun _ h => absurd h id
  · apply Works.bind
    · refine Works.of_does c.does_version ?_
      rintro _ ⟨looks, rfl⟩
      exact ⟨id, fun here => rfl⟩
    · intro version
      refine Works.making_bind (p := fun access => ∃ set ∈ sets, c.Touches set.tag access) ?_ ?_
      · exact Does.mapM fun set hset =>
          (c.does_compile version.format set).mono fun access haccess => ⟨set, hset, haccess⟩
      · rintro access ⟨set, hset, haccess⟩
        exact c.uses_of_touches (hplain set hset) haccess

/-- What is done when rule sets are compiled: the tool is used, their directory is made, and files in
it are written and looked at. -/
def Reaches (access : Access) : Prop :=
  c.Asks access ∨ access = .make c.directory ∨
    ∃ tag, IsPlainTag tag ∧ c.Touches tag access

/-- Compiling only touches the files of the rule sets. -/
theorem reaches_compileAll {sets : List RuleSet} (hplain : ∀ set ∈ sets, IsPlainTag set.tag) :
    Does remote c.Reaches (c.compileAll sets) := by
  unfold compileAll
  split
  · exact Does.pure []
  · refine Does.bind (c.does_version.mono fun _ => .inl) fun version => ?_
    refine Does.bind (Does.making (.inr (.inl rfl))) fun _ => Does.mapM fun set hset => ?_
    exact (c.does_compile version.format set).mono fun _ haccess =>
      .inr (.inr ⟨set.tag, hplain set hset, haccess⟩)

/-! ## Files of rule sets -/

/-- The files of a rule set: its document, and what the tool made of it, if that was kept. -/
def filesOf (format : Nat) (compiled : RuleSet × Option Files.Content) :
    List (String × Files.Content) :=
  (c.sourcePath compiled.1.tag, .text (compiled.1.source format).pretty) ::
    compiled.2.toList.map fun content => (c.compiledPath compiled.1.tag, content)

theorem writes_writeMade {tag : String} {made : Option Files.Content} {before after : World σ}
    (h : (c.writeMade tag made : Task RuleError σ Unit).Yields before () after) :
    ∃ kept : Option Files.Content,
      Writes remote (c.writeMade tag made : Task RuleError σ Unit) before ()
        (kept.toList.map fun content => (c.compiledPath tag, content)) after := by
  unfold writeMade at h ⊢
  cases made with
  | none =>
    obtain ⟨_, rfl⟩ := Task.yields_pure.1 h
    exact ⟨none, .pure () before⟩
  | some content =>
    dsimp only at h ⊢
    rw [Task.Yields, Task.run_writing] at h
    cases hwrite : before.files.write (c.compiledPath tag) content with
    | ok files =>
      rw [hwrite] at h
      cases h
      exact ⟨some content, _, .write none hwrite, rfl⟩
    | error fault =>
      rw [hwrite] at h
      cases h
      exact ⟨none, _, .refuse none hwrite, rfl⟩

/-- Compiling a rule set writes its document and what the tool made of it, if anything. -/
theorem writes_compile {format : Nat} {set : RuleSet} {before after : World σ} {artifact : Artifact}
    (h : (c.compile format set).Yields before artifact after) :
    ∃ kept, Writes remote (c.compile format set) before artifact (c.filesOf format (set, kept))
      after := by
  rw [compile_eq] at h ⊢
  simp only [Task.yields_bind, keepMade] at h
  obtain ⟨_, _, hsource, ran, _, hran, _, _, hmade, hrest⟩ := h
  obtain ⟨kept, hkept⟩ := c.writes_writeMade hmade
  refine ⟨kept, (Writes.writing hsource).bind ?_⟩
  refine (Writes.of_does (Does.runTool (p := (Access.written [·] = [])) rfl) (fun _ => id)
    hran).bind ?_
  · rw [← List.append_nil (List.map _ _)]
    refine hkept.bind (Writes.of_does (p := (· = .measure (c.compiledPath set.tag))) ?_ ?_ hrest)
    · split
      · exact Does.throw _
      · exact Does.bind (Does.measure rfl) fun _ => Does.pure _
    · rintro access rfl
      rfl

theorem exists_compiled {format : Nat} {sets : List RuleSet}
    {news : List (List (String × Files.Content))}
    (h : List.Forall₂ (fun set new => ∃ kept, new = c.filesOf format (set, kept)) sets news) :
    ∃ compiled : List (RuleSet × Option Files.Content),
      compiled.map Prod.fst = sets ∧ news.flatten = compiled.flatMap (c.filesOf format) := by
  induction h with
  | nil => exact ⟨[], rfl, rfl⟩
  | cons hnew _ ih =>
    obtain ⟨kept, rfl⟩ := hnew
    obtain ⟨compiled, rfl, hfiles⟩ := ih
    exact ⟨(_, kept) :: compiled, rfl, by rw [List.flatten_cons, hfiles, List.flatMap_cons]⟩

/-- Compiling that succeeds writes for each rule set, in order, its document and what the tool made of
it, if anything. -/
theorem writes_compileAll {sets : List RuleSet} {before after : World σ}
    {artifacts : List Artifact} (h : (c.compileAll sets).Yields before artifacts after) :
    ∃ (format : Nat) (compiled : List (RuleSet × Option Files.Content)),
      compiled.map Prod.fst = sets ∧
        Writes remote (c.compileAll sets) before artifacts (compiled.flatMap (c.filesOf format))
          after := by
  unfold compileAll at h ⊢
  split at h
  next hempty =>
    obtain ⟨rfl, rfl⟩ := Task.yields_pure.1 h
    rw [if_pos hempty]
    exact ⟨0, [], (List.isEmpty_iff.1 hempty).symm, .pure [] before⟩
  next hempty =>
    rw [if_neg hempty]
    simp only [Task.yields_bind] at h
    obtain ⟨version, w, hversion, _, w', hmake, hsets⟩ := h
    have hversion : Writes remote c.version before version [] w :=
      Writes.of_does c.does_version (fun _ ⟨_, hask⟩ => hask ▸ rfl) hversion
    have hmake : Writes remote (Task.making c.directory RuleError.io) w () [] w' :=
      Writes.of_does (p := (· = .make c.directory)) (Does.making rfl)
        (fun access haccess => by rw [haccess]; rfl) hmake
    have hset : ∀ set ∈ sets, ∀ w artifact w', (c.compile version.format set).Yields w artifact w' →
        ∃ new, Writes remote (c.compile version.format set) w artifact new w' ∧
          ∃ kept, new = c.filesOf version.format (set, kept) := by
      intro set _ w artifact w' hcompile
      obtain ⟨kept, hkept⟩ := c.writes_compile hcompile
      exact ⟨_, hkept, kept, rfl⟩
    obtain ⟨news, hnews, hwrites⟩ := Writes.mapM hset hsets
    obtain ⟨compiled, hcompiled, hfiles⟩ := c.exists_compiled hnews
    rw [hfiles] at hwrites
    exact ⟨version.format, compiled, hcompiled, hversion.bind (hmake.bind hwrites)⟩

end Compiler

/-! ## Finished configurations -/

namespace Generator

/-- The rules from which rule sets are extracted. -/
def candidates (routes : Routes) : List Rule :=
  (routes.template.map TemplateRule.ofJson).filterMap TemplateRule.rule ++ routes.made

theorem works_compileRoutes (g : Generator σ) (routes : Routes) :
    Works remote (g.compileRoutes routes) := by
  unfold compileRoutes
  cases g.compiler with
  | none => exact Works.of_does (Does.pure routes) fun _ h => absurd h id
  | some compiler =>
    refine Works.lift_bind fun extraction hextract => ?_
    refine Works.bind (compiler.works_compileAll (isPlainTag_of_extract hextract)) fun artifacts => ?_
    exact Works.lift_bind fun sets _ => Works.of_does (Does.pure _) fun _ h => absurd h id

/-- A draft is completed without requests, and files are used only in the directory of the rule sets,
after it was made. -/
theorem works_complete (g : Generator σ) (d : Draft) : Works remote (g.complete d) := by
  unfold complete
  refine Works.bind (g.works_compileRoutes d.routes) fun routes => ?_
  refine Works.of_does (Does.bind (does_finish _ _) fun route => Does.pure _) fun _ h => absurd h id

/-- A draft is completed by compiling its rule sets, if there is a compiler. -/
theorem reaches_complete {p : Access → Prop} {g : Generator σ}
    (h : ∀ c, g.compiler = some c → ∀ access, c.Reaches access → p access) (d : Draft) :
    Does remote p (g.complete d) := by
  unfold complete
  refine Does.bind ?_ fun routes => Does.bind (does_finish _ _) fun route => Does.pure _
  unfold compileRoutes
  cases hcompiler : g.compiler with
  | none => exact Does.pure _
  | some c =>
    refine Does.lift_bind fun extraction hextract => ?_
    refine Does.bind ?_ fun artifacts => Does.lift_bind fun sets _ => Does.pure _
    exact (c.reaches_compileAll (isPlainTag_of_extract hextract)).mono (h c hcompiler)

/-- The files of the compiled rule sets of a configuration, in order.  Without a compiler there are
none. -/
def SetFiles (g : Generator σ) (artifacts : List Artifact)
    (files : List (String × Files.Content)) : Prop :=
  match g.compiler with
  | none => artifacts = [] ∧ files = []
  | some compiler =>
    ∃ (format : Nat) (compiled : List (RuleSet × Option Files.Content)),
      (artifacts.map Artifact.descriptor =
        compiled.map fun set => compiler.descriptor set.1.tag) ∧
      files = compiled.flatMap (compiler.filesOf format)

theorem writes_compileRoutes {g : Generator σ} {routes result : Routes} {before after : World σ}
    (hartifacts : routes.artifacts = [])
    (h : (g.compileRoutes routes).Yields before result after) :
    ∃ files, Writes remote (g.compileRoutes routes) before result files after ∧
      g.SetFiles result.artifacts files := by
  obtain ⟨options, destinations, _, compiler⟩ := g
  unfold compileRoutes SetFiles at *
  dsimp only at h ⊢
  cases compiler with
  | none =>
    obtain ⟨rfl, rfl⟩ := Task.yields_pure.1 h
    exact ⟨[], .pure routes before, hartifacts, rfl⟩
  | some compiler =>
    dsimp only at h ⊢
    simp only [Routes.compile, Task.yields_bind, Task.yields_lift, Task.yields_pure] at h
    obtain ⟨extraction, _, ⟨hextract, rfl⟩, artifacts, w, hcompile, sets, _, ⟨hsets, rfl⟩, rfl,
      rfl⟩ := h
    obtain ⟨format, compiled, hcompiled, hwrites⟩ := compiler.writes_compileAll hcompile
    refine ⟨compiled.flatMap (compiler.filesOf format), ?_, format, compiled, ?_, rfl⟩
    · rw [← List.append_nil (List.flatMap _ _), ← List.nil_append (_ ++ [])]
      refine (Writes.lift hextract before).bind (hwrites.bind ?_)
      rw [← List.nil_append []]
      exact (Writes.lift hsets w).bind (.pure _ w)
    · rw [Compiler.descriptors_of_compileAll hcompile, ← hcompiled, List.map_map]
      rfl

/-- A configuration that is made comes with the files of its rule sets. -/
theorem writes_generate {g : Generator σ} {rules : List RouteRule} {template : Json}
    {before after : World σ} {made : Document}
    (h : (g.generate rules template).Yields before made after) :
    ∃ files, Writes g.remote (g.generate rules template) before made files after ∧
      g.SetFiles made.artifacts files := by
  rw [generate_eq] at h ⊢
  obtain ⟨d, between, hdraft, hcomplete⟩ := Task.yields_bind.1 h
  have hartifacts := (drafts_of_yields hdraft).artifacts
  have hrequests : ∀ access : Access, access.IsRequest → Access.written [access] = [] := by
    intro access haccess
    cases access <;> first | rfl | exact haccess.elim
  have hdraft := Writes.of_does (g.does_draft rules template) hrequests hdraft
  simp only [complete, Task.yields_bind, Task.yields_pure] at hcomplete
  obtain ⟨routes, w, hroutes, route, w', hfinish, rfl, rfl⟩ := hcomplete
  obtain ⟨files, hwrites, hfiles⟩ := writes_compileRoutes hartifacts hroutes
  refine ⟨files, ?_, hfiles⟩
  have hfinish : Writes g.remote (finish d.names _) w route [] w' :=
    Writes.of_does (p := fun _ => False) (does_finish _ _) (fun _ h => absurd h id) hfinish
  rw [← List.append_nil files, ← List.nil_append (files ++ [])]
  refine hdraft.bind (hwrites.bind ?_)
  rw [← List.nil_append []]
  exact hfinish.bind (.pure _ w')

end Generator

end SingBox

end RoutingRules
