import RoutingRules.Proofs.Run.Trace

/-!
# What a failed target leaves behind

A sing-box target that fails before its own file is written has changed no file but those of the rule
sets that it had begun to compile.  The tool reads the document of a rule set from a file and writes
what it makes of it to another one, so these two are there when the tool fails, and they stay when a
later check fails.

A write that fails leaves the file as it was in a tree, where a system may have begun to write it.
So the failures of writing the file of the target itself are left out.

Main results:

- Theorem {lit}`Run.fails_writeDocument`: a failed target has changed no file but those of the rule
  sets that it had begun to compile.
- Theorem {lit}`Compiler.stops_compileAll`: compiling that fails has begun the rule sets up to the one
  that failed, after the others were compiled, or none.
-/

open RoutingRules.Task (Does Works Runs)

namespace RoutingRules

open Files

/-! ## Computations that stop -/

namespace Task

variable {σ ε ε' α β : Type} {remote : Remote σ} {p q : Access → Prop}
  {before between after : World σ}

/-- From a world a computation fails, leaves another world behind, and only did what passes a
check. -/
def Stops (remote : Remote σ) (p : Access → Prop) (task : Task ε σ α) (before : World σ) (e : ε)
    (after : World σ) : Prop :=
  ∃ log, Runs remote task before log (.error e) after ∧ ∀ access ∈ log, p access

theorem Does.stops {task : Task ε σ α} {e : ε} (h : Does remote p task)
    (hfails : task.Fails before e after) : Stops remote p task before e after :=
  h.exists_of_run hfails

namespace Stops

theorem first {task : Task ε σ α} {e : ε} (next : α → Task ε σ β)
    (h : Stops remote p task before e after) : Stops remote p (task >>= next) before e after := by
  obtain ⟨log, hruns, hlog⟩ := h
  exact ⟨log, .stop next hruns, hlog⟩

theorem second {task : Task ε σ α} {next : α → Task ε σ β} {a : α} {e : ε}
    (htask : Does remote p task) (hyields : task.Yields before a between)
    (h : Stops remote p (next a) between e after) :
    Stops remote p (task >>= next) before e after := by
  obtain ⟨log, hruns, hlog⟩ := htask.exists_of_run hyields
  obtain ⟨log', hruns', hlog'⟩ := h
  exact ⟨log ++ log', .bind hruns hruns', List.forall_mem_append.2 ⟨hlog, hlog'⟩⟩

theorem mapError {task : Task ε σ α} {e : ε} (wrap : ε → ε')
    (h : Stops remote p task before e after) :
    Stops remote p (Task.mapError wrap task) before (wrap e) after := by
  obtain ⟨log, hruns, hlog⟩ := h
  exact ⟨log, .mapError wrap hruns, hlog⟩

/-- A walk over a list stops at the entry at which it fails. -/
theorem mapM {f : α → Task ε σ β} {front rest : List α} {a : α} {results : List β} {e : ε}
    (hdoes : ∀ x ∈ front ++ [a], Does remote p (f x))
    (hfront : (front.mapM f).Yields before results between)
    (hfails : (f a).Fails between e after) :
    Stops remote p ((front ++ a :: rest).mapM f) before e after := by
  rw [List.mapM_append]
  refine .second (.mapM fun x hx => hdoes x (List.mem_append_left _ hx)) hfront (.first _ ?_)
  rw [List.mapM_cons]
  exact .first _ ((hdoes a (by simp)).stops hfails)

end Stops

end Task

/-! ## Rule sets -/

namespace SingBox.Compiler

variable {σ : Type} {remote : Task.Remote σ} {before after : World σ} (c : Compiler)

/-- An access that writes no files but those of given rule sets. -/
def Spares (touched : List RuleSet) (access : Access) : Prop :=
  ∀ file ∈ Access.written [access],
    ∃ set ∈ touched, file.1 = c.sourcePath set.tag ∨ file.1 = c.compiledPath set.tag

variable {c}

theorem spares_of_request {touched : List RuleSet} {access : Access} (h : access.IsRequest) :
    c.Spares touched access := by
  cases access with
  | request url => exact nofun
  | _ => exact h.elim

theorem spares_of_touches {touched : List RuleSet} {set : RuleSet} (hset : set ∈ touched)
    {access : Access} (h : c.Touches set.tag access) : c.Spares touched access := by
  cases access with
  | write path content =>
    intro file hfile
    obtain rfl := List.mem_singleton.1 hfile
    exact ⟨set, hset, h⟩
  | _ => exact nofun

theorem does_compile_spares {touched : List RuleSet} {set : RuleSet} (hset : set ∈ touched)
    (format : Nat) : Does remote (c.Spares touched) (c.compile format set) :=
  (c.does_compile format set).mono fun _ haccess => spares_of_touches hset haccess

theorem does_version_spares (touched : List RuleSet) :
    Does remote (c.Spares touched) (c.version : Task RuleError σ Version) :=
  c.does_version.mono fun _ ⟨_, hask⟩ => hask ▸ nofun

theorem does_compileAll (sets : List RuleSet) :
    Does remote (c.Spares sets) (c.compileAll sets) := by
  unfold compileAll
  split
  · exact Does.pure _
  · refine Does.bind (does_version_spares sets) fun version => ?_
    exact Does.bind (Does.making nofun) fun _ =>
      Does.mapM fun set hset => does_compile_spares hset version.format

/-- How far the compiling of rule sets came in a run that failed.  All of them were compiled; or the
tool told its version, the first ones were compiled, and the next one failed. -/
inductive Begins (c : Compiler) (before : World σ) (e : RuleError) (after : World σ) :
    List RuleSet → List RuleSet → Prop
  | compiled {sets : List RuleSet} {artifacts : List Artifact} {w : World σ}
    (h : (c.compileAll sets).Yields before artifacts w) : Begins c before e after sets sets
  | failed {front rest : List RuleSet} {set : RuleSet} {version : Version}
    {artifacts : List Artifact} {w w' w'' : World σ}
    (hversion : c.version.Yields before version w)
    (hmake : (Task.making c.directory RuleError.io).Yields w () w')
    (hfront : (front.mapM (c.compile version.format)).Yields w' artifacts w'')
    (hset : (c.compile version.format set).Fails w'' e after) :
    Begins c before e after (front ++ set :: rest) (front ++ [set])

/-- Compiling that fails has begun the rule sets up to the one that failed, after the others were
compiled, or none. -/
theorem stops_compileAll {sets : List RuleSet} {e : RuleError}
    (h : (c.compileAll sets).Fails before e after) :
    ∃ touched, (touched = [] ∨ c.Begins before e after sets touched) ∧
      Task.Stops remote (c.Spares touched) (c.compileAll sets) before e after := by
  unfold compileAll at h ⊢
  split at h
  next => exact absurd h Task.not_fails_pure
  next hempty =>
    rw [if_neg hempty]
    rcases Task.fails_bind.1 h with h | ⟨version, w, hversion, h⟩
    · exact ⟨[], .inl rfl, .first _ ((does_version_spares []).stops h)⟩
    rcases Task.fails_bind.1 h with h | ⟨_, w', hmake, h⟩
    · exact ⟨[], .inl rfl, .second (does_version_spares []) hversion
        (.first _ ((Does.making nofun).stops h))⟩
    obtain ⟨front, set, rest, _, w'', rfl, hfront, hset⟩ := Task.exists_of_fails_mapM h
    refine ⟨front ++ [set], .inr (.failed hversion hmake hfront hset), ?_⟩
    refine .second (does_version_spares _) hversion (.second (Does.making nofun) hmake ?_)
    exact .mapM (fun set hset => does_compile_spares hset version.format) hfront hset

end SingBox.Compiler

/-! ## Configurations -/

namespace SingBox.Generator

variable {σ : Type} {remote : Task.Remote σ} {before after : World σ} {g : Generator σ}
  {compiler : Compiler} {routes : Routes}

/-- The rule sets that are extracted from the rules of a configuration with a compiler. -/
def Extracts (g : Generator σ) (compiler : Compiler) (routes : Routes) (sets : List RuleSet) :
    Prop :=
  g.compiler = some compiler ∧
    ∃ rules, extract g.options.ruleSet.minSize (candidates routes) = .ok ⟨rules, sets⟩

/-- How far the rule sets of a configuration came in a run that failed: none was begun, or some that
were extracted. -/
def Comes (g : Generator σ) (compiler : Compiler) (routes : Routes) (before : World σ)
    (e : RuleError) (after : World σ) (touched : List RuleSet) : Prop :=
  touched = [] ∨
    ∃ sets, g.Extracts compiler routes sets ∧ compiler.Begins before e after sets touched

variable (hcompiler : g.compiler = none ∨ g.compiler = some compiler)

include hcompiler

/-- Rule sets that were compiled are the only ones that were touched. -/
theorem does_compileRoutes {result : Routes} {w : World σ}
    (h : (g.compileRoutes routes).Yields before result w) (e : RuleError) (after : World σ) :
    ∃ touched, g.Comes compiler routes before e after touched ∧
      Does remote (compiler.Spares touched) (g.compileRoutes routes) := by
  obtain ⟨options, destinations, _, chosen⟩ := g
  rcases hcompiler with hnone | hsome
  · obtain rfl : chosen = none := hnone
    exact ⟨[], .inl rfl, Does.pure _⟩
  · obtain rfl : chosen = some compiler := hsome
    simp only [compileRoutes, Routes.compile, Task.yields_bind, Task.yields_lift] at h ⊢
    obtain ⟨⟨rules, sets⟩, _, ⟨hextract, rfl⟩, artifacts, w, hartifacts, _⟩ := h
    refine ⟨sets, .inr ⟨sets, ⟨rfl, rules, hextract⟩, .compiled hartifacts⟩, ?_⟩
    refine Does.lift_bind fun extraction hextraction => ?_
    obtain rfl : ⟨rules, sets⟩ = extraction := Except.ok.inj (hextract.symm.trans hextraction)
    exact Does.bind (Compiler.does_compileAll sets) fun _ => Does.bind (Does.lift _) fun _ =>
      Does.pure _

/-- Rule sets that were begun before a failure are the only ones that were touched. -/
theorem stops_compileRoutes {e : RuleError} (h : (g.compileRoutes routes).Fails before e after) :
    ∃ touched, g.Comes compiler routes before e after touched ∧
      Task.Stops remote (compiler.Spares touched) (g.compileRoutes routes) before e after := by
  obtain ⟨options, destinations, _, chosen⟩ := g
  rcases hcompiler with hnone | hsome
  · obtain rfl : chosen = none := hnone
    exact absurd h Task.not_fails_pure
  · obtain rfl : chosen = some compiler := hsome
    simp only [compileRoutes, Routes.compile] at h ⊢
    rcases Task.fails_bind.1 h with h | ⟨⟨rules, sets⟩, w, hextraction, h⟩
    · exact ⟨[], .inl rfl, .first _ ((Does.lift _).stops h)⟩
    obtain ⟨hextract, rfl⟩ := Task.yields_lift.1 hextraction
    rcases Task.fails_bind.1 h with h | ⟨artifacts, w', hartifacts, h⟩
    · obtain ⟨touched, hbegun, hstops⟩ := Compiler.stops_compileAll h
      refine ⟨touched, hbegun.imp_right fun hbegun => ⟨sets, ⟨rfl, rules, hextract⟩, hbegun⟩, ?_⟩
      exact .second (Does.lift _) hextraction (.first _ hstops)
    · refine ⟨sets, .inr ⟨sets, ⟨rfl, rules, hextract⟩, .compiled hartifacts⟩, ?_⟩
      refine .second (Does.lift _) hextraction (.second (Compiler.does_compileAll sets) hartifacts ?_)
      exact (Does.bind (Does.lift _) fun _ => Does.pure _).stops h

theorem stops_complete {d : Draft} {e : RuleError} (h : (g.complete d).Fails before e after) :
    ∃ touched, g.Comes compiler d.routes before e after touched ∧
      Task.Stops remote (compiler.Spares touched) (g.complete d) before e after := by
  unfold complete at h ⊢
  rcases Task.fails_bind.1 h with h | ⟨routes, w, hroutes, h⟩
  · obtain ⟨touched, hcomes, hstops⟩ := stops_compileRoutes hcompiler h
    exact ⟨touched, hcomes, .first _ hstops⟩
  · obtain ⟨touched, hcomes, hdoes⟩ := does_compileRoutes hcompiler hroutes e after
    refine ⟨touched, hcomes, .second hdoes hroutes ?_⟩
    exact (Does.bind (does_finish _ _) fun _ => Does.pure _).stops h

end SingBox.Generator

/-! ## Targets -/

/-- Whether a target failed because its own file, or the directory in which it is, could not be
written. -/
def RunError.isUnwritten : RunError → Bool
  | .directoryNotMade .. | .notWritten .. => true
  | _ => false

namespace Run

variable {σ : Type} {remote : Task.Remote σ} {before after : World σ}

theorem isUnwritten_of_writeFile {path content : String} {e : RunError}
    (h : (writeFile path content).Fails before e after) : e.isUnwritten = true := by
  have hwriting : ∀ {w : World σ},
      (Task.writing path (.text content) (some (.notWritten path))).Fails w e after →
        e.isUnwritten = true := by
    intro w h
    rw [Task.Fails, Task.run_writing] at h
    cases hwrite : w.files.write path (.text content) <;> rw [hwrite] at h <;> cases h
    rfl
  rw [writeFile_eq] at h
  split at h
  · exact hwriting h
  next parent _ =>
    rcases Task.fails_bind.1 h with h | ⟨_, _, _, h⟩
    · rw [Task.Fails, Task.run_making] at h
      cases hmake : (before.files.makePath parent).2 <;> rw [hmake] at h <;> cases h
      rfl
    · exact hwriting h

/-- How far the rule sets of a target came that failed.  None was begun; or the template was read, a
compiler was chosen, a configuration was drafted, rule sets were extracted from its rules, and then
the draft could not be completed. -/
def Comes (run : Run σ) (t : Config.Target) (rules : List RouteRule) (before : World σ)
    (e : RunError) (after : World σ) (touched : List SingBox.RuleSet) : Prop :=
  touched = [] ∨
    ∃ template w d w' sets cause,
      Yaml.toJson (.map t.options) = .ok template ∧
      (run.chooseCompiler t).Yields before (some (run.compilerFor t)) w ∧
      ((run.generatorOf t (some (run.compilerFor t))).draft rules template).Yields w d w' ∧
      (run.generatorOf t (some (run.compilerFor t))).Extracts (run.compilerFor t) d.routes sets ∧
      ((run.generatorOf t (some (run.compilerFor t))).complete d).Fails w' cause after ∧
      e = .rule cause ∧ (run.compilerFor t).Begins w' cause after sets touched

/-- A draft writes no files. -/
theorem does_draft_spares (run : Run σ) (t : Config.Target) (rules : List RouteRule)
    (template : Json) (chosen : Option SingBox.Compiler) (touched : List SingBox.RuleSet) :
    Does run.remote ((run.compilerFor t).Spares touched)
      (Task.mapError RunError.rule ((run.generatorOf t chosen).draft rules template)) :=
  (Does.mapError _ ((run.generatorOf t chosen).does_draft rules template)).mono
    fun _ haccess => SingBox.Compiler.spares_of_request haccess

/-- A target that fails before its own file is written has written no files but those of the rule
sets that it had begun to compile. -/
theorem stops_writeDocument {run : Run σ} {t : Config.Target} {rules : List RouteRule}
    {e : RunError} (hcause : e.isUnwritten = false)
    (h : (run.writeDocument t rules).Fails before e after) :
    ∃ touched, run.Comes t rules before e after touched ∧
      Task.Stops run.remote ((run.compilerFor t).Spares touched) (run.writeDocument t rules) before e
        after := by
  rw [writeDocument_eq] at h ⊢
  cases htemplate : Yaml.toJson (.map t.options) with
  | error fault =>
    rw [htemplate] at h
    exact ⟨[], .inl rfl, (Does.throw _).stops h⟩
  | ok template =>
    rw [htemplate] at h
    dsimp only at h ⊢
    rcases Task.fails_bind.1 h with h | ⟨chosen, w, hchosen, h⟩
    · exact ⟨[], .inl rfl, .first _ ((run.does_chooseCompiler t).stops h)⟩
    have hdraft := run.does_draft_spares t rules template chosen
    rcases Task.fails_bind.1 h with h | ⟨d, w', hd, h⟩
    · exact ⟨[], .inl rfl, .second (run.does_chooseCompiler t) hchosen
        (.first _ ((hdraft []).stops h))⟩
    rcases Task.fails_bind.1 h with h | ⟨document, _, _, h⟩
    · obtain ⟨cause, hfails, rfl⟩ := Task.fails_mapError.1 h
      obtain ⟨touched, hbegun, hstops⟩ :=
        SingBox.Generator.stops_complete (eq_of_chooseCompiler hchosen) hfails
      refine ⟨touched, hbegun.imp_right ?_, .second (run.does_chooseCompiler t) hchosen
        (.second (hdraft touched) hd (.first _ (hstops.mapError _)))⟩
      rintro ⟨sets, hextracts, hbegins⟩
      obtain rfl : chosen = some (run.compilerFor t) := hextracts.1
      exact ⟨template, w, d, w', sets, cause, htemplate, hchosen, Task.yields_mapError.1 hd,
        hextracts, hfails, rfl, hbegins⟩
    · -- The draft was completed, and its file could not be written.
      rcases Task.fails_bind.1 h with h | ⟨_, _, _, h⟩
      · rw [isUnwritten_of_writeFile h] at hcause
        cases hcause
      · exact absurd h Task.not_fails_pure

/-- A sing-box target that fails before its own file is written has changed no file but those of the
rule sets that it had begun to compile. -/
theorem fails_writeDocument {run : Run σ} {t : Config.Target} {rules : List RouteRule}
    {e : RunError} (hwf : before.files.WellFormed) (hcause : e.isUnwritten = false)
    (h : (run.writeDocument t rules).Fails before e after) :
    ∃ touched, run.Comes t rules before e after touched ∧
      ∀ place, after.files.find? place = before.files.find? place ∨
        before.files.find? place = none ∧ after.files.find? place = some .directory ∨
        ∃ set ∈ touched,
          place = placeOf before.files.here ((run.compilerFor t).sourcePath set.tag) ∨
          place = placeOf before.files.here ((run.compilerFor t).compiledPath set.tag) := by
  obtain ⟨touched, hcomes, log, hruns, hlog⟩ := stops_writeDocument hcause h
  refine ⟨touched, hcomes, fun place => ?_⟩
  refine ((hruns.leaves hwf).changes place).imp_right fun h => h.imp_right ?_
  rintro ⟨_, file, hfile, rfl⟩
  obtain ⟨access, haccess, hwritten⟩ := List.mem_filterMap.1 hfile
  have hmem : file ∈ Access.written [access] := by
    rw [Access.written, List.mem_filterMap]
    exact ⟨access, List.mem_singleton_self access, hwritten⟩
  obtain ⟨set, hset, hpath⟩ := hlog access haccess file hmem
  exact ⟨set, hset, hpath.imp (congrArg _) (congrArg _)⟩

/-- A tool whose compiled files are copies, with the exit code of its compilations. -/
def copyingTool (code : Nat) : Tool :=
  { version := ⟨0, "sing-box version 1.11.4\n", ""⟩
    compile := fun job => (⟨code, "", ""⟩, some job.document) }

/-- A world with nothing but a tool in the working directory. -/
def toolWorld (code : Nat) : World Unit :=
  ⟨⟨[(["w"], .directory), (["w", "sing-box"], .program (copyingTool code))], ["w"]⟩, (), []⟩

theorem wellFormed_toolWorld (code : Nat) : (toolWorld code).files.WellFormed :=
  .of_entries rfl (List.forall_mem_cons.2 ⟨rfl, List.forall_mem_cons.2 ⟨rfl, nofun⟩⟩)

/-- A run without a configuration. -/
def sampleRun : Run Unit :=
  { config := ⟨["PROXY"], [], []⟩
    options := ⟨"rules.yaml", "out", [], true⟩
    header := ""
    remote := fun _ => .ofDocuments .empty }

/-- How rule sets of any size are compiled. -/
def compiledSets : SingBox.RuleSetOptions :=
  { SingBox.RuleSetOptions.standard with
    enabled := true, minSize := 1, baseUrl := "https://r/", binary := "./sing-box" }

/-- A target for sing-box that sends all other connections to an outbound. -/
def boxTarget (outbound : String) : Config.Target :=
  { name := "box"
    client := .singBox
    file := none
    renames := .empty
    options := [(.str "route", .map [(.str "final", .str outbound)])]
    singBox := { SingBox.Options.standard with ruleSet := compiledSets } }

def sampleRules : List RouteRule :=
  [⟨.outbound "PROXY", [.on .domain "a.com" none]⟩]

/-- The files of the first rule set, before and after it was compiled. -/
def setPlaces : List Place :=
  [["w", "out", "rule-set", "proxy-0.json"], ["w", "out", "rule-set", "proxy-0.srs"]]

/-- Whether the files of the first rule set are there. -/
def hasSet (tree : FileTree) : Bool :=
  setPlaces.all fun place => (tree.contentAt? place).isSome

theorem find?_toolWorld (place : Place) (hplace : place ∈ setPlaces) (code : Nat) :
    (toolWorld code).files.find? place = none := by
  simp only [setPlaces, List.mem_cons, List.not_mem_nil, or_false] at hplace
  rcases hplace with rfl | rfl <;> rfl

theorem fails_writeDocument_lostFinal :
    ∃ e after touched,
      (sampleRun.writeDocument (boxTarget "Nowhere") sampleRules).Fails (toolWorld 0) e after ∧
      e.message = "unknown destination: Nowhere" ∧
      sampleRun.Comes (boxTarget "Nowhere") sampleRules (toolWorld 0) e after touched ∧
      ∀ place ∈ setPlaces, (after.files.contentAt? place).isSome = true ∧ ∃ set ∈ touched,
        place = placeOf ["w"] ((sampleRun.compilerFor (boxTarget "Nowhere")).sourcePath set.tag) ∨
        place = placeOf ["w"] ((sampleRun.compilerFor (boxTarget "Nowhere")).compiledPath set.tag) := by
  obtain ⟨e, after, hfails, hcheck⟩ := Task.exists_of_failsWith (show
    (sampleRun.writeDocument (boxTarget "Nowhere") sampleRules).failsWith (toolWorld 0)
      (fun e after => e.message = "unknown destination: Nowhere" && !e.isUnwritten &&
        hasSet after.files) = true by decide +kernel)
  simp only [Bool.and_eq_true, Bool.not_eq_true', decide_eq_true_eq] at hcheck
  obtain ⟨⟨hmessage, hcause⟩, hset⟩ := hcheck
  obtain ⟨touched, hcomes, hplaces⟩ := fails_writeDocument (wellFormed_toolWorld 0) hcause hfails
  refine ⟨e, after, touched, hfails, hmessage, hcomes, fun place hplace => ?_⟩
  have hthere : (after.files.contentAt? place).isSome = true := List.all_eq_true.1 hset place hplace
  obtain ⟨content, hcontent⟩ := Option.isSome_iff_exists.1 hthere
  rw [FileTree.contentAt?_eq_some_iff] at hcontent
  refine ⟨hthere, ?_⟩
  rcases hplaces place with hsame | ⟨_, hdir⟩ | htouched
  · rw [hcontent, find?_toolWorld place hplace] at hsame
    cases hsame
  · rw [hcontent] at hdir
    cases hdir
  · exact htouched

/-- An outbound that does not exist is found out after the rule sets were compiled, and a tool that
fails has read a document and may have written another one.  Both times the files stay. -/
theorem writeDocument_fails_leaving_files :
    (∀ place ∈ setPlaces, ∀ code, (toolWorld code).files.find? place = none) ∧
    (∃ e after, (sampleRun.writeDocument (boxTarget "Nowhere") sampleRules).Fails (toolWorld 0) e
        after ∧ e.message = "unknown destination: Nowhere" ∧ hasSet after.files = true) ∧
    ∃ e after, (sampleRun.writeDocument (boxTarget "PROXY") sampleRules).Fails (toolWorld 1) e
        after ∧ hasSet after.files = true := by
  refine ⟨find?_toolWorld, ?_, ?_⟩
  · obtain ⟨e, after, hfails, hcheck⟩ := Task.exists_of_failsWith (show
      (sampleRun.writeDocument (boxTarget "Nowhere") sampleRules).failsWith (toolWorld 0)
        (fun e after => e.message = "unknown destination: Nowhere" && hasSet after.files) = true by
          decide +kernel)
    rw [Bool.and_eq_true, decide_eq_true_eq] at hcheck
    exact ⟨e, after, hfails, hcheck⟩
  · exact Task.exists_of_failsWith (show
      (sampleRun.writeDocument (boxTarget "PROXY") sampleRules).failsWith (toolWorld 1)
        (fun _ after => hasSet after.files) = true by decide +kernel)

end Run

end RoutingRules
