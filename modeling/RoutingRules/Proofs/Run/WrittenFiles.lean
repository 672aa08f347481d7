import RoutingRules.Proofs.Run.FailedTarget
import RoutingRules.Proofs.Run.Steps

/-!
# Files at the end of a run

The targets of a run may write to one place: their names may be the same, their files are where the
configuration puts them, and all rule sets go to one directory unless it says otherwise.  At the end
of a run without failures every file that it wrote holds what was written to its place last.  So the
file of a target stays as it is exactly when what is written to its place afterwards, by the target
itself or by a later one, does not end in anything else.

Main results:

- Theorem {lit}`Run.perform_keeps`: when a file still holds at the end what a target wrote.
- Theorem {lit}`Run.leaves_steps`: what steps that succeed leave behind.
-/

open RoutingRules.Task (Does Writes Runs)

namespace RoutingRules

open Files

/-! ## The last of several writes -/

namespace Access

theorem lastAt_cons (here place : Place) (path : String) (content : Content)
    (files : List (String × Content)) :
    lastAt here place ((path, content) :: files) =
      (lastAt here place files).or
        (if placeOf here path = place then some content else none) := by
  rw [← List.singleton_append, lastAt_append]
  by_cases h : placeOf here path = place <;> simp [lastAt, h]

/-- What was written last at the place of a file: what was written there afterwards, or the file. -/
theorem lastAt_of_split (here : Place) (earlier later : List (String × Content)) (path : String)
    (content : Content) :
    lastAt here (placeOf here path) (earlier ++ (path, content) :: later) =
      some ((lastAt here (placeOf here path) later).getD content) := by
  rw [lastAt_append, lastAt_cons, if_pos rfl]
  cases lastAt here (placeOf here path) later <;> rfl

end Access

namespace Run

variable {σ : Type} {before after start : World σ}

/-! ## Steps that succeed -/

/-- A step has ended with a report after files were written. -/
structure Wrote (run : Run σ) (rules : List RouteRule) (s : Step σ) (report : TargetReport)
    (files : List (String × Content)) : Prop where
  result : s.result = .ok report
  writes : ∃ w, Writes run.remote (run.writeTarget rules s.target) s.before report files w
  /-- Which files these are. -/
  files : run.HasFiles s.target report files

/-- A step that ends with a report leaves its files behind. -/
theorem wrote_step {run : Run σ} {rules : List RouteRule} {w : World σ} {t : Config.Target}
    {report : TargetReport} (hresult : (run.step rules w t).result = .ok report)
    (hwf : w.files.WellFormed) :
    ∃ log, run.Wrote rules (run.step rules w t) report (Access.written log) ∧
      Access.Leaves log w.files (run.step rules w t).after.files := by
  have hrun : (run.writeTarget rules t).Yields w report ((run.writeTarget rules t).run.run w).2 :=
    Prod.ext hresult rfl
  obtain ⟨_, hfiles, _⟩ := run.step_of_run rules hrun
  obtain ⟨_, ⟨log, hruns, rfl⟩, hhas⟩ := writes_writeTarget hrun
  exact ⟨log, ⟨hresult, ⟨_, log, hruns, rfl⟩, hhas⟩, hfiles ▸ hruns.leaves hwf⟩

/-- Steps that succeed leave behind what they wrote, in order. -/
theorem leaves_steps {run : Run σ} {rules : List RouteRule} {w : World σ} {ts : List Config.Target}
    {reports : List TargetReport}
    (h : List.Forall₂ (fun s report => s.result = .ok report) (run.steps rules w ts) reports)
    (hwf : w.files.WellFormed) :
    ∃ (parts : List (Step σ × List (String × Content))) (log : List Access),
      parts.map Prod.fst = run.steps rules w ts ∧
      List.Forall₂ (fun part report => run.Wrote rules part.1 report part.2) parts reports ∧
      Access.written log = parts.flatMap Prod.snd ∧
      Access.Leaves log w.files (endOf w (run.steps rules w ts)).files := by
  induction ts generalizing w reports with
  | nil =>
    cases h
    exact ⟨[], [], rfl, .nil, rfl, .same hwf rfl⟩
  | cons t ts ih =>
    cases h with
    | cons hresult h =>
      obtain ⟨log, hwrote, hleaves⟩ := wrote_step hresult hwf
      obtain ⟨parts, log', hparts, hall, hlog', hleaves'⟩ := ih h hleaves.wellFormed
      refine ⟨(_, Access.written log) :: parts, log ++ log', ?_, .cons hwrote hall, ?_,
        hleaves.append hleaves'⟩
      · rw [List.map_cons, hparts]
        rfl
      · rw [Access.written_append, hlog', List.flatMap_cons]

/-! ## Runs -/

/-- A run that succeeds has known targets, resolves its rules and takes its steps. -/
theorem exists_steps_of_perform {config : Config} {options : RunOptions} {source : String}
    {seconds : Int} {remote : Task.Remote σ} {reports : List TargetReport}
    (h : (perform config options source seconds remote).Yields before reports after) :
    ∃ rules start,
      (resolveRules remote (.ofNames config.destinations) 0 config.rules).Yields before rules start ∧
      List.Forall₂ (fun s report => s.result = .ok report)
        ((ofConfig config options source seconds remote).steps rules start (selected config options))
        reports ∧
      after = endOf start ((ofConfig config options source seconds remote).steps rules start
        (selected config options)) := by
  cases hknown : unknownTarget? config options with
  | some name =>
    rw [perform, hknown] at h
    exact absurd h Task.not_yields_throw
  | none =>
    have hrules := h
    rw [perform, hknown] at hrules
    obtain ⟨rules, start, hrules, _⟩ := Task.yields_bind.1 hrules
    have hrun : (perform config options source seconds remote).run.run before = _ :=
      run_perform hknown hrules
    have hend := h.symm.trans hrun
    exact ⟨rules, start, hrules, results_of_verdict (congrArg Prod.fst hend).symm,
      congrArg Prod.snd hend⟩

/-- In a tree each file of the parts of a run holds what a target wrote there exactly when what was
written to its place afterwards, by the target itself or by later ones, does not end in anything
else. -/
def HoldLastWrites (here : Place) (parts : List (Step σ × List (String × Content)))
    (tree : FileTree) : Prop :=
  ∀ front s back earlier path content later,
    parts = front ++ (s, earlier ++ (path, content) :: later) :: back →
    (tree.contentAt? (placeOf here path) = some content ↔
      ∀ other, Access.lastAt here (placeOf here path) (later ++ back.flatMap Prod.snd) = some other →
        other = content)

/-- At the end of a run without failures a file still holds what a target wrote exactly when what was
written to its place afterwards, by the target itself or by later ones, does not end in anything
else. -/
theorem perform_keeps {config : Config} {options : RunOptions} {source : String} {seconds : Int}
    {remote : Task.Remote σ} {reports : List TargetReport} (hwf : before.files.WellFormed)
    (h : (perform config options source seconds remote).Yields before reports after) :
    ∃ (rules : List RouteRule) (start : World σ)
      (parts : List (Step σ × List (String × Content))),
      (resolveRules remote (.ofNames config.destinations) 0 config.rules).Yields before rules start ∧
      parts.map Prod.fst = (ofConfig config options source seconds remote).steps rules start
        (selected config options) ∧
      List.Forall₂ (fun part report =>
          (ofConfig config options source seconds remote).Wrote rules part.1 report part.2)
        parts reports ∧
      HoldLastWrites before.files.here parts after.files := by
  obtain ⟨rules, start, hrules, hresults, rfl⟩ := exists_steps_of_perform h
  have hstart : start.files = before.files := files_of_resolveRules hrules
  rw [← hstart] at hwf ⊢
  obtain ⟨parts, log, hparts, hall, hlog, hleaves⟩ := leaves_steps hresults hwf
  refine ⟨rules, start, parts, hrules, hparts, hall, ?_⟩
  rintro front s back earlier path content later rfl
  have hlast := Access.lastAt_of_split start.files.here (front.flatMap Prod.snd ++ earlier)
    (later ++ back.flatMap Prod.snd) path content
  have hwritten : Access.written log = (front.flatMap Prod.snd ++ earlier) ++
      (path, content) :: (later ++ back.flatMap Prod.snd) := by
    rw [hlog]
    simp
  rw [← hwritten] at hlast
  rw [FileTree.contentAt?_eq_some_iff, hleaves.last _ _ hlast]
  cases Access.lastAt start.files.here (placeOf start.files.here path)
    (later ++ back.flatMap Prod.snd) <;> simp

/-- A configuration with two targets for sing-box, whose rule sets have the same tags and go to the
same directory. -/
def twoBoxes : Config :=
  { destinations := ["PROXY"]
    rules := [⟨.outbound "PROXY",
      [.literal "DOMAIN,a.com", .literal "IP-CIDR,10.0.0.0/8,no-resolve"]⟩]
    targets :=
      [{ boxTarget "PROXY" with name := "one" },
        { boxTarget "PROXY" with
          name := "two"
          singBox := { SingBox.Options.standard with
            splitAddress := true, ruleSet := compiledSets } }] }

/-- A run without documents. -/
def sampleOf (config : Config) : Run Unit :=
  ofConfig config sampleRun.options "rules.yaml" 0 sampleRun.remote

/-- Do what a configuration says without documents. -/
def performSample (config : Config) : Task RunError Unit (List TargetReport) :=
  perform config sampleRun.options "rules.yaml" 0 sampleRun.remote

/-- Resolve the rules of a configuration without documents. -/
def resolveSample (config : Config) : Task RunError Unit (List RouteRule) :=
  resolveRules sampleRun.remote (.ofNames config.destinations) 0 config.rules

/-- The place of the document of the first rule set. -/
def sourcePlace : Place :=
  ["w", "out", "rule-set", "proxy-0.json"]

/-- Whether two steps succeeded and the second one changed the document that the first one wrote. -/
def overwrites : List (Step Unit) → Bool
  | [s, s'] =>
    s.result.toOption.map TargetReport.path = some "out/one.json" &&
      s'.result.toOption.map TargetReport.path = some "out/two.json" &&
      (s.before.files.contentAt? sourcePlace).isNone &&
      (s.after.files.contentAt? sourcePlace).isSome &&
      s'.after.files.contentAt? sourcePlace ≠ s.after.files.contentAt? sourcePlace
  | _ => false

/-- The run of both targets succeeds. -/
theorem twoBoxes_yields :
    ∃ rules start s s' reports, (resolveSample twoBoxes).Yields (toolWorld 0) rules start ∧
      (sampleOf twoBoxes).steps rules start (selected twoBoxes sampleRun.options) = [s, s'] ∧
      (performSample twoBoxes).Yields (toolWorld 0) reports s'.after ∧ overwrites [s, s'] = true := by
  obtain ⟨rules, start, hrules, hcheck⟩ := Task.exists_of_yieldsWith (show
    (resolveSample twoBoxes).yieldsWith (toolWorld 0) (fun rules start =>
      overwrites ((sampleOf twoBoxes).steps rules start (selected twoBoxes sampleRun.options))) =
        true by decide +kernel)
  have hrun : (performSample twoBoxes).run.run (toolWorld 0) =
      (verdict ((sampleOf twoBoxes).steps rules start (selected twoBoxes sampleRun.options)),
        endOf start ((sampleOf twoBoxes).steps rules start (selected twoBoxes sampleRun.options))) :=
    run_perform (by decide +kernel) hrules
  generalize hsteps : (sampleOf twoBoxes).steps rules start (selected twoBoxes sampleRun.options) =
    steps at hcheck hrun
  have hchecked := hcheck
  unfold overwrites at hcheck
  split at hcheck
  next s s' =>
    simp only [Bool.and_eq_true, decide_eq_true_eq] at hcheck
    obtain ⟨⟨⟨⟨hs, hs'⟩, _⟩, _⟩, _⟩ := hcheck
    obtain ⟨report, hreport, _⟩ := Option.map_eq_some_iff.1 hs
    obtain ⟨report', hreport', _⟩ := Option.map_eq_some_iff.1 hs'
    rw [verdict_of_results (.cons (Except.toOption_eq_some_iff.1 hreport)
      (.cons (Except.toOption_eq_some_iff.1 hreport') .nil))] at hrun
    exact ⟨rules, start, s, s', _, hrules, hsteps, hrun, hchecked⟩
  next => cases hcheck

theorem perform_keeps_twoBoxes :
    ∃ rules start s s' reports report files content w,
      (resolveSample twoBoxes).Yields (toolWorld 0) rules start ∧
      (sampleOf twoBoxes).steps rules start (selected twoBoxes sampleRun.options) = [s, s'] ∧
      (performSample twoBoxes).Yields (toolWorld 0) reports s'.after ∧
      Writes (sampleOf twoBoxes).remote ((sampleOf twoBoxes).writeTarget rules s'.target) s'.before
        report (files ++ [("out/two.json", content)]) w ∧
      s'.after.files.contentAt? ["w", "out", "two.json"] = some content := by
  obtain ⟨rules, start, s, s', reports, hrules, hsteps, hrun, hcheck⟩ := twoBoxes_yields
  obtain ⟨_, _, parts, hrules', hparts, hall, hholds⟩ := perform_keeps (wellFormed_toolWorld 0) hrun
  obtain ⟨rfl, rfl⟩ := hrules.unique hrules'
  obtain ⟨part, _, rfl, rfl, hlast⟩ := List.map_eq_cons_iff.1 (hparts.trans hsteps)
  obtain ⟨part', _, rfl, rfl, hnone⟩ := List.map_eq_cons_iff.1 hlast
  obtain rfl := List.map_eq_nil_iff.1 hnone
  obtain ⟨_, _, _, hrest, rfl⟩ := List.forall₂_cons_left_iff.1 hall
  obtain ⟨report, _, hwrote, _, rfl⟩ := List.forall₂_cons_left_iff.1 hrest
  obtain ⟨hresult, ⟨w, hwrites⟩, format, compiled, text, _, hfiles⟩ := hwrote
  simp only [overwrites, hresult, Bool.and_eq_true, decide_eq_true_eq] at hcheck
  obtain hpath : report.path = "out/two.json" := Option.some.inj hcheck.1.1.1.2
  rw [hpath] at hfiles
  obtain ⟨sets, hfiles⟩ : ∃ sets, part'.2 = sets ++ [("out/two.json", .text text)] := ⟨_, hfiles⟩
  have hplace : placeOf ["w"] "out/two.json" = ["w", "out", "two.json"] := by decide +kernel
  have hsplit : [part, part'] =
      [part] ++ (part'.1, sets ++ ("out/two.json", .text text) :: []) :: [] := by
    rw [← hfiles]
    rfl
  exact ⟨rules, start, part.1, part'.1, _, report, sets, .text text, w, hrules, hsteps, hrun,
    hfiles ▸ hwrites, hplace ▸ (hholds _ _ _ _ _ _ _ hsplit).2 nofun⟩

/-- The second target writes another document over the one of the first target. -/
theorem perform_twoBoxes_overwrites :
    ∃ rules start s s' reports source, (resolveSample twoBoxes).Yields (toolWorld 0) rules start ∧
      (sampleOf twoBoxes).steps rules start (selected twoBoxes sampleRun.options) = [s, s'] ∧
      (performSample twoBoxes).Yields (toolWorld 0) reports s'.after ∧
      s.before.files.contentAt? sourcePlace = none ∧
      s.after.files.contentAt? sourcePlace = some source ∧
      s'.after.files.contentAt? sourcePlace ≠ some source := by
  obtain ⟨rules, start, s, s', reports, hrules, hsteps, hrun, hcheck⟩ := twoBoxes_yields
  simp only [overwrites, Bool.and_eq_true, Option.isNone_iff_eq_none, decide_eq_true_eq] at hcheck
  obtain ⟨⟨⟨_, hnone⟩, hsome⟩, hne⟩ := hcheck
  obtain ⟨source, hsource⟩ := Option.isSome_iff_exists.1 hsome
  exact ⟨rules, start, s, s', reports, source, hrules, hsteps, hrun, hnone, hsource, hsource ▸ hne⟩

end Run

end RoutingRules
