import RoutingRules.Proofs.Run.Trace

/-!
# Targets one after another

A run resolves its rules and then takes one step for each target that was asked for, in the order of
the configuration.  A step ends with a report or with an error, and the next one starts from what it
left behind.  The steps decide how the run ends.

Main results:

- Theorem {lit}`Run.run_perform`: a run ends with the verdict on its steps.
- Theorem {lit}`Run.does_resolveRules`: resolving rules only requests documents.
-/

open RoutingRules.Task (Does)

namespace RoutingRules.Run

variable {σ : Type} {remote : Task.Remote σ}

/-! ## Steps -/

/-- What a run did for a target: where it started, how it ended and what it left behind. -/
structure Step (σ : Type) where
  target : Config.Target
  before : World σ
  result : Except RunError TargetReport
  after : World σ

/-- What is told about the end of a step. -/
def endNotices (t : Config.Target) : Except RunError TargetReport → List Notice
  | .ok _ => []
  | .error e => [.targetFailed t.name e.message]

/-- Write a target in a world. -/
def step (run : Run σ) (rules : List RouteRule) (w : World σ) (t : Config.Target) : Step σ :=
  let (result, after) := (run.writeTarget rules t).run.run w
  ⟨t, w, result, { after with notices := after.notices ++ endNotices t result }⟩

/-- Write targets one after another. -/
def steps (run : Run σ) (rules : List RouteRule) : World σ → List Config.Target → List (Step σ)
  | _, [] => []
  | w, t :: ts => run.step rules w t :: run.steps rules (run.step rules w t).after ts

/-- The world at the end of steps. -/
def endOf (w : World σ) (steps : List (Step σ)) : World σ :=
  steps.foldl (fun _ s => s.after) w

/-- How a run ends: with all reports, or with the names of the targets that failed. -/
def verdict (steps : List (Step σ)) : Except RunError (List TargetReport) :=
  match (steps.filter fun s => s.result.toOption.isNone).map fun s => s.target.name with
  | [] => .ok (steps.filterMap fun s => s.result.toOption)
  | failed => .error (.targetsFailed failed steps.length)

variable (run : Run σ) (rules : List RouteRule)

/-- A step ends as writing its target does. -/
theorem step_of_run {w after : World σ} {t : Config.Target} {result : Except RunError TargetReport}
    (h : (run.writeTarget rules t).run.run w = (result, after)) :
    (run.step rules w t).result = result ∧ (run.step rules w t).after.files = after.files ∧
      (run.step rules w t).after.remote = after.remote :=
  ⟨congrArg Prod.fst h, congrArg (fun r => r.2.files) h,
    congrArg (fun r => r.2.remote) h⟩

/-- The outcome of a step as it is collected: the name of the target stands for the error. -/
def Step.outcome (s : Step σ) : Except String TargetReport :=
  match s.result with
  | .ok report => .ok report
  | .error _ => .error s.target.name

/-- An attempt at a target is a step, and succeeds in any case. -/
theorem run_attempt (w : World σ) (t : Config.Target) :
    (run.attempt rules t).run.run w =
      (.ok (run.step rules w t).outcome, (run.step rules w t).after) := by
  unfold attempt
  rw [Task.run_bind]
  have houtcome : ((run.writeTarget rules t).outcome : Task RunError σ _).run.run w =
      (.ok ((run.writeTarget rules t).run.run w).1, ((run.writeTarget rules t).run.run w).2) := rfl
  rw [houtcome]
  unfold step Step.outcome
  rcases (run.writeTarget rules t).run.run w with ⟨e | report, files, state, notices⟩
  · rfl
  · simp only [endNotices, List.append_nil]
    rfl

/-- The targets of a run are attempted one after another. -/
theorem run_attempts (w : World σ) (ts : List Config.Target) :
    (ts.mapM (run.attempt rules)).run.run w =
      (.ok ((run.steps rules w ts).map Step.outcome), endOf w (run.steps rules w ts)) := by
  induction ts generalizing w with
  | nil => rfl
  | cons t ts ih =>
    rw [List.mapM_cons, Task.run_bind, run_attempt]
    dsimp only
    rw [Task.run_bind, ih]
    rfl

theorem length_steps (w : World σ) (ts : List Config.Target) :
    (run.steps rules w ts).length = ts.length := by
  induction ts generalizing w with
  | nil => rfl
  | cons t ts ih => simp [steps, ih]

theorem targets_steps (w : World σ) (ts : List Config.Target) :
    (run.steps rules w ts).map Step.target = ts := by
  induction ts generalizing w with
  | nil => rfl
  | cons t ts ih =>
    simp only [steps, List.map_cons, ih]
    rfl

/-! ## Verdicts -/

theorem failures_outcomes (steps : List (Step σ)) :
    failures (steps.map Step.outcome) =
      (steps.filter fun s => s.result.toOption.isNone).map fun s => s.target.name := by
  induction steps with
  | nil => rfl
  | cons s steps ih =>
    unfold failures at ih ⊢
    obtain ⟨target, before, result, after⟩ := s
    cases result <;> simp_all [Step.outcome, Except.toOption]

theorem reports_outcomes (steps : List (Step σ)) :
    reports (steps.map Step.outcome) = steps.filterMap fun s => s.result.toOption := by
  unfold reports
  rw [List.filterMap_map]
  refine List.filterMap_congr fun s _ => ?_
  obtain ⟨target, before, result, after⟩ := s
  cases result <;> rfl

/-- After a good verdict all steps have ended with the reports. -/
theorem results_of_verdict {steps : List (Step σ)} {reports : List TargetReport}
    (h : verdict steps = .ok reports) :
    List.Forall₂ (fun s report => s.result = .ok report) steps reports := by
  unfold verdict at h
  split at h
  next hnone =>
    rw [List.map_eq_nil_iff, List.filter_eq_nil_iff] at hnone
    obtain rfl := Except.ok.inj h
    clear h
    induction steps with
    | nil => exact .nil
    | cons s steps ih =>
      rw [List.forall_mem_cons] at hnone
      obtain ⟨target, before, result, after⟩ := s
      cases result with
      | error e => exact absurd rfl hnone.1
      | ok report => exact .cons rfl (ih hnone.2)
  next => cases h

/-- The verdict is good when all steps have ended with reports. -/
theorem verdict_of_results {steps : List (Step σ)} {reports : List TargetReport}
    (h : List.Forall₂ (fun s report => s.result = .ok report) steps reports) :
    verdict steps = .ok reports := by
  have hparts : (steps.filter fun s => s.result.toOption.isNone) = [] ∧
      steps.filterMap (fun s => s.result.toOption) = reports := by
    induction h with
    | nil => exact ⟨rfl, rfl⟩
    | @cons s report _ _ hresult _ ih =>
      have hsome : s.result.toOption = some report := Except.toOption_eq_some_iff.2 hresult
      simp only [List.filter_cons, List.filterMap_cons, hsome, ih]
      exact ⟨rfl, trivial⟩
  rw [verdict, hparts.1, hparts.2]
  rfl

/-! ## Rules -/

/-- Resolving a rule only requests documents. -/
theorem does_resolveRule (table : DestinationTable) (index : Nat) (rule : Config.Rule) :
    Does remote Access.IsRequest (resolveRule remote table index rule) := by
  unfold resolveRule
  cases table.check rule.destination with
  | error e => exact Does.throw _
  | ok _ =>
    refine Does.bind (Does.mapM fun filter _ => ?_) fun parts => Does.pure _
    exact Does.mapError _ (Filter.does_conditions false filter)

/-- Resolving rules only requests documents. -/
theorem does_resolveRules (table : DestinationTable) (index : Nat) (rules : List Config.Rule) :
    Does remote Access.IsRequest (resolveRules remote table index rules) := by
  induction rules generalizing index with
  | nil => exact Does.pure _
  | cons rule rules ih =>
    unfold resolveRules
    exact Does.bind (does_resolveRule table index rule) fun _ =>
      Does.bind (ih (index + 1)) fun _ => Does.pure _

/-- Resolving rules changes no files. -/
theorem files_of_resolveRules {table : DestinationTable} {index : Nat} {rules : List Config.Rule}
    {before start : World σ} {resolved : List RouteRule}
    (h : (resolveRules remote table index rules).Yields before resolved start) :
    start.files = before.files := by
  obtain ⟨log, hruns, hlog⟩ := (does_resolveRules table index rules).exists_of_run h
  exact hruns.files_of_requests hlog

/-! ## Runs -/

/-- What the targets of a run share. -/
def ofConfig (config : Config) (options : RunOptions) (source : String) (seconds : Int)
    (remote : Task.Remote σ) : Run σ :=
  ⟨config, options, Header.text source seconds, remote⟩

/-- A run ends with the verdict on its steps. -/
theorem run_perform {config : Config} {options : RunOptions} {source : String} {seconds : Int}
    {before start : World σ} {rules : List RouteRule}
    (hknown : unknownTarget? config options = none)
    (hrules : (resolveRules remote (.ofNames config.destinations) 0 config.rules).Yields before rules
      start) :
    (perform config options source seconds remote).run.run before =
      (verdict ((ofConfig config options source seconds remote).steps rules start
          (selected config options)),
        endOf start ((ofConfig config options source seconds remote).steps rules start
          (selected config options))) := by
  unfold perform
  rw [hknown]
  dsimp only
  rw [Task.run_bind, hrules]
  dsimp only
  rw [Task.run_bind, show (⟨config, options, Header.text source seconds, remote⟩ : Run σ) =
    ofConfig config options source seconds remote from rfl, run_attempts]
  dsimp only
  rw [failures_outcomes, reports_outcomes, verdict]
  rw [← length_steps (ofConfig config options source seconds remote) rules start]
  generalize ((ofConfig config options source seconds remote).steps rules start
    (selected config options)) = steps
  cases (steps.filter fun s => s.result.toOption.isNone).map fun s => s.target.name <;> rfl

end RoutingRules.Run
