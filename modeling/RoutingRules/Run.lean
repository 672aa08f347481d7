import RoutingRules.Header
import RoutingRules.Run.Target

/-!
# Runs

A run reads its configuration, resolves the rules once, and writes its targets one after another.
A target that fails does not stop the others; the run then fails at the end.
-/

namespace RoutingRules.Run

variable {σ : Type}

/-! ## Rules -/

/-- Resolve a rule of a configuration. -/
def resolveRule (remote : Task.Remote σ) (table : DestinationTable) (index : Nat)
    (rule : Config.Rule) : Task RunError σ RouteRule := do
  match table.check rule.destination with
  | .error e => throw (.invalidRule index e)
  | .ok () =>
    let parts ← rule.filters.mapM fun filter =>
      Task.mapError (.filterFailed filter.text rule.destination.name)
        (Task.fetching fun files => filter.conditions (remote files) false)
    return ⟨rule.destination, parts.flatten⟩

/-- Resolve the rules of a configuration, which are numbered from `index` on. -/
def resolveRules (remote : Task.Remote σ) (table : DestinationTable) (index : Nat) :
    List Config.Rule → Task RunError σ (List RouteRule)
  | [] => return []
  | rule :: rules => do
    let first ← resolveRule remote table index rule
    let others ← resolveRules remote table (index + 1) rules
    return first :: others

/-! ## Targets -/

/-- The targets that are written. -/
def selected (config : Config) (options : RunOptions) : List Config.Target :=
  config.targets.filter fun t => options.targets.isEmpty || options.targets.contains t.name

/-- The first name that no target has. -/
def unknownTarget? (config : Config) (options : RunOptions) : Option String :=
  options.targets.find? fun name => !(config.targets.map Config.Target.name).contains name

/-- Write a target, or tell why that failed; then its name is given instead of a report. -/
def attempt (run : Run σ) (rules : List RouteRule) (t : Config.Target) :
    Task RunError σ (Except String TargetReport) := do
  match ← (run.writeTarget rules t).outcome with
  | .ok report => return .ok report
  | .error e =>
    Task.tell [.targetFailed t.name e.message]
    return .error t.name

/-- The names of the targets that failed. -/
def failures (outcomes : List (Except String TargetReport)) : List String :=
  outcomes.filterMap fun
    | .ok _ => none
    | .error name => some name

/-- The reports of the targets that did not fail. -/
def reports (outcomes : List (Except String TargetReport)) : List TargetReport :=
  outcomes.filterMap Except.toOption

/-! ## Runs -/

/-- Do what a configuration says.  `source` is its name, and `seconds` the local time. -/
def perform (config : Config) (options : RunOptions) (source : String) (seconds : Int)
    (remote : Task.Remote σ) : Task RunError σ (List TargetReport) := do
  match unknownTarget? config options with
  | some name => throw (.unknownTarget name)
  | none =>
    let rules ← resolveRules remote (.ofNames config.destinations) 0 config.rules
    let run : Run σ := ⟨config, options, Header.text source seconds, remote⟩
    let targets := selected config options
    let outcomes ← targets.mapM (run.attempt rules)
    match failures outcomes with
    | [] => return reports outcomes
    | failed => throw (.targetsFailed failed targets.length)

/-- Read a configuration. -/
def readConfig (path : String) : Task RunError σ Config := do
  let text ← Task.asking (·.read path) (.configNotRead path)
  match Config.ofText? text with
  | some config => return config
  | none => throw (.configMalformed path)

/-- Add a cache to a fetcher. -/
def cachedRemote (remote : Task.Remote σ) : Task.Remote (σ × Fetcher.Cache) := fun files =>
  Fetcher.cached (remote files)

/-- Do what the configuration at a path says.  No document is fetched twice. -/
def load (options : RunOptions) (seconds : Int) (remote : Task.Remote σ) :
    Task RunError (σ × Fetcher.Cache) (List TargetReport) := do
  let config ← readConfig options.config
  perform config options options.config seconds (cachedRemote remote)

end RoutingRules.Run
