import RoutingRules.Config
import RoutingRules.Line.File
import RoutingRules.Line.Rendered
import RoutingRules.Run.Error
import RoutingRules.SingBox.Document

/-!
# Writing targets

Makes the file of a target from the resolved rules.
-/

namespace RoutingRules

/-- What a run is asked to do besides what its configuration says. -/
structure RunOptions where
  /-- The path of the configuration. -/
  config : String
  /-- The directory of the files that are written. -/
  output : String
  /-- The names of the targets that are written; all if there are none. -/
  targets : List String
  /-- Whether rule sets may be made. -/
  ruleSets : Bool
deriving DecidableEq, Repr

/-- What was written for a target. -/
structure TargetReport where
  name : String
  path : String
  rules : Nat
  duplicates : Nat
  unsupported : Nat
  ruleSets : Nat
deriving DecidableEq, Repr

/-- What all targets of a run share. -/
structure Run (σ : Type) where
  config : Config
  options : RunOptions
  /-- The header of files with lines. -/
  header : String
  remote : Task.Remote σ

namespace Run

variable {σ : Type}

/-! ## Files -/

/-- The path of the file of a target. -/
def targetPath (options : RunOptions) (t : Config.Target) (extension : String) : String :=
  Files.join options.output (t.file.getD (t.name ++ "." ++ extension))

/-- Write a file, together with the directories in which it is. -/
def writeFile (path content : String) : Task RunError σ Unit := do
  match Files.parent? path with
  | none => pure ()
  | some parent => Task.making parent (.directoryNotMade parent)
  Task.changing (·.write path (.text content)) (.notWritten path)

/-! ## Clients with lines -/

/-- Write the file of a client with lines. -/
def writeLines (run : Run σ) (client : LineClient) (t : Config.Target) (rules : List RouteRule) :
    Task RunError σ TargetReport := do
  Task.tell (RenderedRules.notices client rules)
  match RenderedRules.ofRules client rules with
  | .error e => throw (.notRendered client.client e)
  | .ok rendered =>
    Task.tell (client.optionNotices t.options)
    match client.content t.options run.header rendered.lines with
    | .error e => throw (.rule e)
    | .ok content =>
      let path := targetPath run.options t client.extension
      writeFile path content
      return ⟨t.name, path, rendered.lines.length, rendered.duplicates, rendered.unsupported, 0⟩

/-! ## Clients with rule objects -/

/-- How the rule sets of a target are compiled. -/
def compilerOf (options : RunOptions) (sets : SingBox.RuleSetOptions) : SingBox.Compiler :=
  { binary := sets.binary
    directory := Files.join options.output sets.directory
    baseUrl := sets.baseUrl
    detour := sets.detour }

/-- Find out how the rule sets of a target are compiled, if they are. -/
def chooseCompiler (run : Run σ) (t : Config.Target) :
    Task RunError σ (Option SingBox.Compiler) := do
  let sets := t.singBox.ruleSet
  if sets.enabled && run.options.ruleSets then
    if sets.baseUrl = "" then throw .baseUrlMissing
    return some (compilerOf run.options sets)
  else
    if sets.enabled then Task.tell [.ruleSetsDisabled t.name]
    return none

/-- How many rules a finished configuration has. -/
def ruleCount (content : Json) : Nat :=
  ((((content.field? "route").bind fun route => route.field? "rules").bind
    Json.toItems?).getD []).length

/-- The destinations that a target may use: those of the configuration and the new names. -/
def targetTable (config : Config) (t : Config.Target) : DestinationTable :=
  .ofNames (config.destinations ++ t.effectiveRenames.values)

/-- Write the file of sing-box. -/
def writeDocument (run : Run σ) (t : Config.Target) (rules : List RouteRule) :
    Task RunError σ TargetReport := do
  match Yaml.toJson (.map t.options) with
  | .error fault => throw (.optionsNotJson fault)
  | .ok template =>
    let generator : SingBox.Generator σ :=
      { options := t.singBox
        destinations := targetTable run.config t
        remote := run.remote
        compiler := ← run.chooseCompiler t }
    let document ← (generator.generate rules template).mapError .rule
    let path := targetPath run.options t "json"
    writeFile path (document.content.pretty ++ "\n")
    return ⟨t.name, path, ruleCount document.content, 0, document.unsupported,
      document.artifacts.length⟩

/-! ## Targets -/

/-- Write a target.  Its new names of destinations only count for it. -/
def writeTarget (run : Run σ) (rules : List RouteRule) (t : Config.Target) :
    Task RunError σ TargetReport :=
  let rules := rules.map (RouteRule.renameAll t.effectiveRenames.entries)
  match LineClient.ofClient? t.client with
  | some client => run.writeLines client t rules
  | none => run.writeDocument t rules

end Run

end RoutingRules
