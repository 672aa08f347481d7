import RoutingRules.Command
import RoutingRules.Fetch.Local
import RoutingRules.Run

/-!
# Executing commands

What a command prints, and the code with which the program ends.
-/

namespace RoutingRules

/-- How the program ends. -/
structure Execution where
  code : Nat
  output : String
  complaint : String
  /-- What was told on the way. -/
  notices : List Notice
deriving DecidableEq, Repr

namespace Command

variable {σ : Type}

/-! ## Reports -/

/-- Fill a text up with spaces behind it. -/
def alignLeft (width : Nat) (s : String) : String :=
  s ++ String.ofList (List.replicate (width - s.length) ' ')

/-- Fill a text up with spaces in front of it. -/
def alignRight (width : Nat) (s : String) : String :=
  String.ofList (List.replicate (width - s.length) ' ') ++ s

/-- A row of the table of reports. -/
def tableRow (name rules duplicates unsupported ruleSets path : String) : String :=
  Text.joinWith "\t"
    [alignLeft 20 name, alignRight 8 rules, alignRight 10 duplicates, alignRight 11 unsupported,
     alignRight 9 ruleSets, path] ++ "\n"

/-- The row of a report. -/
def reportRow (report : TargetReport) : String :=
  tableRow report.name (Number.decimal report.rules) (Number.decimal report.duplicates)
    (Number.decimal report.unsupported) (Number.decimal report.ruleSets) report.path

/-- The table of reports. -/
def table (reports : List TargetReport) : String :=
  tableRow "TARGET" "RULES" "DUPLICATE" "UNSUPPORTED" "RULE-SET" "FILE" ++
    String.join (reports.map reportRow)

/-! ## Rendering -/

/-- The conditions of a filter of the command line. -/
def filterConditions (remote : Task.Remote σ) (text : String) :
    Task RunError σ (List Condition) := do
  match Filter.ofText? text with
  | none => throw (.invalidFilter text)
  | some filter =>
    Task.mapError (.filterUnresolved filter.text)
      (Task.fetching fun files => filter.conditions (remote files) false)

/-- A rule as the lines of a client. -/
def renderLines (client : LineClient) (rule : RouteRule) : Result String :=
  (RenderedRules.ofRules client [rule]).map fun rendered =>
    String.join (rendered.lines.map (· ++ "\n"))

/-- A rule as a rule object; nothing is printed if no condition is left. -/
def renderObject (rule : RouteRule) : Result String := do
  let grouped ← SingBox.group rule.conditions [] .or
  match grouped.node with
  | none => return ""
  | some node =>
    let rule : SingBox.Rule := ⟨.ofDestination rule.destination, node⟩
    return rule.toJson.pretty ++ "\n"

/-- Render the conditions of filters. -/
def renderFilters (remote : Task.Remote σ) (client : Client) (destination : String)
    (filters : List String) : Task RunError σ String := do
  let parts ← filters.mapM (filterConditions remote)
  let rule : RouteRule := ⟨Destination.ofName destination, parts.flatten⟩
  let rendered :=
    match LineClient.ofClient? client with
    | some client => renderLines client rule
    | none => renderObject rule
  match rendered with
  | .ok text => return text
  | .error e => throw (.rule e)

/-! ## Commands -/

/-- Execute a command at a local time in seconds, and give what it prints. -/
def execute (remote : Task.Remote σ) (seconds : Int) :
    Command → Task RunError (σ × Fetcher.Cache) String
  | generate options => (Run.load options seconds remote) >>= fun reports => return table reports
  | render client destination filters =>
    renderFilters (Run.cachedRemote remote) client destination filters

/-- What the program prints when it is asked for its version. -/
def versionText : String :=
  "rule-gen 0.1.0\n"

end Command

/-- Run the program on a file tree. -/
def Execution.ofArgs (args : List String) (seconds : Int) (files : FileTree) :
    Execution × FileTree :=
  match Command.read args with
  | .error .help => (⟨0, "", "", []⟩, files)
  | .error .version => (⟨0, Command.versionText, "", []⟩, files)
  | .error .misuse => (⟨2, "", "", []⟩, files)
  | .ok command =>
    let world : World (Unit × Fetcher.Cache) := ⟨files, ((), []), []⟩
    match (command.execute Fetcher.ofFiles seconds).run.run world with
    | (.ok output, world) => (⟨0, output, "", world.notices⟩, world.files)
    | (.error e, world) => (⟨1, "", "Error: " ++ e.message, world.notices⟩, world.files)

end RoutingRules
