import RoutingRules.Error

/-!
# Errors of runs

How a run fails as a whole or for one of its targets.  An error is worded with its causes behind
it.
-/

namespace RoutingRules

/-- The wording of an error with its causes.  An error that wraps another one is followed by the
wording of that one. -/
def RuleError.chain : RuleError → String
  | .io fault => (RuleError.io fault).message ++ ": " ++ fault.message
  | .json fault => (RuleError.json fault).message ++ ": " ++ fault.message
  | e => e.message

/-- An error of a run. -/
inductive RunError where
  | rule (cause : RuleError)
  | configNotRead (path : String) (fault : Files.Fault)
  | configMalformed (path : String)
  | unknownTarget (name : String)
  | invalidRule (index : Nat) (cause : RuleError)
  | filterFailed (filter destination : String) (cause : RuleError)
  | notRendered (client : Client) (cause : RuleError)
  | optionsNotJson (fault : JsonFault)
  | baseUrlMissing
  | directoryNotMade (path : String) (fault : Files.Fault)
  | notWritten (path : String) (fault : Files.Fault)
  | targetsFailed (failed : List String) (count : Nat)
  /-- A filter of the command line that is none. -/
  | invalidFilter (text : String)
  /-- A filter of the command line that could not be resolved. -/
  | filterUnresolved (filter : String) (cause : RuleError)

namespace RunError

/-- The names of failed targets. -/
def failedNames : List String → String
  | [] => ""
  | [name] => name
  | name :: other :: names => name ++ ", " ++ failedNames (other :: names)

/-- The wording of an error with its causes. -/
def message : RunError → String
  | rule cause => cause.chain
  | configNotRead path fault =>
    "Failed to read config file: " ++ path ++ ": " ++ fault.message
  | configMalformed path =>
    "Failed to parse config file: " ++ path ++ ": " ++ RuleError.yamlComplaint
  | unknownTarget name => "Unknown target: " ++ name
  | invalidRule index cause =>
    "Rule #" ++ Number.decimal index ++ " is invalid: " ++ cause.chain
  | filterFailed filter destination cause =>
    "Failed to resolve filter `" ++ filter ++ "` for " ++ destination ++ ": " ++ cause.chain
  | notRendered client cause =>
    "Failed to render " ++ client.name ++ " rules: " ++ cause.chain
  | optionsNotJson fault =>
    "sing-box options must be a JSON-compatible mapping: " ++ fault.message
  | baseUrlMissing => "`sing_box.rule_set.base_url` is required when rule-set is enabled"
  | directoryNotMade path fault =>
    "Failed to create directory: " ++ path ++ ": " ++ fault.message
  | notWritten path fault => "Failed to write " ++ path ++ ": " ++ fault.message
  | targetsFailed failed count =>
    Number.decimal failed.length ++ " of " ++ Number.decimal count ++ " targets failed: " ++
      failedNames failed
  | invalidFilter text => "Invalid filter: " ++ text ++ ": " ++ RuleError.yamlComplaint
  | filterUnresolved filter cause =>
    "Failed to resolve filter `" ++ filter ++ "`: " ++ cause.chain

end RunError

end RoutingRules
