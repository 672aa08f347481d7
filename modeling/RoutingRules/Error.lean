import RoutingRules.Kind
import RoutingRules.Files.Fault
import RoutingRules.Json.Print
import RoutingRules.Text.Quoted

/-!
# Errors of the rule library

Every way in which reading, rendering, grouping or compiling rules can fail, as its cause, and
the one place that words them.
-/

namespace RoutingRules

/-! ## Texts and values that are not well formed -/

/-- Why a rule, a list of rules or a rule object is not well formed. -/
inductive ParseFault where
  /-- A value was given to the condition that holds always. -/
  | valueNotTaken
  | valueRequired (kind : Kind)
  | invalidNetwork (value : String)
  | invalidPort (value : String) (fault : Number.Fault)
  | invalidPortRange (value : String)
  | literalTakesNoValue (token literal : String)
  | literalWithoutValue (literal : String)
  | badResolutionMark (mark literal : String)
  | tooManyFields (literal : String)
  | unparsableLine (line : String)
  | urlRequired (type : String)
  | argsRequired (type : String)
  | badResolutionArg (text type : String)
  | payloadMissing
  | payloadEntryNotText
  | ruleNotObject (value : Json)
  | badLogicalMode (mode : Option String)
  | logicalWithoutRules
  | tagNotText (value : Json)
  | badTags (value : Json)
  | badAction (action : Option String) (value : Json)
  | templateNotObject (value : Json)
  | routeNotObject
  | routeRulesNotList (value : Json)
  | routeTagsNotList
  | finalNotText (value : Json)

/-- An optional text as messages show it. -/
def optionalText : Option String → String
  | none => "None"
  | some text => "Some(" ++ Text.quoted text ++ ")"

/-- The wording of a fault. -/
def ParseFault.message : ParseFault → String
  | .valueNotTaken => "MATCH rule does not take a value"
  | .valueRequired kind => kind.name ++ " rule requires a value"
  | .invalidNetwork value => "invalid CIDR '" ++ value ++ "': invalid IP address syntax"
  | .invalidPort value fault => "invalid port '" ++ value ++ "': " ++ fault.message
  | .invalidPortRange value => "invalid port range '" ++ value ++ "'"
  | .literalTakesNoValue token literal =>
    token ++ " rule does not take a value: " ++ literal
  | .literalWithoutValue literal => "missing value in rule: " ++ literal
  | .badResolutionMark mark literal =>
    "cannot parse the last part (" ++ mark ++ ") of rule " ++ literal ++
      ", expect either `no-resolve` or `resolve`"
  | .tooManyFields literal => "too many fields in rule: " ++ literal
  | .unparsableLine line => "got unparsable rule " ++ line
  | .urlRequired type => "`url` is required for " ++ type ++ " filters"
  | .argsRequired type => type ++ " filter requires `args`"
  | .badResolutionArg text type => "invalid resolve flag `" ++ text ++ "` in " ++ type
  | .payloadMissing => "missing 'payload' sequence in YAML"
  | .payloadEntryNotText => "payload entry must be a string"
  | .ruleNotObject value => "sing-box rule must be an object: " ++ value.compact
  | .badLogicalMode mode => "invalid logical rule mode: " ++ optionalText mode
  | .logicalWithoutRules => "logical rule requires `rules`"
  | .tagNotText value => "rule_set entry must be a string: " ++ value.compact
  | .badTags value => "invalid rule_set: " ++ value.compact
  | .badAction action value =>
    "unsupported rule action " ++ optionalText action ++ " in " ++ value.compact
  | .templateNotObject value => "sing-box template must be an object, got: " ++ value.compact
  | .routeNotObject => "`route` in sing-box template must be an object"
  | .routeRulesNotList value => "`route.rules` must be a list, got: " ++ value.compact
  | .routeTagsNotList => "`route.rule_set` must be a list"
  | .finalNotText value => "`route.final` must be a string, got: " ++ value.compact

/-! ## Remote lists, tools and documents -/

/-- Why a rule list could not be fetched. -/
inductive FetchFault where
  | missing (url : String)
  | unreadable (path : String) (fault : Files.Fault)
  /-- A request that could not be made; the address is shown as it would be requested. -/
  | badRequest (url : String) (requested : Option String)
  | unreachable (url : String) (requested : String)

/-- The wording of a fault. -/
def FetchFault.message : FetchFault → String
  | .missing url => "HTTP 404 Not Found for " ++ url
  | .unreadable path fault => "failed to read " ++ path ++ ": " ++ fault.message
  | .badRequest url none => "request failed for " ++ url ++ ": builder error"
  | .badRequest url (some requested) =>
    "request failed for " ++ url ++ ": builder error for url (" ++ requested ++ ")"
  | .unreachable url requested =>
    "request failed for " ++ url ++ ": error sending request for url (" ++ requested ++ ")"

/-- How a tool ended, in messages. -/
def exitText (code : Nat) : String :=
  "exit status: " ++ Number.decimal code

/-- Why rule sets could not be compiled. -/
inductive ToolFault where
  | unrecognizedVersion (line : String)
  | invalidVersionNumber (digits : String) (fault : Number.Fault)
  | versionNotRun (binary : String) (fault : Files.Fault)
  | versionFailed (binary : String) (code : Nat)
  | compileNotRun (binary : String) (fault : Files.Fault)
  | compileFailed (tag : String) (code : Nat) (complaint : String)
  | resultMissing (path : String) (fault : Files.Fault)

/-- The wording of a fault. -/
def ToolFault.message : ToolFault → String
  | .unrecognizedVersion line => "unrecognized version output: " ++ line
  | .invalidVersionNumber digits fault =>
    "invalid version number '" ++ digits ++ "': " ++ fault.message
  | .versionNotRun binary fault =>
    "failed to execute " ++ binary ++ " version: " ++ fault.message
  | .versionFailed binary code =>
    binary ++ " version failed with status: " ++ exitText code
  | .compileNotRun binary fault =>
    "failed to execute " ++ binary ++ " rule-set compile: " ++ fault.message
  | .compileFailed tag code complaint =>
    "compiling rule-set " ++ tag ++ " failed with status " ++ exitText code ++ ": " ++ complaint
  | .resultMissing path fault =>
    "compiled rule-set " ++ path ++ " is missing: " ++ fault.message

/-- Why a document is not the JSON that was expected, or cannot become JSON. -/
inductive JsonFault where
  | notASequence (found : Json)
  | notAFilter
  | keyNotText
  | keyNotFinite

/-- A value as messages about its type show it. -/
def Json.described : Json → String
  | .null => "null"
  | .bool b => "boolean `" ++ renderBool b ++ "`"
  | .int i => "integer `" ++ Number.decimalInt i ++ "`"
  | .float x => "floating point `" ++ x.render exponentStyle ++ "`"
  | .str text => "string " ++ Text.quoted text
  | .arr _ => "sequence"
  | .obj _ => "map"

/-- The wording of a fault. -/
def JsonFault.message : JsonFault → String
  | .notASequence found => "invalid type: " ++ found.described ++ ", expected a sequence"
  | .notAFilter => "data did not match any variant of untagged enum FilterSpec"
  | .keyNotText => "key must be a string"
  | .keyNotFinite => "float key must be finite (got NaN or +/-inf)"

/-! ## All errors -/

/-- An error of the rule library. -/
inductive RuleError where
  | parse (fault : ParseFault)
  /-- A source of conditions that held none. -/
  | emptySource (source : String)
  /-- A condition that has to say whether addresses are looked up, and does not. -/
  | unresolved (condition : String)
  /-- A value that is not a network of the family of its kind, named as the family. -/
  | wrongFamily (value family : String)
  /-- A line of a network list that is a network of neither family. -/
  | ambiguousFamily (line : String)
  | unknownKind (token : String)
  | unsupported (kind : Kind) (client : Client)
  | unknownDestination (name : String)
  | tagConflict (tag : String)
  | tool (fault : ToolFault)
  | fetch (fault : FetchFault)
  | io (fault : Files.Fault)
  | yaml
  | json (fault : JsonFault)

namespace RuleError

/-- What is said of a YAML document that is not the one expected. -/
def yamlComplaint : String :=
  "the document is not well formed or not of the expected shape"

/-- The wording of an error. -/
def message : RuleError → String
  | .parse fault => "parse error: " ++ fault.message
  | .emptySource source => "got empty parsing result from: " ++ source
  | .unresolved condition =>
    "rule `" ++ condition ++ "` must explicitly specify `resolve` or `no-resolve`"
  | .wrongFamily value family =>
    "ambiguous IP family: " ++ value ++ " is not an " ++ family ++ " network"
  | .ambiguousFamily line => "ambiguous IP family: " ++ line
  | .unknownKind token => token ++ " was not registered as a matcher kind"
  | .unsupported kind client => kind.name ++ " is not supported by " ++ client.name
  | .unknownDestination name => "unknown destination: " ++ name
  | .tagConflict tag => "rule-set tag conflict: " ++ tag
  | .tool fault => "rule-set compiler error: " ++ fault.message
  | .fetch fault => "fetch error: " ++ fault.message
  | .io fault => "io error: " ++ fault.message
  | .yaml => "yaml error: " ++ yamlComplaint
  | .json fault => "json error: " ++ fault.message

/-- Whether only one condition is given up, because a client does not know its kind. -/
def isUnsupported : RuleError → Bool
  | .unsupported _ _ => true
  | _ => false

end RuleError

/-- A result of the rule library. -/
abbrev Result := Except RuleError

end RoutingRules
