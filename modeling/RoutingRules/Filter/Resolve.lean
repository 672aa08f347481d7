import RoutingRules.Condition.RuleList
import RoutingRules.Fetch
import RoutingRules.Filter.Payload

/-!
# Conditions of filters

Resolves a filter into its conditions.  Remote lists are fetched and read by their type; any other
type is the spelling of a kind of conditions, whose value is given by the arguments.
-/

namespace RoutingRules.Filter

variable {σ : Type}

/-! ## Remote lists -/

/-- The types of remote lists. -/
inductive ListType where
  | classical
  | networks
  | domains
  | dnsmasq
  | quantumult
deriving DecidableEq, Repr

/-- The type of a list by its name. -/
def ListType.ofName? : String → Option ListType
  | "clash-classical" => some .classical
  | "clash-ipcidr" => some .networks
  | "domain-list" => some .domains
  | "dnsmasq" => some .dnsmasq
  | "quantumult" => some .quantumult
  | _ => none

/-- The layout of the lists of a type, where it is not up to the description. -/
def ListType.layout? : ListType → Option Layout
  | .dnsmasq | .quantumult => some .text
  | _ => none

/-- Read the lines of a list into conditions. -/
def ListType.conditions (type : ListType) (lines : List String) (mark : Option Bool)
    (strict : Bool) : Result (List Condition) :=
  match type with
  | .classical => RuleList.classical lines mark strict
  | .networks => RuleList.networks lines mark
  | .domains => RuleList.domains lines
  | .dnsmasq => RuleList.dnsmasq lines
  | .quantumult => RuleList.quantumult lines

/-- Fetch the lines of a list. -/
def Source.fetchLines (fetch : Fetcher σ) (s : Source) (layout : Option Layout) :
    Fetching σ (List String) := do
  match s.url with
  | none => throw (.parse (.urlRequired s.type))
  | some url =>
    let text ← fetch url
    ((layout.or s.layout).getD .text).lines text

/-- Fetch a list and read it.  A list of networks has to have a mark, which is looked at before
anything is fetched. -/
def Source.fetchConditions (fetch : Fetcher σ) (s : Source) (type : ListType) :
    Fetching σ (List Condition) := do
  if type = .networks ∧ s.mark = none then
    throw (.unresolved ("clash-ipcidr list " ++ s.url.getD "<missing url>"))
  let lines ← s.fetchLines fetch type.layout?
  type.conditions lines s.mark s.strict

/-! ## Single conditions -/

/-- Read the mark among the arguments. -/
def Source.readMark (s : Source) : Option Yaml → Result (Option Bool)
  | none => .ok none
  | some (.bool b) => .ok (some b)
  | some value =>
    let text := value.scalarText?.getD ""
    match Condition.readMark text with
    | some mark => .ok (some mark)
    | none => .error (.parse (.badResolutionArg text s.type))

/-- Read an argument that is the value of a condition. -/
def Source.readValue (s : Source) (value : Option Yaml) : Result String :=
  match value.bind Yaml.scalarText? with
  | some text => .ok text
  | none => .error (.parse (.argsRequired s.type))

/-- The value and the mark that the arguments give. -/
def Source.readArgs (s : Source) : Result (String × Option Bool) :=
  match s.args with
  | some (.seq items) => do
    let value ← s.readValue items.head?
    let mark ← s.readMark items[1]?
    return (value, mark)
  | value => do
    let value ← s.readValue value
    return (value, none)

/-- The condition that a description of a single condition gives. -/
def Source.condition (s : Source) : Result Condition := do
  let kind ← Kind.lookup s.type
  if kind = .matchAll then return .always
  else
    let (value, mark) ← s.readArgs
    Condition.make (kind.refine s.type value) value (mark.or s.mark)

/-! ## Filters -/

/-- The conditions of a source. -/
def Source.conditions (fetch : Fetcher σ) (s : Source) : Fetching σ (List Condition) := do
  match ListType.ofName? s.type with
  | some type => s.fetchConditions fetch type
  | none =>
    let condition ← s.condition
    return [condition]

/-- All conditions of a filter. -/
def allConditions (fetch : Fetcher σ) : Filter → Fetching σ (List Condition)
  | literal text => do
    let condition ← Condition.ofLiteral text
    return [condition]
  | source s => s.conditions fetch

/-- The conditions of a filter, of which there has to be one at least.  For rules about name queries
only those that can decide about them are kept. -/
def conditions (fetch : Fetcher σ) (forDns : Bool) (filter : Filter) :
    Fetching σ (List Condition) := do
  let all ← filter.allConditions fetch
  if all = [] then throw (.emptySource filter.text)
  return if forDns then all.filter fun c => c.kind.isDnsCompatible else all

/-- The conditions of several filters in order. -/
def conditionsOfAll (fetch : Fetcher σ) (forDns : Bool) (filters : List Filter) :
    Fetching σ (List Condition) := do
  let parts ← filters.mapM (conditions fetch forDns)
  return parts.flatten

end RoutingRules.Filter
