import RoutingRules.RouteRule
import RoutingRules.SingBox.AddressSplit
import RoutingRules.SingBox.Compile
import RoutingRules.SingBox.Options
import RoutingRules.SingBox.Template

/-!
# Configurations of sing-box

Makes a configuration from a template.  The filters of the template are expanded, the rules are
grouped and put behind those of the template, and large rules may be moved into rule sets.  All
outbounds that rules lead to have to exist.
-/

namespace RoutingRules.SingBox

/-! ## Outbounds -/

/-- The outbound for name queries, which is always there. -/
def dnsOutbound : String :=
  "DNS"

/-- The outbound for connections that no rule matches, unless it is set. -/
def defaultFinal : String :=
  "PROXY"

/-- The tag of an outbound of a template. -/
def outboundTag (outbound : Json) : Option String :=
  (outbound.field? "tag").bind Json.toText?

/-- The tags of the outbounds of a template. -/
def outboundTags (document : SortedMap Json) : List String :=
  (((document.get? "outbounds").bind Json.toItems?).getD []).filterMap outboundTag

/-- The names of all outbounds: those of the table, of the template, and the one for name queries. -/
def outboundNames (table : DestinationTable) (document : SortedMap Json) : List String :=
  dnsOutbound :: table.names ++ outboundTags document

/-- Refuse an outbound that does not exist. -/
def checkOutbound (names : List String) (name : String) : Result Unit :=
  if names.contains name then .ok () else .error (.unknownDestination name)

/-! ## Rules -/

/-- The rules made from one routing rule. -/
structure Routed where
  /-- The rules that stand where the routing rule stood. -/
  direct : List Rule
  /-- The rules on destination addresses that come last. -/
  deferred : List Rule
  /-- How many conditions sing-box does not know. -/
  unsupported : Nat

/-- Make rules from a grouped condition. -/
def routeNode (action : Action) (splitAddress : Bool) (node : Node) (unsupported : Nat) : Routed :=
  if splitAddress then
    let parts := node.splitAddress
    { direct := parts.direct.toList.map fun n => ⟨action, n⟩
      deferred := parts.byAddress.toList.map fun n => ⟨action, n⟩
      unsupported }
  else ⟨[⟨action, node⟩], [], unsupported⟩

/-- Refuse a routing rule to an outbound that does not exist. -/
def checkDestination (names : List String) : Destination → Result Unit
  | .reject => .ok ()
  | .outbound name => checkOutbound names name

/-- Make rules from a routing rule, together with the notices about it. -/
def routeRule (options : Options) (included : List Kind) (names : List String)
    (rule : RouteRule) : Result (Routed × List Notice) := do
  checkDestination names rule.destination
  let grouped ← group rule.conditions included options.mode
  let routed :=
    match grouped.node with
    | none => ⟨[], [], grouped.unsupported⟩
    | some node =>
      routeNode (.ofDestination rule.destination) options.splitAddress node grouped.unsupported
  return (routed, grouped.notices)

/-- The rules of all routing rules in order, those on destination addresses last. -/
def arrange (parts : List Routed) : List Rule × Nat :=
  (parts.flatMap Routed.direct ++ parts.flatMap Routed.deferred,
    Number.total (parts.map Routed.unsupported))

/-! ## Templates -/

/-- The object that a template is. -/
def readTemplate : Json → Result (SortedMap Json)
  | .obj fields => .ok (.ofList fields)
  | .null => .ok .empty
  | value => .error (.parse (.templateNotObject value))

/-- The fields of the routing section; a template without one has an empty one. -/
def readRoute (document : SortedMap Json) : Result (SortedMap Json) :=
  match document.get? "route" with
  | none => .ok .empty
  | some (.obj fields) => .ok (.ofList fields)
  | some _ => .error (.parse .routeNotObject)

/-- The rules of the routing section. -/
def readRules (route : SortedMap Json) : Result (List Json) :=
  match route.get? "rules" with
  | none => .ok []
  | some (.arr items) => .ok items
  | some value => .error (.parse (.routeRulesNotList value))

/-- The rule sets of the routing section. -/
def readRuleSets (route : SortedMap Json) : Result (List Json) :=
  match route.get? referencesKey with
  | none => .ok []
  | some (.arr items) => .ok items
  | some _ => .error (.parse .routeTagsNotList)

/-! ## Rule sets -/

/-- A rule of a template, which stays as it is where it cannot be read. -/
structure TemplateRule where
  value : Json
  rule : Option Rule

/-- Read a rule of a template. -/
def TemplateRule.ofJson (value : Json) : TemplateRule :=
  ⟨value, (Rule.ofJson value).toOption⟩

/-- Put extracted rules back to where the rules were read.  A rule from which nothing was extracted
stays as it was written.  The rules that are left over are returned. -/
def putBack : List TemplateRule → List Rule → List Json × List Rule
  | [], extracted => ([], extracted)
  | ⟨value, none⟩ :: rules, extracted =>
    let (values, rest) := putBack rules extracted
    (value :: values, rest)
  | ⟨value, some _⟩ :: rules, [] =>
    let (values, rest) := putBack rules []
    (value :: values, rest)
  | ⟨value, some written⟩ :: rules, rule :: extracted =>
    let (values, rest) := putBack rules extracted
    ((if rule.node = written.node then value else rule.toJson) :: values, rest)

/-- The routing section while it is being made. -/
structure Routes where
  /-- The fields other than the rules. -/
  route : SortedMap Json
  /-- The rules of the template. -/
  template : List Json
  /-- The rules made from routing rules. -/
  made : List Rule
  artifacts : List Artifact

variable {σ : Type}

/-- Move large rules into rule sets. -/
def Routes.compile (minSize : Nat) (compiler : Compiler) (routes : Routes) :
    Task RuleError σ Routes := do
  let template := routes.template.map TemplateRule.ofJson
  let extraction ← extract minSize (template.filterMap TemplateRule.rule ++ routes.made)
  let artifacts ← compiler.compileAll extraction.sets
  let (values, made) := putBack template extraction.rules
  let sets ← readRuleSets routes.route
  let sets := sets ++ artifacts.map fun a => a.descriptor.toJson
  return {
    route := routes.route.insert referencesKey (.arr sets)
    template := values
    made
    artifacts }

/-! ## Documents -/

/-- A finished configuration. -/
structure Document where
  content : Json
  artifacts : List Artifact
  /-- How many conditions sing-box does not know. -/
  unsupported : Nat

/-- How a configuration is made. -/
structure Generator (σ : Type) where
  options : Options
  destinations : DestinationTable
  remote : Task.Remote σ
  /-- How rule sets are compiled, if they are. -/
  compiler : Option Compiler

namespace Generator

/-- Expand the filters of the section for name queries. -/
def expandDns (g : Generator σ) (included : List Kind) (document : SortedMap Json) :
    Task RuleError σ (Expanded (SortedMap Json)) := do
  match document.get? "dns" with
  | none => return (document, 0)
  | some dns =>
    let (dns, count) ← Expansion.expand ⟨g.remote, included, g.options.mode, true⟩ dns
    return (document.insert "dns" dns, count)

/-- Expand the filters of a rule of the template, and refuse an outbound that does not exist. -/
def expandRule (g : Generator σ) (included : List Kind) (names : List String) (rule : Json) :
    Task RuleError σ (Expanded Json) := do
  let (rule, count) ← Expansion.expand ⟨g.remote, included, g.options.mode, false⟩ rule
  match (rule.field? "outbound").bind Json.toText? with
  | some name => checkOutbound names name
  | none => pure ()
  return (rule, count)

/-- Make rules from routing rules. -/
def routeRules (g : Generator σ) (included : List Kind) (names : List String)
    (rules : List RouteRule) : Task RuleError σ (List Rule × Nat) := do
  let parts ← rules.mapM fun rule => do
    let (routed, notices) ← routeRule g.options included names rule
    Task.tell notices
    return routed
  return arrange parts

/-- Check the outbound for all other connections, or set it. -/
def finish (names : List String) (route : SortedMap Json) :
    Task RuleError σ (SortedMap Json) := do
  match route.get? "final" with
  | some (.str name) =>
    checkOutbound names name
    return route
  | some value => throw (.parse (.finalNotText value))
  | none =>
    Task.tell [.finalDefaulted defaultFinal]
    return route.insert "final" (.str defaultFinal)

/-- Make a configuration from a template and routing rules. -/
def generate (g : Generator σ) (rules : List RouteRule) (template : Json) :
    Task RuleError σ Document := do
  let document ← readTemplate template
  let included := (← g.options.kinds).getD []
  let names := outboundNames g.destinations document
  let (document, dnsCount) ← g.expandDns included document
  let route ← readRoute document
  let templateRules ← readRules route
  let expanded ← templateRules.mapM (g.expandRule included names)
  let (made, madeCount) ← g.routeRules included names rules
  let routes : Routes := ⟨route, expanded.map Prod.fst, made, []⟩
  let routes ←
    match g.compiler with
    | none => pure routes
    | some compiler => routes.compile g.options.ruleSet.minSize compiler
  let all := routes.template ++ routes.made.map Rule.toJson
  let route ← finish names (routes.route.insert "rules" (.arr all))
  return {
    content := .ofMap (document.insert "route" (.ofMap route))
    artifacts := routes.artifacts
    unsupported := dnsCount + Number.total (expanded.map Prod.snd) + madeCount }

end Generator

end RoutingRules.SingBox
