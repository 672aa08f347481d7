import RoutingRules.Line.Client
import RoutingRules.Notice
import RoutingRules.RouteRule

/-!
# Rules as lines

Renders rules as the lines of a client.  A client goes through its lines from the top and looks
up the address of a domain at the first line that needs it, so lines come in three stages: those
that need no address, those that do, and the line for all connections.  Of lines that test the
same, only the first one is kept.
-/

namespace RoutingRules

/-! ## Single conditions -/

/-- A line, and what it shares with the lines that test the same. -/
structure LineEntry where
  key : String
  line : String
deriving DecidableEq, Repr

/-- Put a destination behind the fields of a line, though in front of a resolution mark. -/
def withDestination (name : String) (fields : List String) : List String :=
  if fields.getLast? = some Condition.noResolve then
    fields.dropLast ++ [name, Condition.noResolve]
  else fields ++ [name]

/-- The entry of a condition and a destination. -/
def LineEntry.ofCondition (client : LineClient) (d : Destination) (c : Condition) :
    Result LineEntry :=
  (c.lineFields client.client).map fun fields =>
    { key := Text.joinWith "," (fields.takeWhile (· ≠ Condition.noResolve))
      line := Text.joinWith "," (withDestination (client.destinationName d) fields) }

/-! ## Stages -/

/-- Where a line belongs. -/
inductive LineStage where
  /-- No address is looked up. -/
  | direct
  /-- The address of a domain is looked up. -/
  | resolving
  /-- All connections. -/
  | fallback
deriving DecidableEq, Repr

/-- The stages in their order. -/
def LineStage.all : List LineStage :=
  [direct, resolving, fallback]

/-- The stage of a condition. -/
def Condition.stage (c : Condition) : LineStage :=
  if c.kind = .matchAll then .fallback
  else if c.requiresResolution then .resolving
  else .direct

/-! ## All rules -/

/-- What became of a condition. -/
inductive LineAttempt where
  | placed (stage : LineStage) (entry : LineEntry)
  /-- The client does not know the kind of the condition. -/
  | skipped (notice : Notice)
  | failed (error : RuleError)

namespace LineAttempt

/-- Render a condition. -/
def ofCondition (client : LineClient) (d : Destination) (c : Condition) : LineAttempt :=
  match LineEntry.ofCondition client d c with
  | .ok entry => placed c.stage entry
  | .error e =>
    if e.isUnsupported then skipped (.conditionSkipped c.text d.name e.message) else failed e

/-- Render the conditions of rules. -/
def ofRules (client : LineClient) (rules : List RouteRule) : List LineAttempt :=
  rules.flatMap fun rule => rule.conditions.map (ofCondition client rule.destination)

/-- The error of a failed attempt. -/
def error? : LineAttempt → Option RuleError
  | failed error => some error
  | _ => none

/-- The notice of a condition that was skipped. -/
def notice? : LineAttempt → Option Notice
  | skipped notice => some notice
  | _ => none

/-- The entry that was placed in a stage. -/
def entryIn? (stage : LineStage) : LineAttempt → Option LineEntry
  | placed s entry => if s = stage then some entry else none
  | _ => none

end LineAttempt

/-- Keep the first of the entries with one key; `seen` are the keys met before. -/
def firstEntries (seen : List String) : List LineEntry → List LineEntry
  | [] => []
  | entry :: rest =>
    if entry.key ∈ seen then firstEntries seen rest
    else entry :: firstEntries (entry.key :: seen) rest

/-- The entries of all stages in order. -/
def stagedEntries (attempts : List LineAttempt) : List LineEntry :=
  LineStage.all.flatMap fun stage => attempts.filterMap (LineAttempt.entryIn? stage)

/-- Rules as lines. -/
structure RenderedRules where
  lines : List String
  /-- How many lines were left out because an earlier one tests the same. -/
  duplicates : Nat
  /-- How many conditions the client does not know. -/
  unsupported : Nat
deriving DecidableEq, Repr

namespace RenderedRules

/-- Put the lines of conditions in order. -/
def ofAttempts (attempts : List LineAttempt) : RenderedRules :=
  let staged := stagedEntries attempts
  let kept := firstEntries [] staged
  { lines := kept.map LineEntry.line
    duplicates := staged.length - kept.length
    unsupported := (attempts.filterMap LineAttempt.notice?).length }

/-- Render rules, unless a condition lacks a resolution mark that it has to have. -/
def ofRules (client : LineClient) (rules : List RouteRule) : Result RenderedRules :=
  let attempts := LineAttempt.ofRules client rules
  match attempts.findSome? LineAttempt.error? with
  | some error => .error error
  | none => .ok (ofAttempts attempts)

/-- The notices about conditions that were skipped, up to the first failure. -/
def notices (client : LineClient) (rules : List RouteRule) : List Notice :=
  ((LineAttempt.ofRules client rules).takeWhile (·.error?.isNone)).filterMap LineAttempt.notice?

end RenderedRules

end RoutingRules
