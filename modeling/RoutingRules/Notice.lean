import RoutingRules.Number.Natural

/-!
# Notices

What is told about a run that nobody has to react to, and the failures of single targets.
-/

namespace RoutingRules

/-- How much a notice matters. -/
inductive Notice.Level where
  | warning
  | failure
deriving DecidableEq, Repr

/-- Something worth telling about a run. -/
inductive Notice where
  /-- A condition that a client does not know, the destination of its rule and the reason. -/
  | conditionSkipped (condition destination reason : String)
  | rulesOverwritten
  | filterLocalOverwritten
  | conditionsDropped (count : Nat)
  | filtersWithoutConditions
  | finalDefaulted (name : String)
  | ruleSetsDisabled (target : String)
  | targetFailed (target reason : String)
deriving DecidableEq, Repr

namespace Notice

/-- The level of a notice. -/
def level : Notice → Level
  | targetFailed _ _ => .failure
  | _ => .warning

/-- The wording of a notice. -/
def text : Notice → String
  | conditionSkipped condition destination reason =>
    "skip `" ++ condition ++ "` for " ++ destination ++ ": " ++ reason
  | rulesOverwritten => "`rules` in clash options is overwritten by generated rules"
  | filterLocalOverwritten =>
    "`filter_local` in quantumult sections is overwritten by generated rules"
  | conditionsDropped count =>
    Number.decimal count ++ " matchers are not supported by sing-box and were dropped"
  | filtersWithoutConditions => "filters in sing-box template expanded to no matchers"
  | finalDefaulted name =>
    "The final outbound was not set in route, fallback to the default `" ++ name ++ "`"
  | ruleSetsDisabled target => "rule-set extraction is disabled for " ++ target
  | targetFailed target reason => "Failed to generate " ++ target ++ ": " ++ reason

end Notice

end RoutingRules
