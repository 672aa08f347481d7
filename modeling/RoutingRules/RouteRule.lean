import RoutingRules.Condition
import RoutingRules.Destination

/-!
# Routing rules
-/

namespace RoutingRules

/-- A rule: connections that meet any of the conditions go to the destination. -/
structure RouteRule where
  destination : Destination
  conditions : List Condition
deriving DecidableEq, Repr

/-- Replace names of the destination one after another. -/
def RouteRule.renameAll (renames : List (String × String)) (rule : RouteRule) : RouteRule :=
  { rule with destination := rule.destination.renameAll renames }

end RoutingRules
