import RoutingRules.Client
import RoutingRules.Destination

/-!
# Clients with lines

Clash and Quantumult X have a line for every condition of a rule.
-/

namespace RoutingRules

/-- A client whose rules are lines. -/
inductive LineClient where
  | clash
  | quantumult
deriving DecidableEq, Repr

namespace LineClient

/-- The client. -/
def client : LineClient → Client
  | clash => .clash
  | quantumult => .quantumult

/-- The client as one with lines. -/
def ofClient? : Client → Option LineClient
  | .clash => some clash
  | .quantumult => some quantumult
  | .singBox => none

/-- The name for rejection. -/
def rejectName : LineClient → String
  | clash => "REJECT"
  | quantumult => "reject"

/-- The name of a destination. -/
def destinationName (client : LineClient) : Destination → String
  | .outbound name => name
  | .reject => client.rejectName

/-- The extension of the names of configuration files. -/
def extension : LineClient → String
  | clash => "yaml"
  | quantumult => "conf"

end LineClient

end RoutingRules
