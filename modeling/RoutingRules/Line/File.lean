import RoutingRules.Line.ClashFile
import RoutingRules.Line.Client
import RoutingRules.Line.QuantumultFile

/-!
# Configuration files with lines
-/

namespace RoutingRules.LineClient

/-- The text of a configuration file with the given options, header and lines. -/
def content (client : LineClient) (options : List (Yaml × Yaml)) (header : String)
    (lines : List String) : Result String :=
  match client with
  | clash => ClashFile.content options header lines
  | quantumult => .ok (QuantumultFile.content options header lines)

/-- The notices about the options. -/
def optionNotices (client : LineClient) (options : List (Yaml × Yaml)) : List Notice :=
  match client with
  | clash => ClashFile.notices options
  | quantumult => QuantumultFile.notices options

end RoutingRules.LineClient
