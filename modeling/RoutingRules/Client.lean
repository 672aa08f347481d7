/-!
# Clients

The proxy clients whose configurations can be written.
-/

namespace RoutingRules

/-- A proxy client. -/
inductive Client where
  | clash
  | quantumult
  | singBox
deriving DecidableEq, Repr

namespace Client

/-- The name of a client in configurations and messages. -/
def name : Client → String
  | .clash => "clash"
  | .quantumult => "quantumult"
  | .singBox => "sing-box"

/-- All clients. -/
def all : List Client :=
  [.clash, .quantumult, .singBox]

/-- The client of a name. -/
def ofName? (text : String) : Option Client :=
  all.find? fun client => client.name = text

end Client

end RoutingRules
