import RoutingRules.Error

/-!
# Destinations

Where a rule sends the connections that it matches, the names that may be used for it, and rules
as conditions with a destination.
-/

namespace RoutingRules

/-- Where a rule sends a connection. -/
inductive Destination where
  /-- An outbound or a group of a client, by its name. -/
  | outbound (name : String)
  /-- The connection is rejected. -/
  | reject
deriving DecidableEq, Repr

namespace Destination

/-- The name that stands for rejection in configurations. -/
def rejectName : String :=
  "REJECT"

/-- The destination of a name. -/
def ofName (name : String) : Destination :=
  if name = rejectName then reject else outbound name

/-- The name of a destination. -/
def name : Destination → String
  | outbound name => name
  | reject => rejectName

/-- Replace one name by another.  A rejection has no name to be replaced, and its own name does not
turn an outbound into a rejection. -/
def rename (source target : String) : Destination → Destination
  | outbound name => outbound (if name = source then target else name)
  | reject => reject

/-- Make replacements one after another. -/
def renameAll (renames : List (String × String)) (d : Destination) : Destination :=
  renames.foldl (fun d r => d.rename r.1 r.2) d

end Destination

/-! ## Tables -/

/-- The names of destinations that every client has. -/
def Destination.standardNames : List String :=
  ["PROXY", "DIRECT", Destination.rejectName]

/-- The names that destinations may have. -/
structure DestinationTable where
  names : List String

namespace DestinationTable

/-- The table with the standard names and others. -/
def ofNames (names : List String) : DestinationTable :=
  ⟨Destination.standardNames ++ names⟩

/-- Whether a name may be used. -/
def contains (table : DestinationTable) (name : String) : Bool :=
  table.names.contains name

/-- Refuse a destination whose name is not in the table. -/
def check (table : DestinationTable) : Destination → Result Unit
  | .reject => .ok ()
  | .outbound name =>
    if table.contains name then .ok () else .error (.unknownDestination name)

end DestinationTable

end RoutingRules
