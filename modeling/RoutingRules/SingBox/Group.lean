import RoutingRules.Condition
import RoutingRules.Notice
import RoutingRules.SingBox.Node

/-!
# Grouping conditions

Groups the conditions of a rule by the fields of sing-box.  Conditions on processes are left out
unless their kinds are asked for; those that remain make up a leaf of their own, which comes first
in a logical rule with the leaf of all other conditions.  Conditions that sing-box does not know
are dropped and counted.
-/

namespace RoutingRules.SingBox

/-! ## Fields -/

/-- A condition as a field. -/
structure Field where
  isProcess : Bool
  key : String
  value : Json

/-- Whether a condition is not one of those on processes that are left out. -/
def isWanted (included : List Kind) (c : Condition) : Bool :=
  !c.kind.isProcess || included.contains c.kind

/-- The field of a condition, unless sing-box does not know its kind. -/
def fieldOf (c : Condition) : Result (Option Field) :=
  match c.singBoxField with
  | .ok (key, value) => .ok (some ⟨c.kind.isProcess, key, value⟩)
  | .error e => if e.isUnsupported then .ok none else .error e

/-- The leaf of the fields on processes, or of all others. -/
def leafOf (isProcess : Bool) (fields : List Field) : Leaf :=
  Leaf.empty.pushAll
    ((fields.filter fun f => f.isProcess = isProcess).map fun f => (f.key, f.value))

/-! ## Groups -/

/-- The rule of a leaf on processes and a leaf of other conditions, if there are any. -/
def joinLeaves (mode : Mode) (process other : Leaf) : Option Node :=
  match process.isEmpty, other.isEmpty with
  | true, true => none
  | true, false => some (.leaf other)
  | false, true => some (.leaf process)
  | false, false => some (.logical mode [.leaf process, .leaf other] .empty)

/-- Conditions grouped into a rule. -/
structure Grouped where
  node : Option Node
  /-- How many conditions sing-box does not know. -/
  unsupported : Nat
deriving DecidableEq

/-- Group conditions. -/
def group (conditions : List Condition) (included : List Kind) (mode : Mode) : Result Grouped := do
  let found ← (conditions.filter (isWanted included)).mapM fieldOf
  let fields := found.filterMap id
  return {
    node := joinLeaves mode (leafOf true fields) (leafOf false fields)
    unsupported := found.length - fields.length }

/-- The notices about conditions that were dropped. -/
def Grouped.notices (grouped : Grouped) : List Notice :=
  if grouped.unsupported = 0 then [] else [.conditionsDropped grouped.unsupported]

end RoutingRules.SingBox
