import RoutingRules.SingBox.Node

/-!
# Splitting off destination addresses

Splits a grouped rule in two: a part that does not look at the destination address, and a part
that looks only at it and can therefore wait until all other rules have been tried.
-/

namespace RoutingRules.SingBox

/-- The field of destination addresses. -/
def addressKey : String :=
  "ip_cidr"

/-- The fields on processes. -/
def processKeys : List String :=
  ["process_name", "package_name"]

/-- The parts of a rule. -/
structure AddressSplit where
  /-- The part that does not look at the destination address. -/
  direct : Option Node
  /-- The part on the destination address. -/
  byAddress : Option Node
deriving DecidableEq

/-- Split a leaf. -/
def Leaf.splitAddress (leaf : Leaf) : Option Leaf × Option Leaf :=
  match leaf.conditions.get? addressKey with
  | none => (some leaf, none)
  | some addresses =>
    let rest := { leaf with conditions := leaf.conditions.erase addressKey }
    let byAddress :=
      { Leaf.empty with
        conditions := SortedMap.empty.insert addressKey addresses
        extra := leaf.extra }
    (if rest.isEmpty then none else some rest, some byAddress)

/-- Whether a leaf looks at nothing but processes. -/
def Leaf.isProcess (leaf : Leaf) : Bool :=
  leaf.conditions.keys.all processKeys.contains

/-- The parts of a pair of a leaf on processes and another one.  When either of them is enough, the
leaf on processes is a part of its own; when both are needed, every part depends on both. -/
def splitPair (mode : Mode) (process other : Leaf) (extra : SortedMap Json) : AddressSplit :=
  let pair := fun part : Leaf => Node.logical mode [.leaf process, .leaf part] extra
  let (direct, byAddress) := other.splitAddress
  let direct :=
    match direct, mode with
    | some part, _ => some (pair part)
    | none, .or => some (.leaf process)
    | none, .and => none
  ⟨direct, byAddress.map pair⟩

/-- Split a rule.  Rules of other shapes than those of grouped conditions are left whole. -/
def Node.splitAddress : Node → AddressSplit
  | .leaf l =>
    let (direct, byAddress) := l.splitAddress
    ⟨direct.map .leaf, byAddress.map .leaf⟩
  | .logical mode [.leaf process, .leaf other] extra =>
    if process.isProcess then splitPair mode process other extra
    else ⟨some (.logical mode [.leaf process, .leaf other] extra), none⟩
  | node => ⟨some node, none⟩

end RoutingRules.SingBox
