import RoutingRules.Destination
import RoutingRules.SingBox.Node.Json

/-!
# Rules of sing-box with their actions
-/

namespace RoutingRules.SingBox

/-- What happens to a connection that a rule matches. -/
inductive Action where
  /-- It is sent to an outbound. -/
  | route (outbound : String)
  | reject
deriving DecidableEq, Repr

namespace Action

/-- The name of an action, from which the tags of its rule sets are made. -/
def name : Action → String
  | route outbound => outbound
  | reject => "reject"

/-- The action for a destination. -/
def ofDestination : Destination → Action
  | .outbound name => route name
  | .reject => reject

end Action

/-- A rule with its action. -/
structure Rule where
  action : Action
  node : Node
deriving DecidableEq

namespace Rule

/-- The fields of a rule. -/
def toMap (rule : Rule) : SortedMap Json :=
  match rule.action with
  | .route outbound =>
    (rule.node.toMap.insert "action" (.str "route")).insert "outbound" (.str outbound)
  | .reject => rule.node.toMap.insert "action" (.str "reject")

/-- A rule as a JSON object. -/
def toJson (rule : Rule) : Json :=
  .ofMap rule.toMap

/-- Read the action of a rule.  An outbound without an action is where connections are sent. -/
def readAction (fields : List (String × Json)) : Result Action :=
  let action := SortedMap.lookupEntry "action" fields
  let outbound := (SortedMap.lookupEntry "outbound" fields).bind Json.toText?
  match action.bind Json.toText?, outbound with
  | some "reject", _ => .ok .reject
  | some "route", some outbound => .ok (.route outbound)
  | none, some outbound => .ok (.route outbound)
  | action, _ => .error (.parse (.badAction action (.obj fields)))

/-- The fields of a rule other than its action. -/
def nodeFields (fields : List (String × Json)) : List (String × Json) :=
  fields.filter fun f => f.1 ≠ "action" && f.1 ≠ "outbound"

/-- Read a rule. -/
def ofJson : Json → Result Rule
  | .obj fields => do
    let action ← readAction fields
    let node ← Node.ofJson (.obj (nodeFields fields))
    return ⟨action, node⟩
  | value => .error (.parse (.ruleNotObject value))

end Rule

end RoutingRules.SingBox
