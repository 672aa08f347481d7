import RoutingRules.Kind.Registry
import RoutingRules.SingBox.Node

/-!
# Rule trees as JSON objects

A logical rule is an object whose type says so; it has a mode and a list of rules.  In any other
object the fields are told apart by their keys: conditions, references to rule sets and the rest.
A single value stands for a list of one.
-/

namespace RoutingRules.SingBox

/-! ## Keys -/

/-- The key of the references to rule sets. -/
def referencesKey : String :=
  "rule_set"

/-- The type of logical rules. -/
def logicalType : String :=
  "logical"

/-! ## Writing -/

/-- The fields of a leaf. -/
def Leaf.toMap (leaf : Leaf) : SortedMap Json :=
  let fields := leaf.extra.insertAll (leaf.conditions.entries.map fun e => (e.1, .arr e.2))
  if leaf.references.isEmpty then fields
  else fields.insert referencesKey (.ofTexts leaf.references)

namespace Node

mutual

/-- The fields of a rule. -/
def toMap : Node → SortedMap Json
  | leaf l => l.toMap
  | logical mode children extra =>
    ((extra.insert "type" (.str logicalType)).insert "mode" (.str mode.name)).insert "rules"
      (.arr (toJsonAll children))

/-- Rules as JSON objects. -/
def toJsonAll : List Node → List Json
  | [] => []
  | node :: nodes => .ofMap (toMap node) :: toJsonAll nodes

end

/-- A rule as a JSON object. -/
def toJson (node : Node) : Json :=
  .ofMap node.toMap

end Node

/-! ## Reading -/

/-- Read a tag. -/
def readTag : Json → Result String
  | .str tag => .ok tag
  | value => .error (.parse (.tagNotText value))

/-- Read the references of a leaf. -/
def readReferences : Json → Result (List String)
  | .str tag => .ok [tag]
  | .arr items => items.mapM readTag
  | value => .error (.parse (.badTags value))

/-- The alternatives of a field. -/
def alternatives : Json → List Json
  | .arr items => items
  | value => [value]

/-- Whether a field of a leaf holds conditions. -/
def holdsConditions (key : String) : Bool :=
  key ≠ referencesKey && Kind.isConditionField key

/-- The fields with conditions. -/
def conditionFields (fields : List (String × Json)) : SortedMap (List Json) :=
  .ofList ((fields.filter fun f => holdsConditions f.1).map fun f => (f.1, alternatives f.2))

/-- The fields that are neither conditions nor references. -/
def extraFields (fields : List (String × Json)) : SortedMap Json :=
  .ofList (fields.filter fun f => f.1 ≠ referencesKey && !Kind.isConditionField f.1)

/-- Read a leaf. -/
def Leaf.ofFields (fields : List (String × Json)) : Result Leaf := do
  let references ←
    match SortedMap.lookupEntry referencesKey fields with
    | none => pure []
    | some value => readReferences value
  return ⟨conditionFields fields, references, extraFields fields⟩

/-- Whether the fields are those of a logical rule. -/
def isLogical (fields : List (String × Json)) : Bool :=
  (SortedMap.lookupEntry "type" fields).bind Json.toText? = some logicalType

/-- Read the mode of a logical rule. -/
def readMode (fields : List (String × Json)) : Result Mode :=
  let name := (SortedMap.lookupEntry "mode" fields).bind Json.toText?
  match name.bind Mode.ofName? with
  | some mode => .ok mode
  | none => .error (.parse (.badLogicalMode name))

/-- The fields of a logical rule that are neither its type nor its mode nor its rules. -/
def logicalExtra (fields : List (String × Json)) : SortedMap Json :=
  .ofList (fields.filter fun f => !(["type", "mode", "rules"].contains f.1))

namespace Node

mutual

/-- Read a rule. -/
def ofJson : Json → Result Node
  | .obj fields =>
    if isLogical fields then do
      let mode ← readMode fields
      let children ← ofRulesField fields
      return logical mode children (logicalExtra fields)
    else (Leaf.ofFields fields).map leaf
  | value => .error (.parse (.ruleNotObject value))

/-- Read the rules of a logical rule, which are in one of its fields. -/
def ofRulesField : List (String × Json) → Result (List Node)
  | [] => .error (.parse .logicalWithoutRules)
  | (key, value) :: fields => if key = "rules" then ofRules value else ofRulesField fields

/-- Read a list of rules. -/
def ofRules : Json → Result (List Node)
  | .arr items => ofItems items
  | _ => .error (.parse .logicalWithoutRules)

/-- Read rules one after another. -/
def ofItems : List Json → Result (List Node)
  | [] => .ok []
  | item :: items => do
    let node ← ofJson item
    let nodes ← ofItems items
    return node :: nodes

end

end Node

end RoutingRules.SingBox
