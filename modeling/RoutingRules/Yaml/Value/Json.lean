import RoutingRules.Error
import RoutingRules.Yaml.Value

/-!
# YAML and JSON values

Every JSON value is a YAML value.  The other way, keys have to be texts or become texts, numbers
that are not finite become null, and a value with a tag becomes an object with the tag as its key.
-/

namespace RoutingRules.Yaml

mutual

/-- A JSON value as YAML. -/
def ofJson : Json → Yaml
  | .null => .null
  | .bool b => .bool b
  | .int i => .int i
  | .float x => .real (.finite x)
  | .str text => .str text
  | .arr items => .seq (ofJsonItems items)
  | .obj fields => .map (ofJsonFields fields)

/-- The items of a JSON list as YAML. -/
def ofJsonItems : List Json → List Yaml
  | [] => []
  | item :: items => ofJson item :: ofJsonItems items

/-- The fields of a JSON object as YAML. -/
def ofJsonFields : List (String × Json) → List (Yaml × Yaml)
  | [] => []
  | (key, value) :: fields => (.str key, ofJson value) :: ofJsonFields fields

end

/-- A key as the text that it is in JSON. -/
def keyText : Yaml → Except JsonFault String
  | .str text => .ok text
  | .bool b => .ok (boolText b)
  | .int i => .ok (Number.decimalInt i)
  | .real (.finite x) => .ok (x.render Json.exponentStyle)
  | .real _ => .error .keyNotFinite
  | _ => .error .keyNotText

/-- A tag as the text that it is in JSON. -/
def tagText (tag : String) : String :=
  "!" ++ tag

mutual

/-- A value as JSON. -/
def toJson : Yaml → Except JsonFault Json
  | .null => .ok .null
  | .bool b => .ok (.bool b)
  | .int i => .ok (.int i)
  | .real (.finite x) => .ok (.float x)
  | .real _ => .ok .null
  | .str text => .ok (.str text)
  | .seq items => (toJsonItems items).map .arr
  | .map entries => (toJsonFields entries).map fun fields => .ofMap (SortedMap.ofList fields)
  | .tagged tag value => (toJson value).map fun value => .obj [(tagText tag, value)]

/-- Items as JSON. -/
def toJsonItems : List Yaml → Except JsonFault (List Json)
  | [] => .ok []
  | item :: items => do
    let item ← toJson item
    let items ← toJsonItems items
    return item :: items

/-- Entries as the fields of a JSON object. -/
def toJsonFields : List (Yaml × Yaml) → Except JsonFault (List (String × Json))
  | [] => .ok []
  | (key, value) :: entries => do
    let key ← keyText key
    let value ← toJson value
    let fields ← toJsonFields entries
    return (key, value) :: fields

end

end RoutingRules.Yaml
