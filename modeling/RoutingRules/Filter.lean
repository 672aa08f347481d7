import RoutingRules.Yaml.Value.Json
import RoutingRules.Yaml.Value.OfNode

/-!
# Filters

A filter is where conditions come from: a rule on its own, or the description of a source, which
is a remote list or a single condition given by its parts.

Filters are read from YAML and JSON alike.  A description is a mapping of its fields or a list of
their values; the first shape that fits decides, and anything else is no filter.
-/

namespace RoutingRules

/-- How a remote list is written. -/
inductive Filter.Layout where
  /-- A document with the list under the key `payload`. -/
  | yaml
  /-- Lines of text. -/
  | text
deriving DecidableEq, Repr

/-- The description of a source of conditions. -/
structure Filter.Source where
  /-- The kind of list, or the spelling of a kind of conditions. -/
  type : String
  url : Option String
  layout : Option Filter.Layout
  /-- The resolution mark of conditions that have none of their own. -/
  mark : Option Bool
  /-- Whether conditions have to have marks of their own. -/
  strict : Bool
  /-- The value of a single condition, or a list of its value and its mark. -/
  args : Option Yaml

/-- Where conditions come from. -/
inductive Filter where
  | literal (text : String)
  | source (source : Filter.Source)

namespace Filter

/-! ## Text -/

/-- The name of a layout. -/
def Layout.name : Layout → String
  | .yaml => "yaml"
  | .text => "text"

/-- All layouts. -/
def Layout.all : List Layout :=
  [.yaml, .text]

/-- A filter in messages. -/
def text : Filter → String
  | literal text => text
  | source s =>
    match s.url with
    | some url => s.type ++ "(" ++ url ++ ")"
    | none => s.type

/-! ## Fields -/

/-- The names of the fields of a description, in the order of a list of their values. -/
def fieldNames : List String :=
  ["type", "url", "format", "resolve", "literal", "args"]

/-- The place of a field.  The last field has a second name. -/
def fieldPlace (name : String) : Option Nat :=
  fieldNames.findIdx? (· = if name = "arg" then "args" else name)

/-- The place that a key stands for, which may be given as a number.  Keys that stand for no field
are passed over, and other values are no keys at all. -/
def keyPlace : Yaml → Option (Option Nat)
  | .str name => some (fieldPlace name)
  | .int n => if 0 ≤ n then some (if n < 6 then some n.toNat else none) else none
  | _ => none

/-- The values of a description by their places. -/
abbrev Fields := List (Nat × Yaml)

/-- The value at a place. -/
def Fields.at? (fields : Fields) (place : Nat) : Option Yaml :=
  (fields.find? fun field => field.1 = place).map Prod.snd

/-- The fields of a mapping.  A field may be given once. -/
def mappingFields : List (Yaml × Yaml) → Option Fields
  | [] => some []
  | (key, value) :: entries => do
    let place ← keyPlace key
    let fields ← mappingFields entries
    match place with
    | none => return fields
    | some place => if (fields.at? place).isSome then none else return (place, value) :: fields

/-- The fields of a description, either a mapping or a list. -/
def fieldsOf : Yaml → Option Fields
  | .map entries => mappingFields entries
  | .seq items => if items.length ≤ fieldNames.length then some (items.mapIdx Prod.mk) else none
  | _ => none

/-! ## Values of fields -/

/-- Read a field that may be left out or null. -/
def optional {α : Type} (read : Yaml → Option α) : Option Yaml → Option (Option α)
  | none => some none
  | some .null => some none
  | some value => (read value).map some

/-- Read a text. -/
def readText : Yaml → Option String
  | .str text => some text
  | _ => none

/-- Read a truth value. -/
def readTruth : Yaml → Option Bool
  | .bool b => some b
  | _ => none

/-- Read a layout: its name, or an entry without a value whose key is its name or its number. -/
def readLayout : Yaml → Option Layout
  | .str name => Layout.all.find? (·.name = name)
  | .map [(.str name, .null)] => Layout.all.find? (·.name = name)
  | .map [(.int n, .null)] => if 0 ≤ n then Layout.all[n.toNat]? else none
  | _ => none

/-- Read arguments, in which keys have to be distinct. -/
def readArgs (value : Yaml) : Option Yaml :=
  if value.distinctKeys then some value else none

/-- Read the description of a source. -/
def Source.ofFields (fields : Fields) : Option Source := do
  let type ← (fields.at? 0).bind readText
  let url ← optional readText (fields.at? 1)
  let layout ← optional readLayout (fields.at? 2)
  let mark ← optional readTruth (fields.at? 3)
  let strict ←
    match fields.at? 4 with
    | none => some false
    | some value => readTruth value
  let args ← optional readArgs (fields.at? 5)
  return ⟨type, url, layout, mark, strict, args⟩

/-- Read a filter. -/
def ofYaml : Yaml → Option Filter
  | .str text => some (literal text)
  | value => ((fieldsOf value).bind Source.ofFields).map source

/-- Read a filter of a YAML node.  Keys of descriptions need not be distinct unless they are fields,
but tags are refused. -/
def ofNode? (node : Yaml.Expanded) : Option Filter :=
  (Yaml.ofUntagged? node).bind ofYaml

/-- Read a filter that is a YAML document of its own. -/
def ofText? (text : String) : Option Filter := do
  match ← Yaml.Expanded.ofText? .all text with
  | none => none
  | some node => ofNode? node

/-- Read a filter of a JSON document. -/
def ofJson (value : Json) : Result Filter :=
  match ofYaml (.ofJson value) with
  | some filter => .ok filter
  | none => .error (.json .notAFilter)

/-- Read a list of filters of a JSON document. -/
def listOfJson : Json → Result (List Filter)
  | .arr items => items.mapM ofJson
  | value => .error (.json (.notASequence value))

/-! ## Writing -/

/-- The fields of a description that are there. -/
def Source.toFields (s : Source) : Except JsonFault (List (String × Json)) := do
  let args ← s.args.mapM Yaml.toJson
  return ("type", .str s.type) :: ("literal", .bool s.strict) ::
    (s.url.toList.map fun url => ("url", .str url)) ++
    (s.layout.toList.map fun layout => ("format", .str layout.name)) ++
    (s.mark.toList.map fun mark => ("resolve", .bool mark)) ++
    (args.toList.map fun args => ("args", args))

/-- A filter as JSON. -/
def toJson : Filter → Except JsonFault Json
  | literal text => .ok (.str text)
  | source s => s.toFields.map fun fields => .ofMap (SortedMap.ofList fields)

end Filter

end RoutingRules
