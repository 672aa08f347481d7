import RoutingRules.Yaml.Node.Expanded
import RoutingRules.Yaml.Scalar

/-!
# Values of nodes

The value of a document.  Where nothing has to be told about keys and tags the value is taken as
it is; otherwise the keys of every mapping have to be distinct, or no tags may occur.
-/

namespace RoutingRules.Yaml

/-- A value with the application tag of its node. -/
def withTag (marks : Marks) (value : Yaml) : Yaml :=
  match applicationTag marks with
  | some name => .tagged (Tag.essential name) value
  | none => value

mutual

/-- The value of a node. -/
def ofNode? : Expanded → Option Yaml
  | .reference _ => none
  | .scalar marks style text => (ofScalar marks style text).map (withTag marks)
  | .seq marks items => (ofItems? items).map fun items => withTag marks (.seq items)
  | .map marks entries => (ofEntries? entries).map fun entries => withTag marks (.map entries)

/-- The values of items. -/
def ofItems? : List Expanded → Option (List Yaml)
  | [] => some []
  | item :: items =>
    match ofNode? item, ofItems? items with
    | some item, some items => some (item :: items)
    | _, _ => none

/-- The values of entries. -/
def ofEntries? : List (Expanded × Expanded) → Option (List (Yaml × Yaml))
  | [] => some []
  | (key, value) :: entries =>
    match ofNode? key, ofNode? value, ofEntries? entries with
    | some key, some value, some entries => some ((key, value) :: entries)
    | _, _, _ => none

end

/-- The value of a node in whose mappings keys are distinct. -/
def ofDistinct? (node : Expanded) : Option Yaml :=
  (ofNode? node).filter distinctKeys

/-- The value of a node without application tags. -/
def ofUntagged? (node : Expanded) : Option Yaml :=
  (ofNode? node).filter untagged

/-- Read a document; a text without documents is null. -/
def read? (text : String) : Option Yaml := do
  match ← Expanded.ofText? .all text with
  | none => return .null
  | some node => ofDistinct? node

end RoutingRules.Yaml
