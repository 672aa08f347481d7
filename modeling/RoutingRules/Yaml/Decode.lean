import RoutingRules.SortedMap
import RoutingRules.Yaml.Value.OfNode

/-!
# Reading settings from YAML

Readers for the types that settings have.  Where a text is expected, any scalar is taken as it is
written; an empty plain scalar stands for a list, a mapping or a record without content.
-/

namespace RoutingRules.Yaml.Decode

/-! ## Scalars -/

/-- Read a text. -/
def text : Expanded → Option String
  | .scalar _ _ text => some text
  | _ => none

/-- Whether a scalar is plain, or a literal block with the tag of its type. -/
def isPlainOr (type : String) (marks : Marks) (style : ScalarStyle) : Bool :=
  style = .plain || (style = .literal && marks.tag = some (.standard type))

/-- Read a truth value. -/
def truth : Expanded → Option Bool
  | .scalar marks style text => if isPlainOr "bool" marks style then readBool text else none
  | _ => none

/-- Read a count. -/
def count : Expanded → Option Nat
  | .scalar marks style text =>
    let cs := text.toList
    if isPlainOr "int" marks style && cs.head? ≠ some '-' then
      ((readInt cs).filter fun i => i < Int.pow 2 64).map Int.toNat
    else none
  | _ => none

/-- Whether a node stands for no value. -/
def isAbsent : Expanded → Option Bool
  | .scalar marks style text =>
    if style ≠ .plain then some false
    else
      match marks.tag with
      | none => some (text = "" || isNull text)
      | some tag =>
        if tag ≠ .standard "null" then some false
        else if isNull text then some true
        else none
  | .reference _ => none
  | _ => some false

/-- Read a value that may be null. -/
def optional {α : Type} (read : Expanded → Option α) (node : Expanded) : Option (Option α) :=
  match isAbsent node with
  | none => none
  | some true => some none
  | some false => (read node).map some

/-- Read one of several words: the word itself, or its tag on a null. -/
def oneOf {α : Type} (find : String → Option α) : Expanded → Option α
  | .scalar marks style text =>
    match applicationTag marks with
    | none => find text
    | some name =>
      if isPlainOr "null" marks style && (text = "" || isNull text) then find name else none
  | _ => none

/-! ## Collections -/

/-- Whether a node is an empty plain scalar. -/
def isBlank : Expanded → Bool
  | .scalar _ style text => style = .plain && text = ""
  | _ => false

/-- Read a list. -/
def list {α : Type} (read : Expanded → Option α) : Expanded → Option (List α)
  | .seq _ items => items.mapM read
  | node => if isBlank node then some [] else none

/-- Read a mapping from texts to texts, in which a later entry of the same key wins. -/
def textMap : Expanded → Option (SortedMap String)
  | .map _ entries =>
    (entries.mapM fun (key, value) => do return (← text key, ← text value)).map SortedMap.ofList
  | node => if isBlank node then some .empty else none

/-- Read a mapping of any values, in which keys are distinct. -/
def mapping : Expanded → Option (List (Yaml × Yaml))
  | .map _ entries =>
    (ofEntries? entries).filter fun entries => distinctKeys (.map entries)
  | node => if isBlank node then some [] else none

/-! ## Records -/

/-- The fields that a record may have, each with the extent to which its value is read. -/
abbrev Record := List (String × Extent)

/-- Fields whose values are read as a whole. -/
def Record.whole (names : List String) : Record :=
  names.map fun name => (name, .all)

/-- The nodes of the fields of a record. -/
abbrev Fields := List (String × Expanded)

/-- The fields of a mapping that a record knows.  Such a field may be given once, and other fields
are passed over. -/
def knownFields (record : Record) : List (Expanded × Expanded) → Option Fields
  | [] => some []
  | (key, value) :: entries => do
    let name ← text key
    let fields ← knownFields record entries
    if !record.any fun field => field.1 = name then return fields
    else if fields.any fun field => field.1 = name then none
    else return (name, value) :: fields

/-- The fields of a record. -/
def fields (record : Record) : Expanded → Option Fields
  | .map _ entries => knownFields record entries
  | node => if isBlank node then some [] else none

/-- Read a field that has to be there. -/
def Fields.need {α : Type} (fields : Fields) (name : String) (read : Expanded → Option α) :
    Option α :=
  (fields.find? fun f => f.1 = name).bind fun f => read f.2

/-- Read a field that has a value if it is not there. -/
def Fields.getOr {α : Type} (fields : Fields) (name : String) (read : Expanded → Option α)
    (default : α) : Option α :=
  match fields.find? fun f => f.1 = name with
  | some f => read f.2
  | none => some default

end RoutingRules.Yaml.Decode
