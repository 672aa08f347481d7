import RoutingRules.Filter.Resolve
import RoutingRules.SingBox.Group
import RoutingRules.SingBox.Node.Json
import RoutingRules.World

/-!
# Filters in templates

A template may give the conditions of a rule as filters.  The object that holds them gets the
fields of the grouped conditions instead; a field that it had before is replaced.  Objects that
hold no filters are searched for others that do.
-/

namespace RoutingRules.SingBox

/-- The key of filters. -/
def filtersKey : String :=
  "filters"

/-- How the filters of a template are expanded. -/
structure Expansion (σ : Type) where
  remote : Task.Remote σ
  /-- The kinds of conditions on processes that are kept. -/
  included : List Kind
  mode : Mode
  /-- Whether only conditions that can decide about name queries are kept. -/
  forDns : Bool

/-- A value after expansion, and how many conditions sing-box does not know. -/
abbrev Expanded (α : Type) := α × Nat

namespace Expansion

variable {σ : Type}

/-- The notices about grouped conditions. -/
def groupNotices (grouped : Grouped) : List Notice :=
  grouped.notices ++ if grouped.node.isNone then [.filtersWithoutConditions] else []

/-- The fields of an object whose filters have been grouped. -/
def withGroup (fields : List (String × Json)) (grouped : Grouped) : SortedMap Json :=
  let others := (SortedMap.ofList fields).erase filtersKey
  match grouped.node with
  | some node => others.insertAll node.toMap.entries
  | none => others

/-- Expand the filters of an object. -/
def expandHere (x : Expansion σ) (fields : List (String × Json)) (filters : Json) :
    Task RuleError σ (Expanded Json) := do
  let filters ← Filter.listOfJson filters
  let conditions ← Task.fetching fun files =>
    Filter.conditionsOfAll (x.remote files) x.forDns filters
  let grouped ← group conditions x.included x.mode
  Task.tell (groupNotices grouped)
  return (.ofMap (withGroup fields grouped), grouped.unsupported)

mutual

/-- Expand all filters in a value. -/
def expand (x : Expansion σ) : Json → Task RuleError σ (Expanded Json)
  | .obj fields => do
    match SortedMap.lookupEntry filtersKey fields with
    | some filters => x.expandHere fields filters
    | none =>
      let (fields, count) ← expandFields x fields
      return (.obj fields, count)
  | .arr items => do
    let (items, count) ← expandItems x items
    return (.arr items, count)
  | value => return (value, 0)

/-- Expand all filters in items. -/
def expandItems (x : Expansion σ) : List Json → Task RuleError σ (Expanded (List Json))
  | [] => return ([], 0)
  | item :: items => do
    let (item, count) ← expand x item
    let (items, others) ← expandItems x items
    return (item :: items, count + others)

/-- Expand all filters in the values of fields. -/
def expandFields (x : Expansion σ) :
    List (String × Json) → Task RuleError σ (Expanded (List (String × Json)))
  | [] => return ([], 0)
  | (key, value) :: fields => do
    let (value, count) ← expand x value
    let (fields, others) ← expandFields x fields
    return ((key, value) :: fields, count + others)

end

end Expansion

end RoutingRules.SingBox
