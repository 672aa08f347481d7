import RoutingRules.Yaml.Node.OfTokens

/-!
# Following references

Replaces references by the nodes that they refer to.  A reference has to follow an anchor of its
name.  The nodes are numbered by how many names have been used before them, so two nodes may come
to have one number, and all references with it then lead to the later one.

Following references has a limit, which only those count towards that stand in what is read.
-/

namespace RoutingRules.Yaml

/-- A node that refers to others by their numbers. -/
abbrev Numbered := Node Nat

/-- A node without references.  A reference is left only where it could not be followed, or where
nothing is read. -/
abbrev Expanded := Node Unit

/-! ## What is read -/

/-- Which parts of a node are read. -/
inductive Extent where
  /-- All of the node. -/
  | all
  /-- The values of some fields, each to an extent of its own.  Other fields are passed over. -/
  | fields (known : List (String × Extent))
  /-- Every item to the same extent. -/
  | items (each : Extent)

namespace Extent

/-- To which extent the items of a node are read. -/
def item : Extent → Extent
  | items each => each
  | _ => all

/-- To which extent the value of a key is read, if it is. -/
def value? (extent : Extent) (key : Expanded) : Option Extent :=
  match extent, key with
  | fields known, .scalar _ _ text => (known.find? fun field => field.1 = text).map Prod.snd
  | _, _ => some all

end Extent

/-! ## Numbers -/

/-- The numbers that names refer to at a place of a document. -/
abbrev Names := List (String × Nat)

/-- The names behind a node with an anchor. -/
def Names.bind (names : Names) (name : String) : Names :=
  (name, names.length) :: names.filter fun entry => entry.1 ≠ name

/-- The names behind the marks of a node. -/
def Names.bindAnchor (names : Names) : Option String → Names
  | none => names
  | some name => names.bind name

/-- The nodes with numbers, in the order of the document. -/
abbrev Targets := List (Nat × Numbered)

/-- A node as a target, if it has an anchor. -/
def target (names : Names) (anchor : Option String) (node : Numbered) : Targets :=
  match anchor with
  | none => []
  | some _ => [(names.length, node)]

mutual

/-- Number the references of a node and collect the nodes that have numbers. -/
def number (names : Names) : Written → Option (Numbered × Names × Targets)
  | .reference name =>
    (names.find? fun entry => entry.1 = name).map fun entry => (.reference entry.2, names, [])
  | .scalar marks style text =>
    let node := Node.scalar marks style text
    some (node, names.bindAnchor marks.anchor, target names marks.anchor node)
  | .seq marks items =>
    match numberItems (names.bindAnchor marks.anchor) items with
    | none => none
    | some (items, names', targets) =>
      let node := Node.seq marks items
      some (node, names', target names marks.anchor node ++ targets)
  | .map marks entries =>
    match numberEntries (names.bindAnchor marks.anchor) entries with
    | none => none
    | some (entries, names', targets) =>
      let node := Node.map marks entries
      some (node, names', target names marks.anchor node ++ targets)

/-- Number the references of items. -/
def numberItems (names : Names) : List Written → Option (List Numbered × Names × Targets)
  | [] => some ([], names, [])
  | item :: items =>
    match number names item with
    | none => none
    | some (item, names, targets) =>
      match numberItems names items with
      | none => none
      | some (items, names, others) => some (item :: items, names, targets ++ others)

/-- Number the references of entries. -/
def numberEntries (names : Names) :
    List (Written × Written) → Option (List (Numbered × Numbered) × Names × Targets)
  | [] => some ([], names, [])
  | (key, value) :: entries =>
    match number names key with
    | none => none
    | some (key, names, targets) =>
      match number names value with
      | none => none
      | some (value, names, more) =>
        match numberEntries names entries with
        | none => none
        | some (entries, names, others) =>
          some ((key, value) :: entries, names, targets ++ more ++ others)

end

/-! ## Expansion -/

/-- The greatest depth of nested collections. -/
def depthLimit : Nat :=
  128

/-- Follow a reference, at the cost of one of the steps that are left.  A node with the number may
come later in the document. -/
def follow (targets : Targets) : Numbered → StateM Nat Numbered
  | .reference n => do
    let left ← get
    match left, targets.reverse.find? fun entry => entry.1 = n with
    | left + 1, some (_, node) =>
      set left
      return node
    | _, _ => return .reference n
  | node => return node

/-- Replace the references in what is read of a node that has `depth` levels of collections below it
at most. -/
def expand (targets : Targets) : Nat → Extent → Numbered → StateM Nat Expanded
  | 0, _, node => do
    match ← follow targets node with
    | .scalar marks style text => return .scalar marks style text
    | _ => return .reference ()
  | depth + 1, extent, node => do
    match ← follow targets node with
    | .reference _ => return .reference ()
    | .scalar marks style text => return .scalar marks style text
    | .seq marks items => return .seq marks (← items.mapM (expand targets depth extent.item))
    | .map marks entries =>
      return .map marks (← entries.mapM fun (key, value) => do
        let key ← expand targets depth .all key
        match extent.value? key with
        | some extent => return (key, ← expand targets depth extent value)
        | none => return (key, .reference ()))

namespace Expanded

/-- A document without references in what is read of it.  References may be followed a hundred times
for every step of the document. -/
def ofWritten? (extent : Extent) (node : Written) : Option Expanded :=
  (number [] node).map fun (node, _, targets) =>
    (expand targets depthLimit extent node |>.run (100 * node.steps)).1

/-- The node of a text that holds one document, as far as it is read; there is none in a text
without documents. -/
def ofText? (extent : Extent) (text : String) : Option (Option Expanded) := do
  match ← Node.ofText? text with
  | none => return none
  | some node => return some (← ofWritten? extent node)

end Expanded

end RoutingRules.Yaml
