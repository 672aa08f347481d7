import RoutingRules.Yaml.Cursor

/-!
# Block scalars

The text of a scalar written as indented lines below its header.  The header tells whether lines
are folded, what becomes of the line breaks at the end, and the indentation unless the first line
shows it.
-/

namespace RoutingRules.Yaml.Block

/-- What becomes of the line breaks at the end of a block scalar. -/
inductive Chomping where
  /-- Keep none. -/
  | strip
  /-- Keep one. -/
  | clip
  /-- Keep all. -/
  | keep
deriving DecidableEq, Repr

/-- The chomping that a character asks for. -/
def chomping? (c : Option Char) : Option Chomping :=
  if c = some '+' then some .keep else if c = some '-' then some .strip else none

/-- Read a digit of indentation, if there is one; zero is an error. -/
def takeIndent (c : Cursor) : Option (Option Nat × Cursor) :=
  match c.next with
  | some d =>
    if d = '0' then none
    else if d.isDigit then some (some (d.toNat - 48), c.skip 1)
    else some (none, c)
  | none => some (none, c)

/-- Read the header behind its indicator: the chomping and the indentation, in any order. -/
def takeHeader (c : Cursor) : Option (Chomping × Option Nat × Cursor) :=
  match chomping? c.next with
  | some chomping => do
    let (indent, c) ← takeIndent (c.skip 1)
    return (chomping, indent, c)
  | none => do
    let (indent, c) ← takeIndent c
    match indent, chomping? c.next with
    | some n, some chomping => return (chomping, some n, c.skip 1)
    | _, _ => return (.clip, indent, c)

/-! ## Lines -/

/-- Go past empty lines and the indentation of the next line.  The indentation is still to be found
while `indent` is zero; a tab may not take its place.  Returns the line breaks and the greatest
column reached. -/
def takeBreaks (indent : Nat) :
    Nat → List Char → Nat → Cursor → Option (List Char × Nat × Cursor)
  | 0, _, _, _ => none
  | fuel + 1, breaks, widest, c =>
    let spaces := (c.rest.takeWhile (· = ' ')).length
    let c := c.skip (if indent = 0 then spaces else min spaces (indent - c.column))
    let widest := max widest c.column
    if (indent = 0 || c.column < indent) && c.at? '\t' then none
    else if c.next.any isBreak then
      let (text, c) := c.takeBreak
      takeBreaks indent fuel (breaks ++ text) widest c
    else some (breaks, widest, c)

/-- The parts of a block scalar between its lines. -/
structure Between where
  /-- The break that ends the last line. -/
  first : List Char
  /-- The empty lines after it. -/
  others : List Char
  /-- Whether the last line started with white space. -/
  blank : Bool

/-- The text between the last line and a line that starts here. -/
def Between.text (between : Between) (literal nextBlank : Bool) : List Char :=
  if !literal && !between.blank && !nextBlank then folded between.first between.others
  else between.first ++ between.others

/-- Read the lines of a block scalar onto `acc`, which is in reverse. -/
def takeLines (literal : Bool) (chomping : Chomping) (indent : Nat) :
    Nat → List Char → Between → Cursor → Option (String × Cursor)
  | 0, _, _, _ => none
  | fuel + 1, acc, between, c =>
    if c.column = indent ∧ !c.atEnd then
      let blank := c.next.any isSpace
      let (line, c) := c.takeLine
      let acc := line.reverse ++ (between.text literal blank).reverse ++ acc
      let (first, c) := c.takeBreak
      match takeBreaks indent (c.rest.length + 1) [] 0 c with
      | none => none
      | some (others, _, c) => takeLines literal chomping indent fuel acc ⟨first, others, blank⟩ c
    else
      let tail :=
        match chomping with
        | .strip => []
        | .clip => between.first
        | .keep => between.first ++ between.others
      some (String.ofList (acc.reverse ++ tail), c)

/-- Read a block scalar at its indicator, inside a block whose indentation is one less than
`outer`. -/
def take (literal : Bool) (outer : Nat) (c : Cursor) : Option (String × Cursor) := do
  let (chomping, hint, c) ← takeHeader (c.skip 1)
  let c ← c.endLine
  let given := match hint with
    | some n => if outer = 0 then n else outer - 1 + n
    | none => 0
  let (others, widest, c) ← takeBreaks given (c.rest.length + 1) [] 0 c
  let indent := if given = 0 then max (max widest outer) 1 else given
  takeLines literal chomping indent (c.rest.length + 1) [] ⟨[], others, false⟩ c

end RoutingRules.Yaml.Block
