import RoutingRules.Condition

/-!
# Conditions written as lines

A condition is written as the spelling of its kind, its value and an optional resolution mark
with commas between them.  A rule given on its own has to have exactly these fields.  The lines of
rule lists are read more freely: they may name a destination and other fields between the value
and the mark, which do not matter.
-/

namespace RoutingRules.Condition

/-- The resolution mark that a word stands for. -/
def readMark (word : String) : Option Bool :=
  let cs := Text.lower word.toList
  if cs = noResolve.toList then some false
  else if cs = "resolve".toList then some true
  else none

/-- The fields of a line: the first one and all others, without the blanks around them. -/
def fieldsOf (line : String) : String × List String :=
  match (Text.pieces ',' line).map Text.trim with
  | [] => ("", [])
  | first :: others => (first, others)

/-! ## Rules on their own -/

/-- Read the value and the mark of a rule on its own. -/
def literalArgs (literal : String) : List String → Result (String × Option Bool)
  | [] => .error (.parse (.literalWithoutValue literal))
  | [value] => .ok (value, none)
  | [value, word] =>
    match readMark word with
    | some mark => .ok (value, some mark)
    | none => .error (.parse (.badResolutionMark word literal))
  | _ => .error (.parse (.tooManyFields literal))

/-- Read a rule on its own. -/
def ofLiteral (literal : String) : Result Condition := do
  let (token, args) := fieldsOf literal
  let kind ← Kind.lookup token
  if kind = .matchAll then
    if args = [] then return always
    else throw (.parse (.literalTakesNoValue token literal))
  else
    let (value, mark) ← literalArgs literal args
    make (kind.refine token value) value mark

/-! ## Lines of rule lists -/

/-- The mark at the end of a line, behind its value. -/
def trailingMark (args : List String) : Option Bool :=
  args.tail.getLast?.bind readMark

/-- Read a line of a rule list; `default` is the mark of lines without one. -/
def ofLine (default : Option Bool) (line : String) : Result Condition := do
  let (token, args) := fieldsOf line
  let kind ← Kind.lookup token
  if kind = .matchAll then return always
  else
    match args with
    | [] => throw (.parse (.unparsableLine line))
    | value :: _ => make (kind.refine token value) value ((trailingMark args).or default)

end RoutingRules.Condition
