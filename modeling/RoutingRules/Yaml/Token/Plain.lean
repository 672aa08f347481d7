import RoutingRules.Yaml.Token.Quoted

/-!
# Plain scalars

The text of a scalar without quotation marks.  It ends at a comment, at a colon that ends a word,
inside flow collections at their punctuation, and where a line is indented too little.
-/

namespace RoutingRules.Yaml.Plain

/-- Whether a character is punctuation of flow collections. -/
def isFlowSign (c : Char) : Bool :=
  c = ',' || c = '[' || c = ']' || c = '{' || c = '}'

/-- Read a run of characters without white space onto `acc`, which is in reverse.  Inside flow
collections a colon in front of punctuation is an error. -/
def takeRun (flow : Bool) : Nat → List Char → Cursor → Option (List Char × Cursor)
  | 0, _, _ => none
  | fuel + 1, acc, c =>
    match c.next with
    | none => some (acc, c)
    | some d =>
      if endsWord (some d) then some (acc, c)
      else if flow && d = ':' && (c.ahead 1).any (fun e => isFlowSign e || e = '?') then none
      else if d = ':' && endsWord (c.ahead 1) then some (acc, c)
      else if flow && isFlowSign d then some (acc, c)
      else takeRun flow fuel (d :: acc) (c.skip 1)

/-- Read the white space behind a run.  A tab may not take the place of indentation. -/
def takeGap (indent : Nat) : Nat → Quoted.Gap → Cursor → Option (Quoted.Gap × Cursor)
  | 0, gap, c => some (gap, c)
  | fuel + 1, gap, c =>
    match c.next with
    | none => some (gap, c)
    | some d =>
      if isSpace d then
        if gap.broken && c.column < indent && d = '\t' then none
        else
          let gap := if gap.broken then gap else { gap with spaces := d :: gap.spaces }
          takeGap indent fuel gap (c.skip 1)
      else if isBreak d then
        let (text, c) := c.takeBreak
        takeGap indent fuel (gap.addBreak text) c
      else some (gap, c)

/-- A plain scalar that has been read. -/
structure Scalar where
  text : String
  /-- Whether the scalar ended behind a line break, so that a new entry may start here. -/
  newLine : Bool
  cursor : Cursor

/-- Read the rest of a scalar.  `gap` is the white space behind what was read into `acc`. -/
def takeText (flow : Bool) (indent : Nat) :
    Nat → List Char → Quoted.Gap → Cursor → Option Scalar
  | 0, _, _, _ => none
  | fuel + 1, acc, gap, c =>
    let done : Scalar := ⟨String.ofList acc.reverse, gap.broken, c⟩
    if c.atDocumentMark || c.at? '#' then some done
    else
      match takeRun flow (c.rest.length + 1) [] c with
      | none => none
      | some ([], _) => some done
      | some (run, c) =>
        let acc := run ++ gap.text.reverse ++ acc
        if endsWord c.next && !c.atEnd then
          match takeGap indent (c.rest.length + 1) Quoted.Gap.empty c with
          | none => none
          | some (gap, c) =>
            if !flow && c.column < indent then
              some ⟨String.ofList acc.reverse, gap.broken, c⟩
            else takeText flow indent fuel acc gap c
        else some ⟨String.ofList acc.reverse, false, c⟩

/-- Read a plain scalar whose lines have to be indented by `indent` columns. -/
def take (flow : Bool) (indent : Nat) (c : Cursor) : Option Scalar :=
  takeText flow indent (c.rest.length + 1) [] Quoted.Gap.empty c

end RoutingRules.Yaml.Plain
