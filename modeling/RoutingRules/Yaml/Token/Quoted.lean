import RoutingRules.Number.Natural
import RoutingRules.Yaml.Cursor

/-!
# Quoted scalars

The text of a scalar between quotation marks.  Line breaks in it are folded, and white space
around them is dropped.
-/

namespace RoutingRules.Yaml.Quoted

/-! ## Escapes -/

/-- The character that an escape with one letter stands for. -/
def simpleEscape? (c : Char) : Option Char :=
  match c with
  | '0' => some '\x00'
  | 'a' => some '\x07'
  | 'b' => some '\x08'
  | 't' | '\t' => some '\t'
  | 'n' => some '\n'
  | 'v' => some '\x0b'
  | 'f' => some '\x0c'
  | 'r' => some '\r'
  | 'e' => some '\x1b'
  | ' ' | '"' | '/' | '\\' => some c
  | 'N' => some (Char.ofNat 0x85)
  | '_' => some (Char.ofNat 0xA0)
  | 'L' => some (Char.ofNat 0x2028)
  | 'P' => some (Char.ofNat 0x2029)
  | _ => none

/-- How many hexadecimal digits follow the letter of a numeric escape. -/
def escapeWidth? (c : Char) : Option Nat :=
  match c with
  | 'x' => some 2
  | 'u' => some 4
  | 'U' => some 8
  | _ => none

/-- Read an escape behind its backslash: its character, and how long it is. -/
def takeEscape : List Char → Option (Char × Nat)
  | [] => none
  | letter :: cs =>
    match simpleEscape? letter with
    | some c => some (c, 1)
    | none => do
      let width ← escapeWidth? letter
      let digits := cs.take width
      let code ← Number.readRadix 16 digits
      if digits.length = width ∧ code.isValidChar then some (Char.ofNat code, 1 + width) else none

/-! ## Text -/

/-- Read a run of characters without white space onto `acc`, which is in reverse.  The flag says
that the run ended with an escaped line break. -/
def takeRun (single : Bool) : Nat → List Char → Cursor → Option (List Char × Bool × Cursor)
  | 0, _, _ => none
  | fuel + 1, acc, c =>
    match c.rest with
    | [] => some (acc, false, c)
    | d :: rest =>
      if endsWord (some d) then some (acc, false, c)
      else if single then
        match d, rest with
        | '\x27', '\x27' :: _ => takeRun single fuel ('\x27' :: acc) (c.skip 2)
        | '\x27', _ => some (acc, false, c)
        | _, _ => takeRun single fuel (d :: acc) (c.skip 1)
      else if d = '"' then some (acc, false, c)
      else if d = '\\' then
        if rest.head?.any isBreak then some (acc, true, (c.skip 1).takeBreak.2)
        else
          match takeEscape rest with
          | some (e, length) => takeRun single fuel (e :: acc) (c.skip (1 + length))
          | none => none
      else takeRun single fuel (d :: acc) (c.skip 1)

/-- White space between two runs of a scalar. -/
structure Gap where
  /-- Whether the gap contains a line break. -/
  broken : Bool
  /-- The spaces of a gap without a line break, in reverse. -/
  spaces : List Char
  /-- The first line break. -/
  first : List Char
  /-- The line breaks after the first one. -/
  others : List Char

/-- The gap before any white space has been read. -/
def Gap.empty : Gap :=
  ⟨false, [], [], []⟩

/-- Add a line break to a gap. -/
def Gap.addBreak (gap : Gap) (text : List Char) : Gap :=
  if gap.broken then { gap with others := gap.others ++ text }
  else ⟨true, [], text, []⟩

/-- The text that a gap stands for. -/
def Gap.text (gap : Gap) : List Char :=
  if gap.broken then folded gap.first gap.others else gap.spaces.reverse

/-- Read the white space between two runs. -/
def takeGap : Nat → Gap → Cursor → Gap × Cursor
  | 0, gap, c => (gap, c)
  | fuel + 1, gap, c =>
    match c.next with
    | none => (gap, c)
    | some d =>
      if isSpace d then
        takeGap fuel (if gap.broken then gap else { gap with spaces := d :: gap.spaces }) (c.skip 1)
      else if isBreak d then
        let (text, c) := c.takeBreak
        takeGap fuel (gap.addBreak text) c
      else (gap, c)

/-- Read the rest of a scalar behind its opening mark. -/
def takeText (single : Bool) : Nat → List Char → Cursor → Option (String × Cursor)
  | 0, _, _ => none
  | fuel + 1, acc, c =>
    if c.atDocumentMark || c.atEnd then none
    else
      match takeRun single (c.rest.length + 1) acc c with
      | none => none
      | some (acc, escapedBreak, c) =>
        if c.at? (if single then '\x27' else '"') then
          some (String.ofList acc.reverse, c.skip 1)
        else
          let gap := if escapedBreak then { Gap.empty with broken := true } else Gap.empty
          let (gap, c) := takeGap (c.rest.length + 1) gap c
          takeText single fuel (gap.text.reverse ++ acc) c

/-- Read a scalar at its opening mark. -/
def take (single : Bool) (c : Cursor) : Option (String × Cursor) :=
  takeText single (c.rest.length + 1) [] (c.skip 1)

end RoutingRules.Yaml.Quoted
