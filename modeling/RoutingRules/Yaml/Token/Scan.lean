import RoutingRules.Yaml.Token.Block
import RoutingRules.Yaml.Token.Plain
import RoutingRules.Yaml.Token.Tag

/-!
# Reading tokens

Cuts a document into tokens.  Indentation opens and closes block collections.  A scalar, alias or
flow collection turns out to be a key only when the colon behind it is met, so places where a key
may have started are remembered, one for each level of flow collections; the tokens of the key
and of the mapping that it opens are then put in front of it.
-/

namespace RoutingRules.Yaml

/-- A place where a key may have started. -/
structure KeyStart where
  /-- How many tokens came before it. -/
  position : Nat
  index : Nat
  line : Nat
  column : Nat
  /-- A key has to be there, since the line starts at the indentation of a mapping. -/
  required : Bool

/-- What has been read of a document, and how to go on. -/
structure Scan where
  cursor : Cursor
  tokens : Array Token
  /-- The columns of the open block collections plus one, innermost first. -/
  indents : List Nat
  /-- The places where keys may have started: at the block level and in every open flow collection,
  innermost first. -/
  keys : List (Option KeyStart)
  /-- Whether a key may start here. -/
  keyAllowed : Bool

namespace Scan

/-- The start of a document. -/
def start (cs : List Char) : Scan :=
  ⟨Cursor.start cs, #[], [], [none], true⟩

/-- Whether a flow collection is open. -/
def inFlow (s : Scan) : Bool :=
  s.keys.length > 1

/-- The column of the innermost block collection plus one; zero outside of all. -/
def indent (s : Scan) : Nat :=
  s.indents.headD 0

/-- Add a token and go on behind it. -/
def emit (s : Scan) (token : Token) (cursor : Cursor) : Scan :=
  { s with tokens := s.tokens.push token, cursor }

/-! ## Indentation -/

/-- Close the block collections whose column plus one is greater than `most`. -/
def closeTo (most : Nat) (s : Scan) : Scan :=
  if s.inFlow then s
  else
    let closed := s.indents.takeWhile (most < ·)
    { s with
      tokens := s.tokens ++ closed.map fun _ => Token.blockEnd
      indents := s.indents.drop closed.length }

/-- Open a block collection at a column if that is deeper than the innermost one; its token goes to
the given position. -/
def openAt (s : Scan) (column position : Nat) (token : Token) : Scan :=
  if s.inFlow || column + 1 ≤ s.indent then s
  else
    { s with
      tokens := s.tokens.insertIdxIfInBounds position token
      indents := (column + 1) :: s.indents }

/-! ## Keys -/

/-- Forget where a key may have started at this level.  It is an error if a key had to be there. -/
def dropKey (s : Scan) : Option Scan :=
  match s.keys with
  | some key :: keys => if key.required then none else some { s with keys := none :: keys }
  | _ => some s

/-- Remember that a key may start here, if one may. -/
def saveKey (s : Scan) : Option Scan :=
  if s.keyAllowed then do
    let s ← s.dropKey
    let c := s.cursor
    let key : KeyStart :=
      ⟨s.tokens.size, c.index, c.line, c.column, !s.inFlow && s.indent = c.column + 1⟩
    return { s with keys := some key :: s.keys.tail }
  else some s

/-- Whether the key that started at `key` may end here: keys do not reach over lines and are not
longer than 1024 octets. -/
def keyEnds (s : Scan) (key : KeyStart) : Bool :=
  key.line = s.cursor.line && s.cursor.index ≤ key.index + 1024

/-! ## Tokens -/

/-- Go past white space, comments and line breaks.  A key may start on a new line outside of flow
collections; tabs are no white space where one may.  A byte order mark at the start of a line is
passed over. -/
def skipToToken : Nat → Scan → Scan
  | 0, s => s
  | fuel + 1, s =>
    let c := s.cursor
    let c := if c.column = 0 ∧ c.at? '\ufeff' then c.skip 1 else c
    let c := c.skipWhile fun d => d = ' ' || (d = '\t' && (s.inFlow || !s.keyAllowed))
    let c := if c.at? '#' then c.takeLine.2 else c
    if c.next.any isBreak then
      skipToToken fuel { s with
        cursor := c.takeBreak.2
        keyAllowed := s.keyAllowed || !s.inFlow }
    else { s with cursor := c }

/-- The end of the stream. -/
def finish (s : Scan) : Option Scan := do
  let s ← (s.closeTo 0).dropKey
  return s.emit .streamEnd s.cursor

/-- A directive. -/
def directive (s : Scan) : Option Scan := do
  let s ← (s.closeTo 0).dropKey
  let (token, c) ← takeDirective s.cursor
  return { s.emit token c with keyAllowed := false }

/-- The mark of the start or the end of a document. -/
def documentMark (s : Scan) (token : Token) : Option Scan := do
  let s ← (s.closeTo 0).dropKey
  return { s.emit token (s.cursor.skip 3) with keyAllowed := false }

/-- The start of a flow collection. -/
def flowStart (s : Scan) (token : Token) : Option Scan := do
  let s ← s.saveKey
  return { s.emit token (s.cursor.skip 1) with keys := none :: s.keys, keyAllowed := true }

/-- The end of a flow collection. -/
def flowEnd (s : Scan) (token : Token) : Option Scan := do
  let s ← s.dropKey
  let keys := if s.inFlow then s.keys.tail else s.keys
  return { s.emit token (s.cursor.skip 1) with keys, keyAllowed := false }

/-- The comma between items of a flow collection. -/
def flowEntry (s : Scan) : Option Scan := do
  let s ← s.dropKey
  return { s.emit .flowEntry (s.cursor.skip 1) with keyAllowed := true }

/-- Open a block collection here, which is only possible where a key may start; flow collections
leave the complaint to the reader of nodes. -/
def openHere (s : Scan) (token : Token) : Option Scan :=
  if s.inFlow then some s
  else if s.keyAllowed then some (s.openAt s.cursor.column s.tokens.size token)
  else none

/-- The hyphen in front of an item. -/
def blockEntry (s : Scan) : Option Scan := do
  let s ← s.openHere .blockSequenceStart
  let s ← s.dropKey
  return { s.emit .blockEntry (s.cursor.skip 1) with keyAllowed := true }

/-- The question mark in front of a key. -/
def explicitKey (s : Scan) : Option Scan := do
  let s ← s.openHere .blockMappingStart
  let s ← s.dropKey
  return { s.emit .key (s.cursor.skip 1) with keyAllowed := !s.inFlow }

/-- The colon in front of a value, behind a key that started at a remembered place or behind an
explicit key. -/
def value (s : Scan) : Option Scan :=
  let behindExplicitKey := do
    let s ← s.openHere .blockMappingStart
    return { s.emit .value (s.cursor.skip 1) with keyAllowed := !s.inFlow }
  match s.keys with
  | some key :: keys =>
    if s.keyEnds key then
      let s := { s with tokens := s.tokens.insertIdxIfInBounds key.position .key }
      let s := s.openAt key.column key.position .blockMappingStart
      some { s.emit .value (s.cursor.skip 1) with keys := none :: keys, keyAllowed := false }
    else if key.required then none
    else behindExplicitKey
  | _ => behindExplicitKey

/-- An anchor or an alias. -/
def name (s : Scan) (token : String → Token) : Option Scan := do
  let s ← s.saveKey
  let (name, c) ← takeName (s.cursor.skip 1)
  return { s.emit (token name) c with keyAllowed := false }

/-- A tag. -/
def tag (s : Scan) : Option Scan := do
  let s ← s.saveKey
  let (token, c) ← takeTag s.inFlow s.cursor
  return { s.emit token c with keyAllowed := false }

/-- A block scalar. -/
def blockScalar (s : Scan) (literal : Bool) : Option Scan := do
  let s ← s.dropKey
  let (text, c) ← Block.take literal s.indent s.cursor
  let style := if literal then ScalarStyle.literal else ScalarStyle.folded
  return { s.emit (.scalar style text) c with keyAllowed := true }

/-- A quoted scalar. -/
def quotedScalar (s : Scan) (single : Bool) : Option Scan := do
  let s ← s.saveKey
  let (text, c) ← Quoted.take single s.cursor
  let style := if single then ScalarStyle.singleQuoted else ScalarStyle.doubleQuoted
  return { s.emit (.scalar style text) c with keyAllowed := false }

/-- A plain scalar. -/
def plainScalar (s : Scan) : Option Scan := do
  let s ← s.saveKey
  let scalar ← Plain.take s.inFlow s.indent s.cursor
  return { s.emit (.scalar .plain scalar.text) scalar.cursor with keyAllowed := scalar.newLine }

/-- Whether a plain scalar can start here. -/
def startsPlain (s : Scan) : Bool :=
  match s.cursor.next with
  | none => false
  | some c =>
    if isSpace c || isBreak c then false
    else if c = '-' then !(s.cursor.ahead 1).any isSpace
    else if c = '?' || c = ':' then !s.inFlow && !endsWord (s.cursor.ahead 1)
    else !(['{', '}'] ++ ",[]#&*!|>\x27\"%@`".toList).contains c

/-- Read the token that starts here. -/
def takeToken (s : Scan) (first : Char) : Option Scan :=
  let c := s.cursor
  let before := endsWord (c.ahead 1)
  if c.column = 0 ∧ first = '%' then s.directive
  else if c.atMark '-' then s.documentMark .documentStart
  else if c.atMark '.' then s.documentMark .documentEnd
  else if first = '[' then s.flowStart .flowSequenceStart
  else if first = '{' then s.flowStart .flowMappingStart
  else if first = ']' then s.flowEnd .flowSequenceEnd
  else if first = '}' then s.flowEnd .flowMappingEnd
  else if first = ',' then s.flowEntry
  else if first = '-' && before then s.blockEntry
  else if first = '?' && (s.inFlow || before) then s.explicitKey
  else if first = ':' && (s.inFlow || before) then s.value
  else if first = '*' then s.name .reference
  else if first = '&' then s.name .anchor
  else if first = '!' then s.tag
  else if first = '|' && !s.inFlow then s.blockScalar true
  else if first = '>' && !s.inFlow then s.blockScalar false
  else if first = '\x27' then s.quotedScalar true
  else if first = '"' then s.quotedScalar false
  else if s.startsPlain then s.plainScalar
  else none

/-- Read all tokens up to the end of the stream.  Every token but the last takes a character. -/
def run : Nat → Scan → Option (Array Token)
  | 0, _ => none
  | fuel + 1, s =>
    let s := s.skipToToken (s.cursor.rest.length + 1)
    let s := s.closeTo (s.cursor.column + 1)
    match s.cursor.next with
    | none => s.finish.map Scan.tokens
    | some first => (s.takeToken first).bind (run fuel)

end Scan

/-- The tokens of a document. -/
def tokens? (text : String) : Option (List Token) :=
  let cs := text.toList
  if cs.all isAllowed then ((Scan.start cs).run (cs.length + 1)).map Array.toList else none

end RoutingRules.Yaml
