import RoutingRules.Number.Natural

/-!
# Places in a YAML document

The text that is still to be read together with the place where it starts, and the classes of
characters that the structure of a document depends on.
-/

namespace RoutingRules.Yaml

/-! ## Characters -/

/-- Whether a character may stand in a document at all.  Control characters may not. -/
def isAllowed (c : Char) : Bool :=
  let n := c.toNat
  n == 0x09 || n == 0x0A || n == 0x0D || (0x20 ≤ n && n ≤ 0x7E) || n == 0x85 ||
    (0xA0 ≤ n && n ≤ 0xFFFD) || 0x10000 ≤ n

/-- Whether a character ends a line. -/
def isBreak (c : Char) : Bool :=
  let n := c.toNat
  n == 0x0A || n == 0x0D || n == 0x85 || n == 0x2028 || n == 0x2029

/-- Whether a character is a space or a tab. -/
def isSpace (c : Char) : Bool :=
  c = ' ' || c = '\t'

/-- Whether a word ends before `next`: at white space and at the end of the document. -/
def endsWord (next : Option Char) : Bool :=
  match next with
  | none => true
  | some c => isSpace c || isBreak c

/-- Whether a character may stand in names of anchors, directives and tag handles. -/
def isNameChar (c : Char) : Bool :=
  c.isAlphanum || c = '_' || c = '-'

/-! ## Cursors -/

/-- The text still to be read, and where it starts. -/
structure Cursor where
  rest : List Char
  /-- How many octets the text before it takes up. -/
  index : Nat
  line : Nat
  /-- How many characters of the line are before it. -/
  column : Nat

namespace Cursor

/-- The start of a document. -/
def start (cs : List Char) : Cursor :=
  ⟨cs, 0, 0, 0⟩

/-- The next character. -/
def next (c : Cursor) : Option Char :=
  c.rest.head?

/-- The character at a distance. -/
def ahead (c : Cursor) (distance : Nat) : Option Char :=
  c.rest[distance]?

/-- Whether the next character is the given one. -/
def at? (c : Cursor) (d : Char) : Bool :=
  c.next = some d

/-- Whether everything has been read. -/
def atEnd (c : Cursor) : Bool :=
  c.rest.isEmpty

/-- Whether the line ends here. -/
def atLineEnd (c : Cursor) : Bool :=
  match c.next with
  | none => true
  | some d => isBreak d

/-- How many octets characters take up. -/
def octets (cs : List Char) : Nat :=
  Number.total (cs.map Char.utf8Size)

/-- Go past some characters of the line. -/
def skip (c : Cursor) (count : Nat) : Cursor :=
  ⟨c.rest.drop count, c.index + octets (c.rest.take count), c.line, c.column + count⟩

/-- Go past the characters of the line that satisfy `p`. -/
def skipWhile (c : Cursor) (p : Char → Bool) : Cursor :=
  c.skip (c.rest.takeWhile p).length

/-- Go past a line break, if there is one: its characters in a text, and the next line.  The common
breaks all count as a line feed. -/
def takeBreak (c : Cursor) : List Char × Cursor :=
  match c.rest with
  | '\r' :: '\n' :: rest => (['\n'], ⟨rest, c.index + 2, c.line + 1, 0⟩)
  | d :: rest =>
    if isBreak d then
      let n := d.toNat
      let text := if n = 0x2028 ∨ n = 0x2029 then [d] else ['\n']
      (text, ⟨rest, c.index + d.utf8Size, c.line + 1, 0⟩)
    else ([], c)
  | [] => ([], c)

/-- The characters up to the end of the line, and the end of the line. -/
def takeLine (c : Cursor) : List Char × Cursor :=
  let inLine := fun d => !isBreak d
  (c.rest.takeWhile inLine, c.skipWhile inLine)

/-- Go past spaces and a comment to the end of the line and over it.  Nothing else may stand
there. -/
def endLine (c : Cursor) : Option Cursor :=
  let c := c.skipWhile isSpace
  let c := if c.at? '#' then c.takeLine.2 else c
  if c.atLineEnd then some c.takeBreak.2 else none

/-- Whether a line with three times the given character starts here: the mark of the start or the
end of a document. -/
def atMark (c : Cursor) (d : Char) : Bool :=
  c.column = 0 && c.rest.take 3 = [d, d, d] && endsWord (c.ahead 3)

/-- Whether a document starts or ends at this line. -/
def atDocumentMark (c : Cursor) : Bool :=
  c.atMark '-' || c.atMark '.'

end Cursor

/-! ## Folding -/

/-- The text that stands for line breaks between two words: a single line feed becomes a space, and
of several the first is dropped. -/
def folded (first others : List Char) : List Char :=
  if first = ['\n'] then if others = [] then [' '] else others
  else first ++ others

end RoutingRules.Yaml
