import RoutingRules.Number.Natural
import RoutingRules.Yaml.Cursor
import RoutingRules.Yaml.Token

/-!
# Names in YAML documents

Anchors, aliases, tags and directives.
-/

namespace RoutingRules.Yaml

/-! ## Anchors -/

/-- Whether a name may be followed by the given character. -/
def endsName (next : Option Char) : Bool :=
  endsWord next || next.any fun c => c = '}' || "?:,]%@`".toList.contains c

/-- Read the name of an anchor or an alias behind its mark. -/
def takeName (c : Cursor) : Option (String × Cursor) :=
  let name := c.rest.takeWhile isNameChar
  let c := c.skip name.length
  if name ≠ [] ∧ endsName c.next then some (String.ofList name, c) else none

/-! ## Tags -/

/-- Whether a character may stand in the name of a tag.  Between angle brackets the separators of
flow collections are allowed too. -/
def isTagChar (bracketed : Bool) (c : Char) : Bool :=
  isNameChar c || ";/?:@&=+$.%!~*()".toList.contains c || c = '\x27' ||
    (bracketed && (c = ',' || c = '[' || c = ']'))

/-- How many octets follow the first octet of a character. -/
def followers (first : UInt8) : Option Nat :=
  if first < 0x80 then some 0
  else if 0xC0 ≤ first ∧ first < 0xE0 then some 1
  else if 0xE0 ≤ first ∧ first < 0xF0 then some 2
  else if 0xF0 ≤ first ∧ first < 0xF8 then some 3
  else none

/-- Read an octet that is written as an escape. -/
def takeOctet (c : Cursor) : Option (UInt8 × Cursor) :=
  (Text.takeEscape c.rest).map fun (octet, _) => (octet, c.skip 3)

/-- Read the octets of a character behind the first one onto `acc`, which is in reverse.  That they
follow another octet is all that is asked of them. -/
def takeFollowers : Nat → List UInt8 → Cursor → Option (List UInt8 × Cursor)
  | 0, acc, c => some (acc, c)
  | count + 1, acc, c => do
    let (octet, c) ← takeOctet c
    if 0x80 ≤ octet ∧ octet < 0xC0 then takeFollowers count (octet :: acc) c else none

/-- Read the octets of a tag onto `acc`, which is in reverse. -/
def takeTagOctets (bracketed : Bool) :
    Nat → List UInt8 → Cursor → Option (List UInt8 × Cursor)
  | 0, _, _ => none
  | fuel + 1, acc, c =>
    match c.next with
    | none => some (acc.reverse, c)
    | some d =>
      if d = '%' then do
        let (first, c) ← takeOctet c
        let count ← followers first
        let (acc, c) ← takeFollowers count (first :: acc) c
        takeTagOctets bracketed fuel acc c
      else if isTagChar bracketed d then
        takeTagOctets bracketed fuel (d.toUInt8 :: acc) (c.skip 1)
      else some (acc.reverse, c)

/-- Read the handle of a tag: exclamation marks with or without a name between them. -/
def takeHandle (c : Cursor) : Option (List Char × Cursor) :=
  if c.at? '!' then
    let name := (c.rest.drop 1).takeWhile isNameChar
    let behind := c.skip (1 + name.length)
    if behind.at? '!' then some ('!' :: name ++ ['!'], behind.skip 1)
    else some ('!' :: name, behind)
  else none

/-- Read a tag between angle brackets. -/
def takeBracketedTag (c : Cursor) : Option (Token × Cursor) := do
  let (suffix, c) ← takeTagOctets true (c.rest.length + 1) [] (c.skip 2)
  if suffix ≠ [] ∧ c.at? '>' then
    return (.tag "" (Tag.counted suffix), c.skip 1)
  else none

/-- Read a tag with a handle.  A name behind a single exclamation mark belongs to the tag, and the
mark alone is a tag of its own. -/
def takeHandledTag (c : Cursor) : Option (Token × Cursor) := do
  let (handle, c) ← takeHandle c
  if handle.length > 1 ∧ handle.getLast? = some '!' then
    let (suffix, c) ← takeTagOctets false (c.rest.length + 1) [] c
    if suffix = [] then none
    else return (.tag (String.ofList handle) (Tag.counted suffix), c)
  else
    let start := handle.tail.reverse.map Char.toUInt8
    let (suffix, c) ← takeTagOctets false (c.rest.length + 1) start c
    let suffix := Tag.counted suffix
    if suffix = [] then return (.tag "" Tag.mark, c)
    else return (.tag "!" suffix, c)

/-- Read a tag at its exclamation mark. -/
def takeTag (flow : Bool) (c : Cursor) : Option (Token × Cursor) := do
  let (token, c) ← if c.ahead 1 = some '<' then takeBracketedTag c else takeHandledTag c
  if (flow && c.at? ',') || endsWord c.next then return (token, c) else none

/-! ## Directives -/

/-- Read a part of a version number. -/
def takeVersionPart (c : Cursor) : Option (Nat × Cursor) := do
  let digits := c.rest.takeWhile Char.isDigit
  let n ← Number.readRadix 10 digits
  if digits.length ≤ 9 then return (n, c.skip digits.length) else none

/-- Read the directive that gives the version of the format. -/
def takeVersion (c : Cursor) : Option (Token × Cursor) := do
  let (major, c) ← takeVersionPart (c.skipWhile isSpace)
  if c.at? '.' then
    let (minor, c) ← takeVersionPart (c.skip 1)
    return (.version major minor, c)
  else none

/-- Read the directive that gives a tag handle its meaning. -/
def takeTagHandle (c : Cursor) : Option (Token × Cursor) := do
  let (handle, c) ← takeHandle (c.skipWhile isSpace)
  let named := handle = ['!'] ∨ handle.getLast? = some '!'
  if named ∧ c.next.any isSpace then
    let (front, c) ← takeTagOctets true (c.rest.length + 1) [] (c.skipWhile isSpace)
    if front ≠ [] ∧ endsWord c.next then
      return (.tagHandle (String.ofList handle) (Tag.counted front), c)
    else none
  else none

/-- Read a directive at its percent sign, with the rest of its line. -/
def takeDirective (c : Cursor) : Option (Token × Cursor) := do
  let name := (c.rest.drop 1).takeWhile isNameChar
  let behind := c.skip (1 + name.length)
  if endsWord behind.next then
    let (token, c) ←
      if name = "YAML".toList then takeVersion behind
      else if name = "TAG".toList then takeTagHandle behind
      else none
    let c ← c.endLine
    return (token, c)
  else none

end RoutingRules.Yaml
