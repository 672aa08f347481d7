import RoutingRules.Text.Octets
import RoutingRules.Text.Printable
import RoutingRules.Text.SmallLetter
import RoutingRules.Text.Split
import RoutingRules.Url.Punycode

/-!
# Domains

The names of servers.  A name may be written with escapes and with the letters of any script; it
stands for a name in small letters of ASCII.
-/

namespace RoutingRules.Url.Domain

/-! ## Characters -/

/-- Whether a character of ASCII may not occur in a name. -/
def isForbidden (c : Char) : Bool :=
  c.toNat ≤ 0x20 || c.toNat = 0x7F || "%#/:<>?@[\\]^|".toList.contains c

/-- The bands of the characters that do not count in a name. -/
def ignoredBounds : List Nat :=
  [0xAD, 0xAE, 0x34F, 0x350, 0x180B, 0x180E, 0x180F, 0x1810, 0x200B, 0x200C, 0x2060, 0x2061, 0x2064,
   0x2065, 0xFE00, 0xFE10, 0xFEFF, 0xFF00, 0x1BCA0, 0x1BCA4, 0xE0100, 0xE01F0]

/-- A wide form of a character of ASCII, or one of the full stops of ideographic scripts, as the
character that it stands for. -/
def narrow (c : Char) : Char :=
  let n := c.toNat
  if n = 0x3002 ∨ n = 0xFF61 then '.'
  else if 0xFF01 ≤ n ∧ n ≤ 0xFF5E then Char.ofNat (n - 0xFEE0)
  else c

/-- The characters that a character of a name stands for, if it may occur. -/
def standFor (c : Char) : Option (List Char) :=
  let small := Text.smallLetter (narrow c)
  if small.toNat < 0x80 then if isForbidden small then none else some [small]
  else if Text.inBands ignoredBounds c then some []
  else if Text.isPrintable small || Text.isExtender small then some [small]
  else none

/-- Whether a character stands for itself. -/
def isPlain (c : Char) : Bool :=
  standFor c = some [c]

/-! ## Labels -/

/-- Whether a character belongs to ASCII. -/
def isAscii (c : Char) : Bool :=
  c.toNat < 0x80

/-- What labels that stand for others start with. -/
def codeMark : List Char :=
  "xn--".toList

/-- A label with the characters that it stands for, in ASCII.  A label that stands for another one
has to stand for one that needs it. -/
def label? (label : List Char) : Option (List Char) :=
  match codeMark.isPrefixOf? label with
  | some code =>
    match Punycode.decode? code with
    | some cs => if !cs.all isAscii && cs.all isPlain then some label else none
    | none => none
  | none =>
    if label.all isAscii then some label
    else if label.head?.any Text.isExtender then none
    else some (codeMark ++ Punycode.encode label)

/-- The name that a written name stands for. -/
def read? (cs : List Char) : Option (List Char) := do
  let name ← Text.ofOctets? (Text.unescaped cs)
  let small ← name.toList.mapM standFor
  let labels ← (Text.splitOn '.' small.flatten).mapM label?
  return (Text.joinWith "." (labels.map String.ofList)).toList

end RoutingRules.Url.Domain
