/-!
# Letter case of words

Rule types and resolution marks are compared without regard to letter case.  All of them are
ASCII words, so two texts need to agree only as far as an ASCII word can tell.
-/

namespace RoutingRules.Text

/-- The lowercase form of a character as far as an ASCII word can tell: ASCII capitals become
small, and the Kelvin sign, the only other character whose lowercase form is an ASCII letter,
becomes `k`.  The lowercase form of every other character holds a character outside ASCII, so
such a character is kept: no ASCII word contains it either way. -/
def lowerChar (c : Char) : Char :=
  if c = Char.ofNat 0x212A then 'k' else c.toLower

/-- A word in lowercase, exact for comparisons with ASCII words. -/
def lower (cs : List Char) : List Char :=
  cs.map lowerChar

/-- Equality of texts up to the case of ASCII letters. -/
def sameAsciiWord (s t : String) : Bool :=
  s.toList.map Char.toLower = t.toList.map Char.toLower

end RoutingRules.Text
