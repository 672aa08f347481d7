import RoutingRules.Text.Octets

/-!
# Parts of addresses

Each part of an address has characters that are written as escapes there.  Controls and characters
beyond ASCII are escaped everywhere, and escapes that are there already stay as they are.
-/

namespace RoutingRules.Url

/-- A part of an address. -/
inductive Part where
  /-- The name of a user, or a password. -/
  | user
  /-- A host, or a path that is not divided. -/
  | plain
  | path
  /-- The query of an address, whose scheme may be one of those that address servers. -/
  | query (served : Bool)
  | fragment
deriving DecidableEq, Repr

namespace Part

/-- The visible characters that are escaped in a part. -/
def reserved : Part → List Char
  | user => " \"<>`#?".toList ++ ['{', '}'] ++ "/:;=@[\\]^|".toList
  | plain => []
  | path => " \"<>`#?".toList ++ ['{', '}']
  | query served => " \"#<>".toList ++ if served then ['\x27'] else []
  | fragment => " \"<>`".toList

/-- Whether a character is escaped in a part. -/
def escapes (part : Part) (c : Char) : Bool :=
  c.toNat < 0x20 || 0x7F ≤ c.toNat || part.reserved.contains c

/-- A text as it is written in a part. -/
def escaped (part : Part) (cs : List Char) : List Char :=
  cs.flatMap fun c => if part.escapes c then Text.escaped c else [c]

end Part

end RoutingRules.Url
