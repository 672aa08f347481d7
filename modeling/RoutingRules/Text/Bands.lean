/-!
# Character classes as bands

A class of characters is kept as the increasing list of the code points at which membership
changes: the first number starts a band of members, the second ends it, and so on.
-/

namespace RoutingRules.Text

/-- Membership in the class whose bands are bounded by `bounds`: an odd number of bounds lies at
or below the code point. -/
def inBands (bounds : List Nat) (c : Char) : Bool :=
  (bounds.takeWhile (· ≤ c.toNat)).length % 2 = 1

end RoutingRules.Text
