import RoutingRules.Number.Natural

/-!
# Networks

Recognises networks written as an address, a slash and a prefix length.  Every reader takes a
production off the front of a text and returns what follows it.

An IPv4 address has four decimal numbers of up to three digits.  An IPv6 address has eight
groups of up to four hexadecimal digits; two colons may stand for the groups that are missing,
and the last two groups on either side of them may be written as an IPv4 address.
-/

namespace RoutingRules.Network

/-! ## Numbers -/

/-- Take all digits at the front; they have to be between one and `most`, and their value below
`bound`. -/
def takeNumber (radix most bound : Nat) (cs : List Char) : Option (List Char) :=
  let isDigit := fun c => (Number.digit? radix c).isSome
  let digits := cs.takeWhile isDigit
  match Number.readRadix radix digits with
  | some value =>
    if digits.length ≤ most ∧ value < bound then some (cs.dropWhile isDigit) else none
  | none => none

/-- Take one given character. -/
def takeChar (c : Char) : List Char → Option (List Char)
  | [] => none
  | d :: rest => if d = c then some rest else none

/-! ## Addresses -/

/-- Take an IPv4 address. -/
def takeAddress4 (cs : List Char) : Option (List Char) := do
  let octet := takeNumber 10 3 256
  let cs ← octet cs
  let cs ← takeChar '.' cs >>= octet
  let cs ← takeChar '.' cs >>= octet
  takeChar '.' cs >>= octet

/-- How many groups of an IPv6 address were taken, whether the last two of them were an IPv4
address, and what follows them. -/
structure Groups where
  count : Nat
  embedded : Bool
  rest : List Char

/-- Take up to `room` groups, of which the first is the one with number `first`; all but the one
with number zero follow a colon. -/
def takeGroups (first : Nat) : Nat → List Char → Groups
  | 0, cs => ⟨first, false, cs⟩
  | room + 1, cs =>
    let start := if first = 0 then some cs else takeChar ':' cs
    match if room = 0 then none else start.bind takeAddress4 with
    | some rest => ⟨first + 2, true, rest⟩
    | none =>
      match start.bind (takeNumber 16 4 0x10000) with
      | some rest => takeGroups (first + 1) room rest
      | none => ⟨first, false, cs⟩

/-- Take an IPv6 address. -/
def takeAddress6 (cs : List Char) : Option (List Char) :=
  let head := takeGroups 0 8 cs
  if head.count = 8 then some head.rest
  else if head.embedded then none
  else
    match head.rest with
    | ':' :: ':' :: rest => some (takeGroups 0 (8 - head.count) rest).rest
    | _ => none

/-! ## Networks -/

/-- Whether a text is an IPv4 network. -/
def isV4 (cs : List Char) : Bool :=
  (takeAddress4 cs >>= takeChar '/' >>= takeNumber 10 2 33) = some []

/-- Whether a text is an IPv6 network. -/
def isV6 (cs : List Char) : Bool :=
  (takeAddress6 cs >>= takeChar '/' >>= takeNumber 10 3 129) = some []

/-- Whether a text is a network of either family. -/
def isAny (cs : List Char) : Bool :=
  isV4 cs || isV6 cs

/-! ## Dotted quads -/

/-- Whether the text starts with `dots + 1` decimal numbers that have dots between them. -/
def startsDotted : Nat → List Char → Bool
  | 0, cs => cs.head?.any Char.isDigit
  | dots + 1, cs =>
    cs.head?.any Char.isDigit &&
      match cs.dropWhile Char.isDigit with
      | '.' :: rest => startsDotted dots rest
      | _ => false

/-- Whether four decimal numbers with dots between them stand anywhere in the text. -/
def hasDottedQuad : List Char → Bool
  | [] => false
  | c :: cs => startsDotted 3 (c :: cs) || hasDottedQuad cs

end RoutingRules.Network
