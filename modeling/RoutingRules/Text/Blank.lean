/-!
# Blank characters and trimming

The characters that count as white space around tokens, values and list lines, and the
functions that cut them off both ends of a text.
-/

namespace RoutingRules.Text

/-- The characters with the Unicode property `White_Space`. -/
def isBlank (c : Char) : Bool :=
  let n := c.toNat
  (0x09 ≤ n && n ≤ 0x0D) || n == 0x20 || n == 0x85 || n == 0xA0 || n == 0x1680 ||
    (0x2000 ≤ n && n ≤ 0x200A) || n == 0x2028 || n == 0x2029 || n == 0x202F || n == 0x205F ||
    n == 0x3000

/-- Cut blanks off the front. -/
def trimFront (cs : List Char) : List Char :=
  cs.dropWhile isBlank

/-- Cut blanks off the end. -/
def trimBack (cs : List Char) : List Char :=
  (cs.reverse.dropWhile isBlank).reverse

/-- Cut blanks off both ends. -/
def trimChars (cs : List Char) : List Char :=
  trimBack (trimFront cs)

/-- Cut blanks off both ends of a text. -/
def trim (s : String) : String :=
  String.ofList (trimChars s.toList)

/-- A list of characters with no blank at either end. -/
def Trimmed (cs : List Char) : Prop :=
  (∀ c ∈ cs.head?, isBlank c = false) ∧ (∀ c ∈ cs.getLast?, isBlank c = false)

end RoutingRules.Text
