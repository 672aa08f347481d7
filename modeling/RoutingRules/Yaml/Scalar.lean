import RoutingRules.Yaml.Node
import RoutingRules.Yaml.Value

/-!
# Types of scalars

What a scalar stands for.  A plain scalar is null, a truth value or a number if it is written like
one; all other scalars are texts.  The standard tags ask for one of these types.
-/

namespace RoutingRules.Yaml

/-! ## Plain forms -/

/-- Whether a word stands for null. -/
def isNull (text : String) : Bool :=
  ["null", "Null", "NULL", "~"].contains text

/-- The truth value that a word stands for. -/
def readBool (text : String) : Option Bool :=
  if ["true", "True", "TRUE"].contains text then some true
  else if ["false", "False", "FALSE"].contains text then some false
  else none

/-- The digits behind a mark such as `0x`, and their radix. -/
def radixOf : List Char → Option (Nat × List Char)
  | '0' :: 'x' :: digits => some (16, digits)
  | '0' :: 'o' :: digits => some (8, digits)
  | '0' :: 'b' :: digits => some (2, digits)
  | _ => none

/-- The magnitude of an integer in decimal digits or with another radix marked. -/
def readMagnitude (cs : List Char) : Option Nat :=
  match radixOf cs with
  | some (radix, digits) => Number.readRadix radix digits
  | none => Number.readRadix 10 cs

/-- Digits with a zero in front, which are texts and not numbers. -/
def isZeroPadded (cs : List Char) : Bool :=
  let digits :=
    match cs with
    | '-' :: rest => rest
    | '+' :: rest => rest
    | _ => cs
  match digits with
  | '0' :: d :: rest => (d :: rest).all Char.isDigit
  | _ => false

/-- The integer that a word stands for. -/
def readInt (cs : List Char) : Option Int :=
  if isZeroPadded cs then none
  else
    match cs with
    | '-' :: rest => (readMagnitude rest).map fun n => -(n : Int)
    | '+' :: rest => (readMagnitude rest).map fun n => (n : Int)
    | _ => (readMagnitude cs).map fun n => (n : Int)

/-- Whether an integer has 64 bits, signed or unsigned. -/
def fits64 (i : Int) : Bool :=
  -(Int.pow 2 63) ≤ i && i < Int.pow 2 64

/-- Whether an integer has 128 bits, signed or unsigned. -/
def fits128 (i : Int) : Bool :=
  -(Int.pow 2 127) ≤ i && i < Int.pow 2 128

/-- The finite number that a word stands for. -/
def readFinite (cs : List Char) : Option Number.Binary64 :=
  let numeral :=
    match cs with
    | '-' :: rest => Number.readNumeral true rest
    | '+' :: rest => Number.readNumeral false rest
    | _ => Number.readNumeral false cs
  numeral.bind Number.Numeral.nearest?

/-- The floating-point number that a word stands for. -/
def readReal (text : String) : Option Real :=
  if [".inf", ".Inf", ".INF", "+.inf", "+.Inf", "+.INF"].contains text then
    some (.infinite false)
  else if ["-.inf", "-.Inf", "-.INF"].contains text then some (.infinite true)
  else if [".nan", ".NaN", ".NAN"].contains text then some .notANumber
  else (readFinite text.toList).map .finite

/-! ## Typed scalars -/

/-- The value of an integer.  Integers beyond 64 bits are refused as long as they have 128. -/
def ofInt (i : Int) : Option Yaml :=
  if fits64 i then some (.int i) else none

/-- The value of a plain scalar. -/
def ofPlain (text : String) : Option Yaml :=
  if text = "" || isNull text then some .null
  else
    match readBool text with
    | some b => some (.bool b)
    | none =>
      match (readInt text.toList).filter fits128 with
      | some i => ofInt i
      | none =>
        if isZeroPadded text.toList then some (.str text)
        else
          match readReal text with
          | some x => some (.real x)
          | none => some (.str text)

/-- The value of a scalar with a tag that does not belong to the application. -/
def ofTagged (tag : Tag) (text : String) : Option Yaml :=
  if tag = .standard "bool" then (readBool text).map .bool
  else if tag = .standard "int" then ((readInt text.toList).filter fits128).bind ofInt
  else if tag = .standard "float" then (readReal text).map .real
  else if tag = .standard "null" then if isNull text then some .null else none
  else some (.str text)

/-- The name of the tag of the application on a node. -/
def applicationTag (marks : Marks) : Option String :=
  marks.tag.bind Tag.localName?

/-- The value of a scalar, without a tag of the application. -/
def ofScalar (marks : Marks) (style : ScalarStyle) (text : String) : Option Yaml :=
  match marks.tag.filter fun tag => !tag.isLocal with
  | some tag => ofTagged tag text
  | none => if style = .plain then ofPlain text else some (.str text)

end RoutingRules.Yaml
