import RoutingRules.Number.Natural
import RoutingRules.Number.Binary64

/-!
# Floating-point numbers as text

A number is written with its shortest digits.  Numbers from `0.00001` up to, but not including,
`10 ^ 16` are written positionally with at least one digit after the point, all others with an
exponent; how the exponent is spelled is the choice of the format that prints the number.
-/

namespace RoutingRules.Number

/-- How an exponent that is not negative is spelled. -/
inductive ExponentStyle where
  /-- Without a sign. -/
  | bare
  /-- With a plus sign. -/
  | signed
deriving DecidableEq, Repr

/-- The exponent part of a number. -/
def ExponentStyle.render (style : ExponentStyle) (e : Int) : List Char :=
  let sign := if e < 0 then ['-'] else if style = .signed then ['+'] else []
  'e' :: sign ++ Nat.toDigits 10 e.natAbs

/-- The text of `digits · 10 ^ power`. -/
def layout (style : ExponentStyle) (digits : Nat) (power : Int) : List Char :=
  let ds := Nat.toDigits 10 digits
  let point : Int := ds.length + power
  if 0 ≤ power ∧ point ≤ 16 then ds ++ List.replicate power.toNat '0' ++ ['.', '0']
  else if 0 < point ∧ point ≤ 16 then ds.take point.toNat ++ '.' :: ds.drop point.toNat
  else if -5 < point ∧ point ≤ 0 then '0' :: '.' :: List.replicate (-point).toNat '0' ++ ds
  else
    match ds with
    | [d] => d :: style.render (point - 1)
    | d :: rest => d :: '.' :: rest ++ style.render (point - 1)
    | [] => []

/-- The text of a finite number. -/
def Binary64.render (style : ExponentStyle) (x : Binary64) : String :=
  let body :=
    if x.mantissa = 0 then ['0', '.', '0']
    else
      let (digits, power) := x.shortest
      layout style digits power
  String.ofList (if x.negative then '-' :: body else body)

/-! ## Reading -/

/-- The parts of a decimal number: whether it has an integer part, a point, and so on do not
matter for its value, only the digits and the power of ten. -/
structure Numeral where
  negative : Bool
  digits : Nat
  power : Int

/-- Read digits off the front: their value onto `acc`, how many there were, and the rest. -/
def takeDigits (acc count : Nat) : List Char → Nat × Nat × List Char
  | [] => (acc, count, [])
  | c :: cs =>
    match digit? 10 c with
    | some d => takeDigits (acc * 10 + d) (count + 1) cs
    | none => (acc, count, c :: cs)

/-- Read an exponent that ends the text; the empty text is the exponent zero. -/
def readExponent : List Char → Option Int
  | [] => some 0
  | c :: cs =>
    if c = 'e' ∨ c = 'E' then
      match cs with
      | '-' :: ds => (readRadix 10 ds).map fun n => -(n : Int)
      | '+' :: ds => (readRadix 10 ds).map fun n => (n : Int)
      | ds => (readRadix 10 ds).map fun n => (n : Int)
    else none

/-- Read a decimal numeral: digits with an optional point among or beside them, then an optional
exponent.  At least one digit has to be there. -/
def readNumeral (negative : Bool) (cs : List Char) : Option Numeral :=
  let (whole, wholeCount, rest) := takeDigits 0 0 cs
  let (all, fractionCount, rest) :=
    match rest with
    | '.' :: after =>
      let (all, n, rest) := takeDigits whole 0 after
      (all, n, rest)
    | rest => (whole, 0, rest)
  if wholeCount + fractionCount = 0 then none
  else (readExponent rest).map fun e => ⟨negative, all, e - fractionCount⟩

/-- The number nearest to a numeral, or nothing when that lies beyond the format. -/
def Numeral.nearest? (n : Numeral) : Option Binary64 :=
  Binary64.ofDecimal n.negative n.digits n.power

end RoutingRules.Number
