/-!
# Binary floating-point numbers

Finite numbers of the 64-bit binary format as exact data, the nearest such number to a decimal
one, and the shortest decimal digits that lead back to a number.  All arithmetic is on natural
numbers.
-/

namespace RoutingRules.Number

/-- A finite binary64 number: plus or minus `mantissa · 2 ^ exponent`, where the mantissa is
below `2 ^ 53`, the exponent at least `-1074`, and a mantissa below `2 ^ 52` only occurs with the
least exponent. -/
structure Binary64 where
  negative : Bool
  mantissa : Nat
  exponent : Int
deriving DecidableEq, Repr

namespace Binary64

/-- Plus or minus zero. -/
def zero (negative : Bool) : Binary64 :=
  ⟨negative, 0, -1074⟩

/-- The quotient rounded to nearest, ties to even. -/
def divNearest (num den : Nat) : Nat :=
  let q := num / den
  let twice := 2 * (num % den)
  if twice < den then q
  else if den < twice then q + 1
  else if q % 2 = 0 then q
  else q + 1

/-- The number nearest to `num / den`, or nothing when that lies beyond the format. -/
def ofRatio (negative : Bool) (num den : Nat) : Option Binary64 :=
  if num = 0 then some (zero negative)
  else
    let guess : Int := (Nat.log2 num : Int) - Nat.log2 den
    let below :=
      if 0 ≤ guess then num < den * Nat.pow 2 guess.toNat
      else num * Nat.pow 2 (-guess).toNat < den
    let top := if below then guess - 1 else guess
    let exponent := max (top - 52) (-1074)
    let mantissa :=
      if 0 ≤ exponent then divNearest num (den * Nat.pow 2 exponent.toNat)
      else divNearest (num * Nat.pow 2 (-exponent).toNat) den
    let (mantissa, exponent) :=
      if mantissa = Nat.pow 2 53 then (Nat.pow 2 52, exponent + 1) else (mantissa, exponent)
    if 971 < exponent then none else some ⟨negative, mantissa, exponent⟩

/-- The number nearest to `digits · 10 ^ power`, or nothing when that lies beyond the format.
Powers far outside the range of the format are settled by the count of digits alone. -/
def ofDecimal (negative : Bool) (digits : Nat) (power : Int) : Option Binary64 :=
  let size : Int := (Nat.toDigits 10 digits).length + power
  if digits = 0 ∨ size < -400 then some (zero negative)
  else if 400 < size then none
  else if 0 ≤ power then ofRatio negative (digits * Nat.pow 10 power.toNat) 1
  else ofRatio negative digits (Nat.pow 10 (-power).toNat)

/-! ## Shortest decimal digits -/

/-- Scale by a power of ten: the pair stands for `num · 10 ^ power / den`. -/
def scale (num den : Nat) (power : Int) : Nat × Nat :=
  if 0 ≤ power then (num * Nat.pow 10 power.toNat, den)
  else (num, den * Nat.pow 10 (-power).toNat)

/-- The least `p` with `num / den < 10 ^ p`, found by stepping down from a bound. -/
def decimalTop (num den : Nat) : Nat → Int → Int
  | 0, p => p
  | steps + 1, p =>
    let (n, d) := scale num den (1 - p)
    if n < d then decimalTop num den steps (p - 1) else p

/-- Drop zeros off the end of a digit sequence, moving them into the power of ten. -/
def dropZeros : Nat → Nat → Int → Nat × Int
  | 0, digits, power => (digits, power)
  | fuel + 1, digits, power =>
    if digits ≠ 0 ∧ digits % 10 = 0 then dropZeros fuel (digits / 10) (power + 1)
    else (digits, power)

/-- The decimal closest to `4 · num / den` among the shortest ones strictly between `lo / den` and
`hi / den`, or at an end if `closed`; the grid of `count` digits is tried first, then finer ones. -/
def shortestFrom (num lo hi den : Nat) (closed : Bool) (top : Int) :
    Nat → Nat → Nat × Int
  | 0, _ => (0, 0)
  | tries + 1, count =>
    let power := top - count
    let (n, d) := scale num den (-power)
    let floor := n / d
    let inside (c : Nat) : Bool :=
      let (l, d₁) := scale lo den (-power)
      let (h, d₂) := scale hi den (-power)
      if closed then l ≤ c * d₁ && c * d₂ ≤ h else l < c * d₁ && c * d₂ < h
    let below := inside floor
    let above := inside (floor + 1)
    if below && above then
      let rest := 2 * (n % d)
      let nearer := if rest < d ∨ (rest = d ∧ floor % 2 = 0) then floor else floor + 1
      dropZeros 20 nearer power
    else if below then dropZeros 20 floor power
    else if above then dropZeros 20 (floor + 1) power
    else shortestFrom num lo hi den closed top tries (count + 1)

/-- The shortest digits, and their power of ten, that read back as this number; of two equally
short ones the nearer. -/
def shortest (x : Binary64) : Nat × Int :=
  if x.mantissa = 0 then (0, 0)
  else
    let narrow : Bool := x.mantissa = Nat.pow 2 52 ∧ -1074 < x.exponent
    let shift := x.exponent - 2
    let up := if 0 ≤ shift then Nat.pow 2 shift.toNat else 1
    let den := if 0 ≤ shift then 1 else Nat.pow 2 (-shift).toNat
    let num := 4 * x.mantissa * up
    let lo := (if narrow then 4 * x.mantissa - 1 else 4 * x.mantissa - 2) * up
    let hi := (4 * x.mantissa + 2) * up
    let top := decimalTop num den 700 310
    shortestFrom num lo hi den (x.mantissa % 2 = 0) top 18 1

end Binary64

end RoutingRules.Number
