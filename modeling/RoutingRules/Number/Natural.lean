/-!
# Natural numbers as text

Decimal text of natural numbers, and reading a number that has to stay below a bound, with the
three ways in which that can fail.
-/

namespace RoutingRules.Number

/-- The decimal text of a natural number. -/
def decimal (n : Nat) : String :=
  String.ofList (Nat.toDigits 10 n)

/-- The decimal text of an integer, with a sign if it is negative. -/
def decimalInt (i : Int) : String :=
  if i < 0 then "-" ++ decimal i.natAbs else decimal i.natAbs

/-- The sum of several counts. -/
def total (counts : List Nat) : Nat :=
  counts.foldr (· + ·) 0

/-- A text filled up with zeros at its front. -/
def zeroPadded (width : Nat) (digits : List Char) : List Char :=
  List.replicate (width - digits.length) '0' ++ digits

/-- The hexadecimal text of a natural number with capital letters and at least `width` digits. -/
def capitalHex (width n : Nat) : List Char :=
  zeroPadded width ((Nat.toDigits 16 n).map Char.toUpper)

/-- The value of a digit of the given radix, at most 16; letters of either case count. -/
def digit? (radix : Nat) (c : Char) : Option Nat :=
  let value :=
    if '0' ≤ c ∧ c ≤ '9' then some (c.toNat - 48)
    else if 'a' ≤ c ∧ c ≤ 'f' then some (c.toNat - 87)
    else if 'A' ≤ c ∧ c ≤ 'F' then some (c.toNat - 55)
    else none
  value.filter (· < radix)

/-! ## Bounded numbers -/

/-- Why a text is not a number below the bound. -/
inductive Fault where
  | empty
  | badDigit
  | tooLarge
deriving DecidableEq, Repr

/-- The wording of a fault. -/
def Fault.message : Fault → String
  | .empty => "cannot parse integer from empty string"
  | .badDigit => "invalid digit found in string"
  | .tooLarge => "number too large to fit in target type"

/-- Read decimal digits onto `acc`; the first character that is no digit, or that carries the
number over `most`, decides the fault. -/
def readDigits (most : Nat) : Nat → List Char → Except Fault Nat
  | acc, [] => .ok acc
  | acc, c :: cs =>
    match digit? 10 c with
    | none => .error .badDigit
    | some d => if most < acc * 10 + d then .error .tooLarge else readDigits most (acc * 10 + d) cs

/-- Read a number of at most `most`; a plus sign may stand in front. -/
def readAtMost (most : Nat) : List Char → Except Fault Nat
  | [] => .error .empty
  | '+' :: [] => .error .badDigit
  | '+' :: digits => readDigits most 0 digits
  | digits => readDigits most 0 digits

/-- Read a whole text as digits of a radix. -/
def readRadix (radix : Nat) : List Char → Option Nat
  | [] => none
  | cs => cs.foldlM (fun acc c => (digit? radix c).map (acc * radix + ·)) 0

end RoutingRules.Number
