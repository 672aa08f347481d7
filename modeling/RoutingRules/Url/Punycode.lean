/-!
# Labels in ASCII

Writes the label of a domain in ASCII and reads it back.  The characters of ASCII come first, and
digits behind the last hyphen say which other characters stand where.

The other characters are put in one after another in the order of their code points.  Between two of
them lies a number of steps, where one step moves on to the next place and, from the last place, to
the first place and the next code point.  These numbers are written with the base 36; a digit below
the threshold of its place is the last one, and thresholds follow the numbers that came before.
-/

namespace RoutingRules.Url.Punycode

/-! ## Numbers -/

/-- The character of a digit. -/
def digitChar (d : Nat) : Char :=
  Char.ofNat (if d < 26 then 0x61 + d else 0x16 + d)

/-- The value of a digit. -/
def digitValue? (c : Char) : Option Nat :=
  if 'a' ≤ c ∧ c ≤ 'z' then some (c.toNat - 0x61)
  else if '0' ≤ c ∧ c ≤ '9' then some (c.toNat - 0x16)
  else none

/-- The threshold of a place; places count in steps of 36. -/
def threshold (bias place : Nat) : Nat :=
  max 1 (min 26 (place - bias))

theorem threshold_pos (bias place : Nat) : 1 ≤ threshold bias place :=
  Nat.le_max_left _ _

/-- The digits of a number from a place on. -/
def digits (bias place n : Nat) : List Char :=
  let t := threshold bias place
  if n < t then [digitChar n]
  else digitChar (t + (n - t) % (36 - t)) :: digits bias (place + 36) ((n - t) / (36 - t))
termination_by n
decreasing_by
  have pos := threshold_pos bias place
  have le := Nat.div_le_self (n - threshold bias place) (36 - threshold bias place)
  omega

/-- How often a number is divided by 35 until it is at most 455, in steps of 36, and what is left of
it. -/
def shrink (bias n : Nat) : Nat × Nat :=
  if 455 < n then shrink (bias + 36) (n / 35) else (bias, n)
termination_by n
decreasing_by omega

/-- The bias behind a number, with `count` characters in place. -/
def nextBias (first : Bool) (count n : Nat) : Nat :=
  let n := if first then n / 700 else n / 2
  let (bias, n) := shrink 0 (n + n / count)
  bias + 36 * n / (n + 38)

/-- The bias in front of the first number. -/
def firstBias : Nat :=
  72

/-- The first code point beyond ASCII. -/
def firstPoint : Nat :=
  0x80

/-! ## Writing -/

/-- What has been written of a label. -/
structure Writing where
  written : List Char
  /-- The steps since the last character. -/
  steps : Nat
  bias : Nat
  /-- How many characters are in place. -/
  count : Nat

namespace Writing

/-- Pass a character of the label on the way to the code point `point`. -/
def pass (ascii point : Nat) (w : Writing) (c : Char) : Writing :=
  if c.toNat < point then { w with steps := w.steps + 1 }
  else if c.toNat = point then
    { written := w.written ++ digits w.bias 36 w.steps
      steps := 0
      bias := nextBias (w.count = ascii) (w.count + 1) w.steps
      count := w.count + 1 }
  else w

/-- Write the places of the code points that are left, which are in order; `least` is the least one
that has not been passed. -/
def points (label : List Char) (ascii : Nat) : Nat → List Nat → Writing → Writing
  | _, [], w => w
  | least, point :: rest, w =>
    let start := { w with steps := w.steps + (point - least) * (w.count + 1) }
    let behind := label.foldl (pass ascii point) start
    points label ascii (point + 1) rest { behind with steps := behind.steps + 1 }

end Writing

/-- Put a number into an increasing list that need not have it. -/
def insertPoint (n : Nat) : List Nat → List Nat
  | [] => [n]
  | m :: rest =>
    if n < m then n :: m :: rest else if n = m then m :: rest else m :: insertPoint n rest

/-- A label in ASCII. -/
def encode (label : List Char) : List Char :=
  let ascii := label.filter fun c => c.toNat < firstPoint
  let others := (label.map Char.toNat).filter (firstPoint ≤ ·)
  let start : Writing := ⟨[], 0, firstBias, ascii.length⟩
  let behind := start.points label ascii.length firstPoint (others.foldr insertPoint [])
  ascii ++ (if ascii = [] then [] else ['-']) ++ behind.written

/-! ## Reading -/

/-- What has been read of a label. -/
structure Reading where
  chars : List Char
  /-- The code point of the last character. -/
  point : Nat
  /-- The place behind the last character. -/
  place : Nat
  bias : Nat
  /-- The number that is being read, and the weight and the place of its next digit. -/
  steps : Nat
  weight : Nat
  digit : Nat

namespace Reading

/-- Put in the character that a finished number leads to. -/
def insert (r : Reading) : Option Reading :=
  let count := r.chars.length + 1
  let total := r.place + r.steps
  let point := r.point + total / count
  let place := total % count
  if point.isValidChar then
    some {
      chars := r.chars.insertIdx place (Char.ofNat point)
      point
      place := place + 1
      bias := nextBias (r.place = 0) count r.steps
      steps := 0
      weight := 1
      digit := 36 }
  else none

/-- Read a digit. -/
def step (r : Reading) (c : Char) : Option Reading := do
  let d ← digitValue? c
  let t := threshold r.bias r.digit
  let next := { r with steps := r.steps + d * r.weight }
  if d < t then next.insert
  else return { next with weight := r.weight * (36 - t), digit := r.digit + 36 }

end Reading

/-- The characters in front of the last hyphen of a label and the digits behind it.  A hyphen at the
start divides nothing. -/
def splitLabel (label : List Char) : List Char × List Char :=
  let digits := (label.reverse.takeWhile (· ≠ '-')).reverse
  let front := label.take (label.length - digits.length)
  if front.length ≤ 1 then ([], label) else (front.dropLast, digits)

/-- The label that a label in ASCII stands for. -/
def decode? (label : List Char) : Option (List Char) := do
  let (chars, digits) := splitLabel label
  let start : Reading := ⟨chars, firstPoint, 0, firstBias, 0, 1, 36⟩
  let behind ← digits.foldlM Reading.step start
  if behind.digit = 36 then return behind.chars else none

end RoutingRules.Url.Punycode
