import RoutingRules.Json.Value
import RoutingRules.Number.Text

/-!
# Reading JSON

Reads a JSON text into a value.  Integers beyond 64 bits become floating-point numbers, and so
does `-0`; of two fields with one key the later one counts.
-/

namespace RoutingRules.Json

/-! ## Leaves -/

/-- Skip white space between tokens. -/
def skipSpace (cs : List Char) : List Char :=
  cs.dropWhile fun c => c = ' ' || c = '\t' || c = '\n' || c = '\r'

/-- The value of four hexadecimal digits at the front, and what follows them. -/
def takeHex4 : List Char → Option (Nat × List Char)
  | a :: b :: c :: d :: rest => (Number.readRadix 16 [a, b, c, d]).map fun n => (n, rest)
  | _ => none

/-- The character of a `\u` escape whose digits come next; a high surrogate takes the escape of
its low surrogate along. -/
def takeCodePoint (cs : List Char) : Option (Char × List Char) := do
  let (high, rest) ← takeHex4 cs
  if 0xD800 ≤ high ∧ high < 0xDC00 then
    match rest with
    | '\\' :: 'u' :: rest =>
      let (low, rest) ← takeHex4 rest
      if 0xDC00 ≤ low ∧ low < 0xE000 then
        some (Char.ofNat (0x10000 + (high - 0xD800) * 0x400 + (low - 0xDC00)), rest)
      else none
    | _ => none
  else if 0xDC00 ≤ high ∧ high < 0xE000 then none
  else some (Char.ofNat high, rest)

/-- The character that a one-letter escape stands for. -/
def unescape? (c : Char) : Option Char :=
  if c = '"' ∨ c = '\\' ∨ c = '/' then some c
  else if c = 'b' then some '\x08'
  else if c = 'f' then some '\x0c'
  else if c = 'n' then some '\n'
  else if c = 'r' then some '\r'
  else if c = 't' then some '\t'
  else none

/-- The rest of a string whose opening mark has been read; `acc` holds what came before it in
reverse. -/
def takeString : Nat → List Char → List Char → Option (String × List Char)
  | 0, _, _ => none
  | _ + 1, _, [] => none
  | fuel + 1, acc, c :: cs =>
    if c = '"' then some (String.ofList acc.reverse, cs)
    else if c = '\\' then
      match cs with
      | 'u' :: cs =>
        match takeCodePoint cs with
        | some (c, rest) => takeString fuel (c :: acc) rest
        | none => none
      | e :: cs =>
        match unescape? e with
        | some c => takeString fuel (c :: acc) cs
        | none => none
      | [] => none
    else if c.toNat < 0x20 then none
    else takeString fuel (c :: acc) cs

/-- The characters that occur in numbers. -/
def isNumberChar (c : Char) : Bool :=
  c.isDigit || c = '-' || c = '+' || c = '.' || c = 'e' || c = 'E'

/-- The value of a number's text. -/
def numberOf (text : List Char) : Option Json :=
  let (negative, digits) :=
    match text with
    | '-' :: ds => (true, ds)
    | ds => (false, ds)
  let asFloat := (Number.readNumeral negative digits).bind fun n => n.nearest?.map Json.float
  match Number.readRadix 10 digits with
  | some n =>
    if negative then if 0 < n ∧ n ≤ Nat.pow 2 63 then some (.int (-(n : Int))) else asFloat
    else if n < Nat.pow 2 64 then some (.int n)
    else asFloat
  | none => asFloat

/-! ## Values -/

mutual

/-- Read a value at the front of a text. -/
def takeValue : Nat → List Char → Option (Json × List Char)
  | 0, _ => none
  | fuel + 1, cs =>
    match skipSpace cs with
    | 'n' :: 'u' :: 'l' :: 'l' :: rest => some (.null, rest)
    | 't' :: 'r' :: 'u' :: 'e' :: rest => some (.bool true, rest)
    | 'f' :: 'a' :: 'l' :: 's' :: 'e' :: rest => some (.bool false, rest)
    | '"' :: rest => (takeString (rest.length + 1) [] rest).map fun (s, rest) => (.str s, rest)
    | '[' :: rest =>
      match skipSpace rest with
      | ']' :: rest => some (.arr [], rest)
      | rest => (takeItems fuel rest).map fun (items, rest) => (.arr items, rest)
    | '{' :: rest =>
      match skipSpace rest with
      | '}' :: rest => some (.obj [], rest)
      | rest =>
        (takeFields fuel rest).map fun (fields, rest) =>
          (.ofMap (SortedMap.ofList fields), rest)
    | rest =>
      (numberOf (rest.takeWhile isNumberChar)).map fun v => (v, rest.dropWhile isNumberChar)

/-- Read items up to the closing bracket. -/
def takeItems : Nat → List Char → Option (List Json × List Char)
  | 0, _ => none
  | fuel + 1, cs =>
    match takeValue fuel cs with
    | none => none
    | some (v, rest) =>
      match skipSpace rest with
      | ']' :: rest => some ([v], rest)
      | ',' :: rest => (takeItems fuel rest).map fun (items, rest) => (v :: items, rest)
      | _ => none

/-- Read fields up to the closing brace. -/
def takeFields : Nat → List Char → Option (List (String × Json) × List Char)
  | 0, _ => none
  | fuel + 1, cs =>
    match skipSpace cs with
    | '"' :: rest =>
      match takeString (rest.length + 1) [] rest with
      | none => none
      | some (key, rest) =>
        match skipSpace rest with
        | ':' :: rest =>
          match takeValue fuel rest with
          | none => none
          | some (v, rest) =>
            match skipSpace rest with
            | '}' :: rest => some ([(key, v)], rest)
            | ',' :: rest =>
              (takeFields fuel rest).map fun (fields, rest) => ((key, v) :: fields, rest)
            | _ => none
        | _ => none
    | _ => none

end

/-- Read a whole text as one value. -/
def read? (s : String) : Option Json :=
  let cs := s.toList
  match takeValue (2 * cs.length + 1) cs with
  | some (v, rest) => if (skipSpace rest).isEmpty then some v else none
  | none => none

end RoutingRules.Json
