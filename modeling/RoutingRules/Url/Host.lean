import RoutingRules.Url.Domain
import RoutingRules.Url.Part

/-!
# Hosts

The host of an address is a name or the number of a machine.  A name whose last label is a number
is the number of a machine in its shorter form, which has up to four numbers with dots between them;
the longer form is written in brackets.
-/

namespace RoutingRules.Url

/-- A host. -/
inductive Host where
  | name (text : String)
  /-- An address of 32 bits. -/
  | v4 (address : Nat)
  /-- An address of eight groups of 16 bits. -/
  | v6 (groups : List Nat)
deriving DecidableEq, Repr

namespace Host

/-- The host that is left out. -/
def absent : Host :=
  name ""

/-! ## Text -/

/-- The text of a group. -/
def groupText (n : Nat) : String :=
  String.ofList (Nat.toDigits 16 n)

/-- How many zeros a list starts with. -/
def zeros (groups : List Nat) : Nat :=
  (groups.takeWhile (· = 0)).length

/-- The first of the longest runs of zeros, with its length. -/
def longestRun (groups : List Nat) : Nat × Nat :=
  (List.range groups.length).foldl (fun best start =>
    let length := zeros (groups.drop start)
    if best.2 < length then (start, length) else best) (0, 0)

/-- The text of an address of eight groups.  Two colons stand for a run of zeros. -/
def groupsText (groups : List Nat) : String :=
  let (start, length) := longestRun groups
  let text := fun gs : List Nat => Text.joinWith ":" (gs.map groupText)
  if length < 2 then text groups
  else text (groups.take start) ++ "::" ++ text (groups.drop (start + length))

/-- The text of an address of 32 bits. -/
def addressText (address : Nat) : String :=
  let part := fun shift => Number.decimal (address / Nat.pow 2 shift % 256)
  Text.joinWith "." ([24, 16, 8, 0].map part)

/-- A host as text. -/
def text : Host → String
  | name text => text
  | v4 address => addressText address
  | v6 groups => "[" ++ groupsText groups ++ "]"

/-! ## Addresses of 32 bits -/

/-- Read a number of an address, which may be octal or hexadecimal. -/
def readNumber : List Char → Option Nat
  | '0' :: 'x' :: digits => if digits = [] then some 0 else Number.readRadix 16 digits
  | '0' :: d :: digits => Number.readRadix 8 (d :: digits)
  | digits => Number.readRadix 10 digits

/-- The address of numbers; the last one fills up what the others leave. -/
def ofNumbers (numbers : List Nat) : Option Host :=
  match numbers.reverse with
  | last :: others =>
    let high := others.foldr (fun n acc => acc * 256 + n) 0
    let low := Nat.pow 256 (4 - others.length)
    if others.length ≤ 3 ∧ others.all (· < 256) ∧ last < low then some (v4 (high * low + last))
    else none
  | [] => none

/-- The labels of a name without the empty one at its end. -/
def labels (cs : List Char) : List (List Char) :=
  let all := Text.splitOn '.' cs
  if all.length > 1 ∧ all.getLast? = some [] then all.dropLast else all

/-- Whether a label is a number, or at least made of digits. -/
def isNumber (label : List Char) : Bool :=
  (label ≠ [] && label.all Char.isDigit) || (readNumber label).isSome

/-- The host with a name. -/
def ofName (cs : List Char) : Option Host :=
  if cs = [] then none
  else if (labels cs).getLast?.any isNumber then ((labels cs).mapM readNumber).bind ofNumbers
  else some (name (String.ofList cs))

/-! ## Addresses of eight groups -/

/-- Read a number of the last two groups when they are written with dots: without zeros in front. -/
def readOctet (cs : List Char) : Option Nat :=
  if cs.length > 1 ∧ cs.head? = some '0' then none
  else (Number.readRadix 10 cs).filter (· < 256)

/-- Read the last two groups written with dots. -/
def readDotted (cs : List Char) : Option (List Nat) := do
  match ← (Text.splitOn '.' cs).mapM readOctet with
  | [a, b, c, d] => return [a * 256 + b, c * 256 + d]
  | _ => none

/-- Read a group. -/
def readGroup (cs : List Char) : Option Nat :=
  if cs.length ≤ 4 then Number.readRadix 16 cs else none

/-- Read groups; those at the end of the address may be written with dots. -/
def readGroups (last : Bool) : List (List Char) → Option (List Nat)
  | [] => some []
  | [cs] => if last && cs.contains '.' then readDotted cs else (readGroup cs).map ([·])
  | cs :: rest => do
    let group ← readGroup cs
    let groups ← readGroups last rest
    return group :: groups

/-- Read the groups on one side of two colons. -/
def readSide (last : Bool) (cs : List Char) : Option (List Nat) :=
  if cs = [] then some [] else readGroups last (Text.splitOn ':' cs)

/-- The texts before and after the first two colons. -/
def splitColons : List Char → Option (List Char × List Char)
  | [] => none
  | ':' :: ':' :: rest => some ([], rest)
  | c :: rest => (splitColons rest).map fun (before, after) => (c :: before, after)

/-- Read the eight groups of an address; two colons stand for one zero or more. -/
def readAddress (cs : List Char) : Option (List Nat) :=
  match splitColons cs with
  | some (before, after) => do
    let front ← readSide false before
    let back ← readSide true after
    if front.length + back.length ≤ 7 then
      return front ++ List.replicate (8 - front.length - back.length) 0 ++ back
    else none
  | none => (readGroups true (Text.splitOn ':' cs)).filter fun groups => groups.length = 8

/-! ## Reading -/

/-- Whether a character may not occur in the name of a host that is no server. -/
def isForbidden (c : Char) : Bool :=
  "\x00\t\n\r #/:<>?@[\\]^|".toList.contains c

/-- Read a host.  The hosts of servers are domains, and those of other addresses any names. -/
def read? (served : Bool) (cs : List Char) : Option Host :=
  match cs with
  | '[' :: rest =>
    if rest.getLast? = some ']' then (readAddress rest.dropLast).map v6 else none
  | _ =>
    if served then (Domain.read? cs).bind ofName
    else if cs.any isForbidden then none
    else some (name (String.ofList (Part.plain.escaped cs)))

end Host

end RoutingRules.Url
