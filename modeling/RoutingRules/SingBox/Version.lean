import RoutingRules.Error
import RoutingRules.Text.Digit
import RoutingRules.Text.Split

/-!
# Versions of the tool
-/

namespace RoutingRules.SingBox

/-- A version of the tool. -/
structure Version where
  major : Nat
  minor : Nat
  patch : Nat
deriving DecidableEq, Repr

namespace Version

/-- What stands in front of a version in the answer of the tool. -/
def announcement : String :=
  "sing-box version "

/-- Take digits of any script off the front of a text; there has to be one at least. -/
def takeDigits (cs : List Char) : Option (List Char × List Char) :=
  let digits := cs.takeWhile Text.isDecimalDigit
  if digits = [] then none else some (digits, cs.dropWhile Text.isDecimalDigit)

/-- Take a dot and the digits behind it. -/
def takePart : List Char → Option (List Char × List Char)
  | '.' :: cs => takeDigits cs
  | _ => none

/-- The digits of a version that is announced at the front of a text. -/
def announcedHere (cs : List Char) : Option (List Char × List Char × List Char) := do
  let (major, cs) ← (announcement.toList.isPrefixOf? cs).bind takeDigits
  let (minor, cs) ← takePart cs
  let (patch, _) ← takePart cs
  return (major, minor, patch)

/-- The digits of the first version that is announced in a text. -/
def announced : List Char → Option (List Char × List Char × List Char)
  | [] => none
  | c :: cs => (announcedHere (c :: cs)).or (announced cs)

/-- Read a number of 32 bits.  Digits other than the common ones are not read. -/
def readNumber (digits : List Char) : Result Nat :=
  match Number.readAtMost (Nat.pow 2 32 - 1) digits with
  | .ok n => .ok n
  | .error fault => .error (.tool (.invalidVersionNumber (String.ofList digits) fault))

/-- Read the answer of the tool to the question for its version. -/
def ofAnswer (answer : String) : Result Version := do
  match announced answer.toList with
  | none => throw (.tool (.unrecognizedVersion ((Text.lines answer).headD "")))
  | some (major, minor, patch) =>
    return ⟨← readNumber major, ← readNumber minor, ← readNumber patch⟩

/-- The version of the format of rule sets that the tool reads. -/
def format (v : Version) : Nat :=
  if v.major = 0 then 1
  else if v.major = 1 then
    if v.minor < 10 then 1 else if v.minor = 10 then 2 else 3
  else 3

end Version

end RoutingRules.SingBox
