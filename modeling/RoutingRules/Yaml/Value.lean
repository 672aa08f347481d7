import RoutingRules.Json.Value
import RoutingRules.Number.Text

/-!
# YAML values

The data of a YAML document once scalars have their types.  Mappings keep the order of their
entries, and their keys can be any values.
-/

namespace RoutingRules

/-- A floating-point number with the values that are no finite numbers. -/
inductive Yaml.Real where
  | finite (value : Number.Binary64)
  | infinite (negative : Bool)
  | notANumber
deriving DecidableEq, Repr

/-- A YAML value. -/
inductive Yaml where
  | null
  | bool (value : Bool)
  | int (value : Int)
  | real (value : Yaml.Real)
  | str (text : String)
  | seq (items : List Yaml)
  | map (entries : List (Yaml × Yaml))
  /-- A value with a tag of the application, in the form in which names are compared. -/
  | tagged (tag : String) (value : Yaml)
deriving Inhabited

namespace Yaml

/-! ## Equality -/

/-- Equality of floating-point numbers as keys: both zeros are one key, and so is what is no
number. -/
def Real.same : Real → Real → Bool
  | .finite a, .finite b => a = b || (a.mantissa = 0 && b.mantissa = 0)
  | x, y => x = y

mutual

/-- Equality of values. -/
def same : Yaml → Yaml → Bool
  | .null, .null => true
  | .bool a, .bool b => a = b
  | .int a, .int b => a = b
  | .real a, .real b => a.same b
  | .str a, .str b => a = b
  | .seq xs, .seq ys => sameItems xs ys
  | .map es, .map fs => sameEntries es fs
  | .tagged s v, .tagged t w => s = t && same v w
  | _, _ => false

/-- Equality of lists of values. -/
def sameItems : List Yaml → List Yaml → Bool
  | [], [] => true
  | x :: xs, y :: ys => same x y && sameItems xs ys
  | _, _ => false

/-- Equality of entry lists. -/
def sameEntries : List (Yaml × Yaml) → List (Yaml × Yaml) → Bool
  | [], [] => true
  | (k, v) :: es, (l, w) :: fs => same k l && same v w && sameEntries es fs
  | _, _ => false

end

/-! ## Scalars as text -/

/-- Exponents carry no plus sign. -/
def exponentStyle : Number.ExponentStyle :=
  .bare

/-- The text of a floating-point number. -/
def Real.text : Real → String
  | .finite x => x.render exponentStyle
  | .infinite true => "-.inf"
  | .infinite false => ".inf"
  | .notANumber => ".nan"

/-- The text of a truth value. -/
def boolText (b : Bool) : String :=
  if b then "true" else "false"

/-- The text of a value that is a single word: texts as they are, numbers and truth values. -/
def scalarText? : Yaml → Option String
  | .str text => some text
  | .int i => some (Number.decimalInt i)
  | .real x => some x.text
  | .bool b => some (boolText b)
  | _ => none

/-! ## Access -/

/-- The value of a text key of a mapping. -/
def valueAt? (key : String) : Yaml → Option Yaml
  | .map entries => (entries.find? fun e => e.1.same (.str key)).map Prod.snd
  | _ => none

/-- The items of a sequence. -/
def toItems? : Yaml → Option (List Yaml)
  | .seq items => some items
  | _ => none

/-! ## Entries -/

/-- Drop the entry of a text key.  The last entry takes its place. -/
def eraseKey (key : String) (entries : List (Yaml × Yaml)) : List (Yaml × Yaml) :=
  let other := fun e : Yaml × Yaml => !e.1.same (.str key)
  let before := entries.takeWhile other
  let behind := (entries.dropWhile other).tail
  before ++ behind.getLast?.toList ++ behind.dropLast

/-- Whether a text key has an entry. -/
def hasKey (key : String) (entries : List (Yaml × Yaml)) : Bool :=
  entries.any fun e => e.1.same (.str key)

/-- Whether the keys of entries are distinct. -/
def keysDiffer : List (Yaml × Yaml) → Bool
  | [] => true
  | (k, _) :: rest => rest.all (fun e => !e.1.same k) && keysDiffer rest

mutual

/-- Whether the keys of all mappings within a value are distinct. -/
def distinctKeys : Yaml → Bool
  | .seq items => distinctKeysOfItems items
  | .map entries => keysDiffer entries && distinctKeysOfEntries entries
  | .tagged _ value => distinctKeys value
  | _ => true

/-- Whether the keys of all mappings within items are distinct. -/
def distinctKeysOfItems : List Yaml → Bool
  | [] => true
  | item :: items => distinctKeys item && distinctKeysOfItems items

/-- Whether the keys of all mappings within entries are distinct. -/
def distinctKeysOfEntries : List (Yaml × Yaml) → Bool
  | [] => true
  | (key, value) :: entries =>
    distinctKeys key && distinctKeys value && distinctKeysOfEntries entries

end

mutual

/-- Whether no value within a value has an application tag. -/
def untagged : Yaml → Bool
  | .seq items => untaggedItems items
  | .map entries => untaggedEntries entries
  | .tagged _ _ => false
  | _ => true

/-- Whether no value within items has an application tag. -/
def untaggedItems : List Yaml → Bool
  | [] => true
  | item :: items => untagged item && untaggedItems items

/-- Whether no value within entries has an application tag. -/
def untaggedEntries : List (Yaml × Yaml) → Bool
  | [] => true
  | (key, value) :: entries => untagged key && untagged value && untaggedEntries entries

end

end Yaml

end RoutingRules
