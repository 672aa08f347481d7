import RoutingRules.Error
import RoutingRules.Network
import RoutingRules.Text.Blank
import RoutingRules.Text.Case
import RoutingRules.Text.Split

/-!
# Registry of spellings

Finds the kind that a word stands for.  Words are compared without regard to letter case, to
blanks around them, and to the hyphens and underscores that separate their parts.  When several
kinds share a spelling, the kind that was registered first keeps it.
-/

namespace RoutingRules

namespace Kind

/-- The form in which words are compared: their parts in lowercase with one space between. -/
def spellingKey (token : String) : String :=
  let cs := Text.lower (Text.trimChars token.toList)
  let parts := Text.splitWhere (fun c => c = '-' || c = '_') cs
  Text.joinWith " " ((parts.filter fun part => !part.isEmpty).map String.ofList)

end Kind

/-- The spellings registered so far, each with its kind, in the order of registration. -/
structure Registry where
  entries : List (String × Kind)
deriving DecidableEq, Repr

namespace Registry

/-- The registry without spellings. -/
def empty : Registry :=
  ⟨[]⟩

/-- The kind registered under a key. -/
def find? (registry : Registry) (key : String) : Option Kind :=
  (registry.entries.find? fun entry => entry.1 = key).map Prod.snd

/-- Give a key to a kind unless the key is taken. -/
def claim (registry : Registry) (key : String) (kind : Kind) : Registry :=
  if (registry.find? key).isSome then registry
  else ⟨registry.entries ++ [(key, kind)]⟩

/-- Register all spellings of a kind. -/
def register (registry : Registry) (kind : Kind) : Registry :=
  (kind.spellings.map Kind.spellingKey).foldl (fun r key => r.claim key kind) registry

/-- The kind of a word. -/
def lookup (registry : Registry) (token : String) : Result Kind :=
  match registry.find? (Kind.spellingKey token) with
  | some kind => .ok kind
  | none => .error (.unknownKind token)

/-- Whether a word has a kind. -/
def contains (registry : Registry) (token : String) : Bool :=
  (registry.find? (Kind.spellingKey token)).isSome

/-- The registry of all kinds. -/
def standard : Registry :=
  Kind.all.foldl register empty

end Registry

namespace Kind

/-- The kind of a word in the registry of all kinds. -/
def lookup (token : String) : Result Kind :=
  Registry.standard.lookup token

/-- The field of sing-box for networks names both families; its value tells which one is meant.
The word in front of the value decides whether that field was written. -/
def refine (kind : Kind) (token value : String) : Kind :=
  if kind = .ipCidr ∧ Text.sameAsciiWord (Text.trim token) "ip_cidr" ∧
      Network.isV6 (Text.trimChars value.toList) then .ipCidr6
  else kind

/-- Whether a field of a sing-box rule holds conditions.  Port ranges have fields of their own
besides the registered ones. -/
def isConditionField (key : String) : Bool :=
  key = "port_range" || key = "source_port_range" || Registry.standard.contains key

end Kind

end RoutingRules
