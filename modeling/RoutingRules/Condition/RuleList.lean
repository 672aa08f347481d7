import RoutingRules.Condition.Literal

/-!
# Rule lists

The kinds of lists that can be read into conditions.  A list comes as its lines without blanks
around them; every line becomes one condition, save that resolver configurations may hold lines
of other kinds, which are passed over.
-/

namespace RoutingRules.RuleList

/-- Read a line of a strict list: a condition that may look up addresses has to have a mark. -/
def strictLine (line : String) : Result Condition := do
  let condition ← Condition.ofLine none line
  if condition.kind.mayRequireResolution ∧ condition.mark? = none then
    throw (.unresolved line)
  else return condition

/-- Read a list of rules.  A strict list has no use for the default mark. -/
def classical (lines : List String) (default : Option Bool) (strict : Bool) :
    Result (List Condition) :=
  lines.mapM (if strict then strictLine else Condition.ofLine default)

/-- Read a list of rules of Quantumult X, which has no default mark. -/
def quantumult (lines : List String) : Result (List Condition) :=
  lines.mapM (Condition.ofLine none)

/-! ## Networks -/

/-- The kind of a line of a network list.  A dotted quad anywhere in the line makes it an IPv4
network, and the whole line has to be one then. -/
def networkKind (line : String) : Result Kind :=
  let cs := line.toList
  if Network.hasDottedQuad cs then
    if Network.isV4 cs then .ok .ipCidr else .error (.ambiguousFamily line)
  else if Network.isV6 cs then .ok .ipCidr6
  else .error (.ambiguousFamily line)

/-- Read a line of a network list. -/
def network (resolve : Bool) (line : String) : Result Condition := do
  let kind ← networkKind line
  Condition.make kind line (some resolve)

/-- Read a list of networks, all of which get the same mark. -/
def networks (lines : List String) (mark : Option Bool) : Result (List Condition) :=
  match mark with
  | none => .error (.unresolved "clash-ipcidr list")
  | some resolve => lines.mapM (network resolve)

/-! ## Domains -/

/-- Read a list of domains. -/
def domains (lines : List String) : Result (List Condition) :=
  lines.mapM Condition.ofDomainListItem

/-- The domain of a setting for the servers of a domain that starts at the front of a text. -/
def serverDomainHere (cs : List Char) : Option String :=
  match "server=/".toList.isPrefixOf? cs with
  | none => none
  | some rest =>
    let name := rest.takeWhile (· ≠ '/')
    if name ≠ [] ∧ (rest.dropWhile (· ≠ '/')) ≠ [] then some (String.ofList name) else none

/-- The domain of the first setting for the servers of a domain in a line. -/
def serverDomain : List Char → Option String
  | [] => none
  | c :: cs => (serverDomainHere (c :: cs)).or (serverDomain cs)

/-- Read the domains of a resolver configuration, each with everything below it. -/
def dnsmasq (lines : List String) : Result (List Condition) :=
  (lines.filterMap fun line => serverDomain line.toList).mapM fun name =>
    Condition.make .domainSuffix name none

end RoutingRules.RuleList
