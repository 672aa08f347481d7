import RoutingRules.Condition.DomainPattern
import RoutingRules.Condition.Port
import RoutingRules.Kind.Registry

/-!
# Conditions

A condition is what a routing rule asks of a connection, independent of any client.  Conditions
that look at addresses can be marked: the mark says whether the address of a domain is looked up
in order to decide the condition.

Conditions are built by `Condition.make`, which brings the value into its canonical form, or
are `Condition.always`.
-/

namespace RoutingRules

/-- A condition on a connection. -/
inductive Condition where
  /-- Every connection. -/
  | always
  /-- A test of one kind against a value, with an optional resolution mark. -/
  | on (kind : Kind) (value : String) (mark : Option Bool)
deriving DecidableEq, Repr

namespace Condition

/-! ## Parts -/

/-- The kind of a condition. -/
def kind : Condition → Kind
  | always => .matchAll
  | on kind _ _ => kind

/-- The value of a condition. -/
def value? : Condition → Option String
  | always => none
  | on _ value _ => some value

/-- The resolution mark.  The condition that holds always comes last in every configuration, as if
it had to look up addresses. -/
def mark? : Condition → Option Bool
  | always => some true
  | on _ _ mark => mark

/-- Change the resolution mark. -/
def setMark (mark : Option Bool) : Condition → Condition
  | always => always
  | on kind value _ => on kind value mark

/-- Whether the address of a domain is looked up to decide the condition. -/
def requiresResolution (c : Condition) : Bool :=
  c.kind.mayRequireResolution && c.mark? = some true

/-- What two conditions share when they are duplicates of each other: all but the mark. -/
def test (c : Condition) : Kind × Option String :=
  (c.kind, c.value?)

/-- Whether two conditions are duplicates of each other. -/
def sameTest (c d : Condition) : Bool :=
  c.test = d.test

/-- The word for a condition that is decided without looking up addresses. -/
def noResolve : String :=
  "no-resolve"

/-- A condition in messages. -/
def text (c : Condition) : String :=
  let value := match c.value? with
    | some value => "," ++ value
    | none => ""
  let mark :=
    if c.kind.mayRequireResolution ∧ c.mark? = some false then "," ++ noResolve else ""
  c.kind.name ++ value ++ mark

/-! ## Construction -/

/-- The canonical form of a value that has no blanks around it. -/
def canonicalValue (kind : Kind) (value : String) : Result String :=
  match kind with
  | .ipCidr =>
    if Network.isV4 value.toList then .ok value else .error (.wrongFamily value "IPv4")
  | .ipCidr6 =>
    if Network.isV6 value.toList then .ok value else .error (.wrongFamily value "IPv6")
  | .srcIpCidr =>
    if Network.isAny value.toList then .ok value else .error (.parse (.invalidNetwork value))
  | .srcPort | .dstPort => Port.canonical value
  | _ => .ok value

/-- The condition of a kind and a value. -/
def make (kind : Kind) (text : String) (mark : Option Bool) : Result Condition :=
  if kind = .matchAll then .error (.parse .valueNotTaken)
  else
    let value := Text.trim text
    if value = "" then .error (.parse (.valueRequired kind))
    else (canonicalValue kind value).map fun value => on kind value mark

/-- The condition of an entry of a domain list. -/
def ofDomainListItem (entry : String) : Result Condition :=
  make .domainListItem entry none

/-! ## Fields of a line -/

/-- The kind and the value under which an entry of a domain list is written. -/
def decomposed (entry : String) : Kind × String :=
  match DomainPattern.read entry with
  | .suffix name => (.domainSuffix, name)
  | .wildcard pattern => (.domainWildcard, DomainPattern.starred pattern)
  | .exact domain => (.domain, domain)

/-- The kind and the value under which a condition is written. -/
def written : Condition → Kind × Option String
  | always => (.matchAll, none)
  | on .domainListItem entry _ =>
    let (kind, value) := decomposed entry
    (kind, some value)
  | on kind value _ => (kind, some value)

/-- The resolution mark as the last field of a line, if the kind takes one. -/
def markField (c : Condition) : Result (List String) :=
  if c.kind.mayRequireResolution ∧ c.kind ≠ .matchAll then
    match c.mark? with
    | none => .error (.unresolved c.text)
    | some false => .ok [noResolve]
    | some true => .ok []
  else .ok []

/-- The fields of a line that writes the condition for a client: the spelling of its kind, its
value and its resolution mark. -/
def lineFields (c : Condition) (client : Client) : Result (List String) :=
  let (kind, value) := c.written
  match kind.spelling client with
  | none => .error (.unsupported c.kind client)
  | some spelling => c.markField.map fun mark => spelling :: value.toList ++ mark

/-- The line that writes a condition for a client. -/
def line (c : Condition) (client : Client) : Result String :=
  (c.lineFields client).map (Text.joinWith ",")

/-! ## Field of a rule object -/

/-- The field of a sing-box rule that holds an entry of a domain list. -/
def domainItemField (entry : String) : String × Json :=
  match DomainPattern.read entry with
  | .suffix name => ("domain_suffix", .str name)
  | .wildcard pattern => ("domain_regex", .str (DomainPattern.regex pattern))
  | .exact domain => ("domain", .str domain)

/-- The field of a sing-box rule that holds a condition. -/
def singBoxField (c : Condition) : Result (String × Json) :=
  let value := c.value?.getD ""
  match c.kind with
  | .domainListItem => .ok (domainItemField value)
  | .domainWildcard => .ok ("domain_regex", .str (DomainPattern.regex value))
  | .dstPort => Port.singBoxField "port" "port_range" value
  | .srcPort => Port.singBoxField "source_port" "source_port_range" value
  | kind =>
    match kind.singBox with
    | some field => .ok (field, .str value)
    | none => .error (.unsupported kind .singBox)

end Condition

end RoutingRules
