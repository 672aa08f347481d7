import RoutingRules.Client

/-!
# Kinds of conditions

A condition of a routing rule has a kind, which says what it looks at.  Each client has words of
its own for the kinds it knows.
-/

namespace RoutingRules

/-- What a condition looks at. -/
inductive Kind where
  /-- The name of the process that opens the connection. -/
  | processName
  /-- The package of the application that opens the connection. -/
  | packageName
  /-- One domain. -/
  | domain
  /-- A domain and everything below it. -/
  | domainSuffix
  /-- A text within the domain. -/
  | domainKeyword
  /-- A regular expression over the domain. -/
  | domainRegex
  /-- A pattern with wildcards over the domain. -/
  | domainWildcard
  /-- An entry of a domain list, which is an exact domain, a suffix or a pattern. -/
  | domainListItem
  /-- The country of the address. -/
  | geoIp
  /-- An IPv4 network. -/
  | ipCidr
  /-- An IPv6 network. -/
  | ipCidr6
  /-- A network of the source address. -/
  | srcIpCidr
  /-- Source ports. -/
  | srcPort
  /-- Destination ports. -/
  | dstPort
  /-- The user agent of a web request. -/
  | userAgent
  /-- Every connection. -/
  | matchAll
deriving DecidableEq, Repr

namespace Kind

/-- All kinds, in the order in which they claim their spellings. -/
def all : List Kind :=
  [.processName, .packageName, .domain, .domainSuffix, .domainKeyword, .domainRegex,
   .domainWildcard, .domainListItem, .geoIp, .ipCidr, .ipCidr6, .srcIpCidr, .srcPort, .dstPort,
   .userAgent, .matchAll]

/-- The name of a kind in messages. -/
def name : Kind → String
  | .processName => "ProcessName"
  | .packageName => "PackageName"
  | .domain => "Domain"
  | .domainSuffix => "DomainSuffix"
  | .domainKeyword => "DomainKeyword"
  | .domainRegex => "DomainRegex"
  | .domainWildcard => "DomainWildcard"
  | .domainListItem => "DomainListItem"
  | .geoIp => "GeoIp"
  | .ipCidr => "IpCidr"
  | .ipCidr6 => "IpCidr6"
  | .srcIpCidr => "SrcIpCidr"
  | .srcPort => "SrcPort"
  | .dstPort => "DstPort"
  | .userAgent => "UserAgent"
  | .matchAll => "Match"

/-! ## Spellings -/

/-- The word of Clash for a kind. -/
def clash : Kind → Option String
  | .processName => some "PROCESS-NAME"
  | .packageName => none
  | .domain => some "DOMAIN"
  | .domainSuffix => some "DOMAIN-SUFFIX"
  | .domainKeyword => some "DOMAIN-KEYWORD"
  | .domainRegex => some "DOMAIN-REGEX"
  | .domainWildcard => some "DOMAIN-WILDCARD"
  | .domainListItem => none
  | .geoIp => some "GEOIP"
  | .ipCidr => some "IP-CIDR"
  | .ipCidr6 => some "IP-CIDR6"
  | .srcIpCidr => some "SRC-IP-CIDR"
  | .srcPort => some "SRC-PORT"
  | .dstPort => some "DST-PORT"
  | .userAgent => none
  | .matchAll => some "MATCH"

/-- The word of Quantumult X for a kind. -/
def quantumult : Kind → Option String
  | .domain => some "host"
  | .domainSuffix => some "host-suffix"
  | .domainKeyword => some "host-keyword"
  | .domainWildcard => some "host-wildcard"
  | .geoIp => some "geoip"
  | .ipCidr => some "ip-cidr"
  | .ipCidr6 => some "ip6-cidr"
  | .userAgent => some "user-agent"
  | .matchAll => some "final"
  | _ => none

/-- The rule field of sing-box for a kind.  Both address families share a field, and so do
patterns and regular expressions over domains. -/
def singBox : Kind → Option String
  | .processName => some "process_name"
  | .packageName => some "package_name"
  | .domain => some "domain"
  | .domainSuffix => some "domain_suffix"
  | .domainKeyword => some "domain_keyword"
  | .domainRegex => some "domain_regex"
  | .domainWildcard => some "domain_regex"
  | .ipCidr => some "ip_cidr"
  | .ipCidr6 => some "ip_cidr"
  | .srcIpCidr => some "source_ip_cidr"
  | .srcPort => some "source_port"
  | .dstPort => some "port"
  | .domainListItem => none
  | .geoIp => none
  | .userAgent => none
  | .matchAll => none

/-- The word of a client for a kind, if the client knows the kind. -/
def spelling (kind : Kind) : Client → Option String
  | .clash => kind.clash
  | .quantumult => kind.quantumult
  | .singBox => kind.singBox

/-- The words of all clients for a kind. -/
def spellings (kind : Kind) : List String :=
  Client.all.filterMap kind.spelling

/-! ## Properties -/

/-- Whether a condition of this kind may need the address of a domain to be looked up. -/
def mayRequireResolution : Kind → Bool
  | .geoIp | .ipCidr | .ipCidr6 | .matchAll => true
  | _ => false

/-- Whether the kind looks at the process behind the connection. -/
def isProcess : Kind → Bool
  | .processName | .packageName => true
  | _ => false

/-- Whether conditions of this kind can decide about a name query. -/
def isDnsCompatible : Kind → Bool
  | .domain | .domainSuffix | .domainKeyword | .domainRegex | .domainWildcard | .domainListItem
  | .processName => true
  | _ => false

/-- Whether conditions of this kind carry a value. -/
def hasValue (kind : Kind) : Bool :=
  kind ≠ .matchAll

end Kind

end RoutingRules
