import RoutingRules.Text.Octets

/-!
# Tags of YAML nodes

A tag is kept in octets, since its escapes can give octets that are no text.  Standard tags are
compared by their octets.  A tag that starts with an exclamation mark belongs to the application;
its name has to be a text to count.
-/

namespace RoutingRules.Yaml

/-- A tag whose handle has been replaced by what the handle stands for. -/
structure Tag where
  octets : List UInt8
deriving DecidableEq, Repr

namespace Tag

/-- What octets of a tag count: those in front of the first zero. -/
def counted (octets : List UInt8) : List UInt8 :=
  octets.takeWhile (· ≠ 0)

/-- The octets of an exclamation mark. -/
def mark : List UInt8 :=
  Text.octets "!"

/-- A tag from the namespace of the standard tags. -/
def standard (name : String) : Tag :=
  ⟨Text.octets ("tag:yaml.org,2002:" ++ name)⟩

/-- Whether a tag belongs to the application. -/
def isLocal (tag : Tag) : Bool :=
  mark.isPrefixOf tag.octets

/-- The name of a tag of the application.  An exclamation mark alone is a name of its own. -/
def localName? (tag : Tag) : Option String :=
  if tag.isLocal then
    let name := if tag.octets = mark then mark else tag.octets.drop mark.length
    Text.ofOctets? name
  else none

/-- The form in which names of tags are compared: one more exclamation mark in front of a name does
not count. -/
def essential (name : String) : String :=
  match name.toList with
  | ['!'] => name
  | '!' :: rest => String.ofList rest
  | _ => name

end Tag

end RoutingRules.Yaml
