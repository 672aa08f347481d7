import RoutingRules.Yaml.Tag

/-!
# Tokens of YAML documents
-/

namespace RoutingRules.Yaml

/-- How a scalar is written. -/
inductive ScalarStyle where
  | plain
  | singleQuoted
  | doubleQuoted
  | literal
  | folded
deriving DecidableEq, Repr

/-- A token of a document.  The starts and ends of block collections, which no character marks,
have tokens of their own. -/
inductive Token where
  | version (major minor : Nat)
  | tagHandle (handle : String) (front : List UInt8)
  | documentStart
  | documentEnd
  | blockSequenceStart
  | blockMappingStart
  | blockEnd
  | flowSequenceStart
  | flowSequenceEnd
  | flowMappingStart
  | flowMappingEnd
  /-- The hyphen in front of an item. -/
  | blockEntry
  /-- The comma between items. -/
  | flowEntry
  | key
  | value
  | reference (name : String)
  | anchor (name : String)
  /-- A tag, whose handle is empty if the suffix is the whole tag. -/
  | tag (handle : String) (suffix : List UInt8)
  | scalar (style : ScalarStyle) (text : String)
  /-- The end of the stream of documents. -/
  | streamEnd
deriving DecidableEq, Repr

end RoutingRules.Yaml
