import RoutingRules.Error
import RoutingRules.Notice
import RoutingRules.Yaml.Print

/-!
# Configuration files of Clash

The options of a target as a YAML document, with the lines of the rules under the key `rules`.
-/

namespace RoutingRules.ClashFile

/-- The key of the rules. -/
def rulesKey : String :=
  "rules"

/-- The entries of the document: the options without rules of their own, and the rules. -/
def entries (options : List (Yaml × Yaml)) (lines : List String) : List (Yaml × Yaml) :=
  Yaml.eraseKey rulesKey options ++ [(.str rulesKey, .seq (lines.map .str))]

/-- The text of the file, unless the options cannot be written. -/
def content (options : List (Yaml × Yaml)) (header : String) (lines : List String) :
    Result String :=
  match Yaml.Print.document? (entries options lines) with
  | some document => .ok (header ++ "\n" ++ document)
  | none => .error .yaml

/-- The notices about the options. -/
def notices (options : List (Yaml × Yaml)) : List Notice :=
  if Yaml.hasKey rulesKey options then [.rulesOverwritten] else []

end RoutingRules.ClashFile
