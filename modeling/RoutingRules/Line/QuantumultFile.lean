import RoutingRules.Notice
import RoutingRules.Text.Split
import RoutingRules.Yaml.Value

/-!
# Configuration files of Quantumult X

A file has sections.  The options of a target give sections as they are written: a mapping as one
setting a line, a list as its lines, anything else as a section without lines.  The lines of the
rules make up the section `filter_local`, and sections that have to be there follow empty.
-/

namespace RoutingRules

/-- A section of a configuration file. -/
structure QuantumultFile.Section where
  name : String
  lines : List String
deriving DecidableEq, Repr

namespace QuantumultFile

/-- The section of the rules. -/
def filterLocal : String :=
  "filter_local"

/-- The sections that have to be there, in the order in which they are added. -/
def mandatory : List String :=
  ["general", "dns", "policy", "server_local", "server_remote", "filter_local", "filter_remote",
   "rewrite_local", "rewrite_remote", "task_local", "mitm"]

/-! ## Sections of the options -/

/-- A value as a word; a value that is no word is left empty. -/
def word (value : Yaml) : String :=
  value.scalarText?.getD ""

/-- The value of a setting: a word, or the words of a list with commas between. -/
def settingValue : Yaml → String
  | .seq items => Text.joinWith "," (items.filterMap Yaml.scalarText?)
  | value => word value

/-- The lines of a section. -/
def sectionLines : Yaml → List String
  | .map entries => entries.map fun (key, value) => word key ++ "=" ++ settingValue value
  | .seq items => items.filterMap Yaml.scalarText?
  | _ => []

/-- The sections that the options give; the section of the rules is not up to them. -/
def givenSections (options : List (Yaml × Yaml)) : List Section :=
  (options.filter fun e => word e.1 ≠ filterLocal).map fun e => ⟨word e.1, sectionLines e.2⟩

/-! ## Files -/

/-- The sections of a file. -/
def sections (options : List (Yaml × Yaml)) (lines : List String) : List Section :=
  let given := givenSections options ++ [⟨filterLocal, lines⟩]
  let names := given.map Section.name
  given ++ (mandatory.filter fun name => name ∉ names).map fun name => ⟨name, []⟩

/-- A section as text. -/
def Section.text (s : Section) : String :=
  let lines := ("[" ++ s.name ++ "]") :: s.lines
  String.join (lines.map (· ++ "\n"))

/-- The text of the file. -/
def content (options : List (Yaml × Yaml)) (header : String) (lines : List String) : String :=
  header ++ "\n" ++ String.join ((sections options lines).map Section.text)

/-- The notices about the options. -/
def notices (options : List (Yaml × Yaml)) : List Notice :=
  options.filterMap fun e =>
    if word e.1 = filterLocal then some .filterLocalOverwritten else none

end QuantumultFile

end RoutingRules
