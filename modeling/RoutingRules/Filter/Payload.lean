import RoutingRules.Filter
import RoutingRules.Text.Blank
import RoutingRules.Text.Split
import RoutingRules.Yaml.Value.OfNode

/-!
# Lines of remote lists

Cuts a fetched document into the lines of a rule list, without the blanks around them.
-/

namespace RoutingRules.Filter

/-! ## Text -/

/-- What comments start with. -/
def commentStarts : List String :=
  ["#", ";", "//"]

/-- Whether a line is a comment. -/
def isComment (line : String) : Bool :=
  commentStarts.any fun start => (Text.dropFront? start line).isSome

/-- The lines of a text that are neither empty nor comments. -/
def textLines (text : String) : List String :=
  ((Text.lines text).map Text.trim).filter fun line => line ≠ "" && !isComment line

/-! ## Documents -/

/-- A value without the tags in front of it. -/
def bare : Yaml → Yaml
  | .tagged _ value => bare value
  | value => value

/-- The line of an entry of a list. -/
def payloadLine (entry : Yaml) : Result String :=
  match entry.scalarText? with
  | some text => .ok (Text.trim text)
  | none => .error (.parse .payloadEntryNotText)

/-- The entries of the list in a document. -/
def payloadLines (text : String) : Result (List String) :=
  match Yaml.read? text with
  | none => .error .yaml
  | some document =>
    match ((bare document).valueAt? "payload").bind fun v => (bare v).toItems? with
    | none => .error (.parse .payloadMissing)
    | some entries => entries.mapM payloadLine

/-- The lines of a document. -/
def Layout.lines : Layout → String → Result (List String)
  | .yaml, document => payloadLines document
  | .text, document => .ok (textLines document)

end RoutingRules.Filter
