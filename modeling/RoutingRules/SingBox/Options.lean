import RoutingRules.Kind.Registry
import RoutingRules.SingBox.Extraction

/-!
# Options for sing-box
-/

namespace RoutingRules.SingBox

/-- Whether and how large rules become rule sets. -/
structure RuleSetOptions where
  enabled : Bool
  minSize : Nat
  baseUrl : String
  detour : Option String
  binary : String
  directory : String
deriving DecidableEq, Repr

/-- The options that count unless others are set. -/
def RuleSetOptions.standard : RuleSetOptions :=
  { enabled := false
    minSize := defaultMinSize
    baseUrl := ""
    detour := none
    binary := "sing-box"
    directory := "rule-set" }

/-- How a configuration of sing-box is made. -/
structure Options where
  /-- The spellings of the kinds of conditions on processes that are kept. -/
  includedKinds : Option (List String)
  /-- How conditions on processes are joined with the others. -/
  mode : Mode
  /-- Whether conditions on destination addresses come last. -/
  splitAddress : Bool
  ruleSet : RuleSetOptions
deriving DecidableEq, Repr

namespace Options

/-- The options that count unless others are set. -/
def standard : Options :=
  { includedKinds := none
    mode := .or
    splitAddress := false
    ruleSet := .standard }

/-- The kinds of conditions on processes that are kept, if any were asked for. -/
def kinds (options : Options) : Result (Option (List Kind)) :=
  match options.includedKinds with
  | none => .ok none
  | some tokens => (tokens.mapM Kind.lookup).map some

end Options

end RoutingRules.SingBox
