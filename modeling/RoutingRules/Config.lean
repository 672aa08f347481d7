import RoutingRules.Destination
import RoutingRules.Filter
import RoutingRules.SingBox.Options
import RoutingRules.Yaml.Decode

/-!
# Configurations of runs

A configuration lists the names of destinations, the rules with their filters, and the targets
that are written.
-/

namespace RoutingRules

/-- The filters of a destination. -/
structure Config.Rule where
  destination : Destination
  filters : List Filter

/-- A file that is written for a client. -/
structure Config.Target where
  name : String
  client : Client
  /-- The name of the file, if it is not made from the name of the target. -/
  file : Option String
  /-- New names of destinations. -/
  renames : SortedMap String
  /-- What the file holds besides the rules. -/
  options : List (Yaml × Yaml)
  singBox : SingBox.Options

/-- What a run does. -/
structure Config where
  destinations : List String
  rules : List Config.Rule
  targets : List Config.Target

namespace Config

/-! ## Targets -/

/-- The group of Quantumult X that stands for the standard proxy. -/
def quantumultProxy : String :=
  "PROXY-PER-REGION"

/-- The new names of destinations, with those that the client asks for. -/
def Target.effectiveRenames (t : Target) : SortedMap String :=
  if t.client = .quantumult ∧ (t.renames.get? "PROXY").isNone then
    t.renames.insert "PROXY" quantumultProxy
  else t.renames

/-! ## Reading -/

open Yaml.Decode

/-- The fields of how rule sets are made. -/
def ruleSetFields : Record :=
  Record.whole ["enabled", "min_size", "base_url", "download_detour", "binary", "dir"]

/-- Read how rule sets are made. -/
def readRuleSet (node : Yaml.Expanded) : Option SingBox.RuleSetOptions := do
  let standard := SingBox.RuleSetOptions.standard
  let fs ← fields ruleSetFields node
  return {
    enabled := ← fs.getOr "enabled" truth standard.enabled
    minSize := ← fs.getOr "min_size" count standard.minSize
    baseUrl := ← fs.getOr "base_url" text standard.baseUrl
    detour := ← fs.getOr "download_detour" (optional text) standard.detour
    binary := ← fs.getOr "binary" text standard.binary
    directory := ← fs.getOr "dir" text standard.directory }

/-- The fields of the options for sing-box. -/
def singBoxFields : Record :=
  ("rule_set", .fields ruleSetFields) ::
    Record.whole ["included_process_kinds", "process_mode", "split_dst_ip"]

/-- Read the options for sing-box. -/
def readSingBox (node : Yaml.Expanded) : Option SingBox.Options := do
  let standard := SingBox.Options.standard
  let fs ← fields singBoxFields node
  return {
    includedKinds :=
      ← fs.getOr "included_process_kinds" (optional (list text)) standard.includedKinds
    mode := ← fs.getOr "process_mode" (oneOf SingBox.Mode.ofName?) standard.mode
    splitAddress := ← fs.getOr "split_dst_ip" truth standard.splitAddress
    ruleSet := ← fs.getOr "rule_set" readRuleSet standard.ruleSet }

/-- The fields of a target. -/
def targetFields : Record :=
  ("sing_box", .fields singBoxFields) :: Record.whole ["name", "type", "file", "renames", "options"]

/-- Read a target. -/
def readTarget (node : Yaml.Expanded) : Option Target := do
  let fs ← fields targetFields node
  return {
    name := ← fs.need "name" text
    client := ← fs.need "type" (oneOf Client.ofName?)
    file := ← fs.getOr "file" (optional text) none
    renames := ← fs.getOr "renames" textMap .empty
    options := ← fs.getOr "options" mapping []
    singBox := ← fs.getOr "sing_box" readSingBox .standard }

/-- The fields of a rule. -/
def ruleFields : Record :=
  Record.whole ["destination", "filters"]

/-- Read a rule. -/
def readRule (node : Yaml.Expanded) : Option Rule := do
  let fs ← fields ruleFields node
  return {
    destination := Destination.ofName (← fs.need "destination" text)
    filters := ← fs.need "filters" (list Filter.ofNode?) }

/-- The fields of a configuration. -/
def configFields : Record :=
  [("destinations", .all), ("rules", .items (.fields ruleFields)),
    ("targets", .items (.fields targetFields))]

/-- Read a configuration. -/
def ofNode? (node : Yaml.Expanded) : Option Config := do
  let fs ← fields configFields node
  return {
    destinations := ← fs.getOr "destinations" (list text) []
    rules := ← fs.need "rules" (list readRule)
    targets := ← fs.need "targets" (list readTarget) }

/-- Read a configuration from its text. -/
def ofText? (text : String) : Option Config := do
  match ← Yaml.Expanded.ofText? (.fields configFields) text with
  | none => none
  | some node => ofNode? node

end Config

end RoutingRules
