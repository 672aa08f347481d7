import RoutingRules.SingBox.Extraction
import RoutingRules.SingBox.Version
import RoutingRules.World

/-!
# Compiling rule sets

Writes rule sets as documents and has the tool compile them.  A configuration refers to the
compiled files by descriptors with the address from which clients download them.
-/

namespace RoutingRules.SingBox

/-- How rule sets are compiled and published. -/
structure Compiler where
  /-- The name of the tool. -/
  binary : String
  /-- The directory of the documents and the compiled files. -/
  directory : String
  /-- The start of the addresses of the compiled files. -/
  baseUrl : String
  /-- The outbound through which clients download them. -/
  detour : Option String
deriving DecidableEq, Repr

/-- How a configuration refers to a compiled rule set. -/
structure Descriptor where
  tag : String
  url : String
  detour : Option String
deriving DecidableEq, Repr

/-- A descriptor as a JSON object. -/
def Descriptor.toJson (d : Descriptor) : Json :=
  .ofMap (.ofList
    ([("tag", .str d.tag), ("type", .str "remote"), ("format", .str "binary"),
      ("url", .str d.url)] ++ d.detour.toList.map fun name => ("download_detour", .str name)))

/-- A compiled rule set. -/
structure Artifact where
  tag : String
  path : String
  /-- The size of the compiled file in octets. -/
  size : Nat
  descriptor : Descriptor
deriving DecidableEq, Repr

namespace Compiler

variable {σ : Type}

/-- The path of the document of a rule set. -/
def sourcePath (c : Compiler) (tag : String) : String :=
  Files.join c.directory (tag ++ ".json")

/-- The path of a compiled rule set. -/
def compiledPath (c : Compiler) (tag : String) : String :=
  Files.join c.directory (tag ++ ".srs")

/-- The descriptor of a compiled rule set. -/
def descriptor (c : Compiler) (tag : String) : Descriptor :=
  { tag, url := c.baseUrl ++ tag ++ ".srs", detour := c.detour }

/-- Ask the tool for its version. -/
def version (c : Compiler) : Task RuleError σ Version := do
  let run ← Task.asking (·.askVersion c.binary) fun fault => .tool (.versionNotRun c.binary fault)
  if run.code ≠ 0 then throw (.tool (.versionFailed c.binary run.code))
  Version.ofAnswer run.output

/-- The files after the tool has written what it made.  Where it cannot be written, nothing
changes. -/
def afterRun (path : String) (made : Option Files.Content) (tree : FileTree) : FileTree :=
  match made with
  | none => tree
  | some content => (tree.write path content).toOption.getD tree

/-- Compile a rule set for a version of the format. -/
def compile (c : Compiler) (format : Nat) (set : RuleSet) : Task RuleError σ Artifact := do
  let path := c.compiledPath set.tag
  let source := Files.Content.text (set.source format).pretty
  Task.changing (·.write (c.sourcePath set.tag) source) .io
  let (run, made) ← Task.asking (·.runTool c.binary (c.sourcePath set.tag) path source)
    fun fault => .tool (.compileNotRun c.binary fault)
  Task.changing (fun tree => .ok (afterRun path made tree)) .io
  if run.code ≠ 0 then
    throw (.tool (.compileFailed set.tag run.code (Text.trim run.complaint)))
  let size ← Task.asking (·.size path) fun fault => .tool (.resultMissing path fault)
  return ⟨set.tag, path, size, c.descriptor set.tag⟩

/-- Compile rule sets one after another.  The tool is only asked when there are any. -/
def compileAll (c : Compiler) (sets : List RuleSet) : Task RuleError σ (List Artifact) := do
  if sets.isEmpty then return []
  let version ← c.version
  Task.making c.directory .io
  sets.mapM (c.compile version.format)

end Compiler

end RoutingRules.SingBox
