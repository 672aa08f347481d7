import RoutingRules.Command.Options
import RoutingRules.Run.Target

/-!
# Commands

The commands that a command line can ask for: writing the targets of a configuration, and showing
how filters are rendered for a client.
-/

namespace RoutingRules

/-- What a command line asks for. -/
inductive Command where
  | generate (options : RunOptions)
  | render (client : Client) (destination : String) (filters : List String)
deriving DecidableEq, Repr

namespace Command

/-! ## Options -/

/-- The flag for more messages. -/
def verboseSpec : OptionSpec :=
  ⟨"verbose", some 'v', .flag, false⟩

/-- The option for help. -/
def helpSpec : OptionSpec :=
  ⟨"help", some 'h', .stop .help, false⟩

/-- The options in front of the command. -/
def globalSpecs : List OptionSpec :=
  [verboseSpec, helpSpec, ⟨"version", some 'V', .stop .version, false⟩]

/-- Whether a text is a number of seconds of 64 bits. -/
def isSeconds (value : String) : Bool :=
  (Number.readAtMost (Nat.pow 2 64 - 1) value.toList).toOption.isSome

/-- The options of the command that writes targets. -/
def generateSpecs : List OptionSpec :=
  [⟨"config", some 'c', .value (· ≠ ""), false⟩, ⟨"output", some 'o', .value (· ≠ ""), false⟩,
   ⟨"target", none, .value fun _ => true, true⟩, ⟨"no-rule-set", none, .flag, false⟩,
   ⟨"timeout", none, .value isSeconds, false⟩, verboseSpec, helpSpec]

/-- The options of the command that renders filters. -/
def renderSpecs : List OptionSpec :=
  [⟨"format", some 'f', .value fun name => (Client.ofName? name).isSome, false⟩,
   ⟨"destination", some 'd', .value fun _ => true, false⟩, verboseSpec, helpSpec]

/-! ## Reading -/

/-- Read the options and words of a command. -/
def readGiven (specs : List OptionSpec) (words : Words) (args : List String) :
    Except Stop Given :=
  (takeArgs specs words (args.length + 1) .empty args).map Prod.fst

/-- Read a value that has to be given. -/
def need {α : Type} : Option α → Except Stop α
  | some value => .ok value
  | none => .error .misuse

/-- Read the command that writes targets. -/
def readGenerate (args : List String) : Except Stop Command := do
  let given ← readGiven generateSpecs .none args
  let config ← need (given.value? "config")
  let output ← need (given.value? "output")
  return .generate ⟨config, output, given.values "target", !given.has "no-rule-set"⟩

/-- Read the command that renders filters. -/
def readRender (args : List String) : Except Stop Command := do
  let given ← readGiven renderSpecs .any args
  let client ← need ((given.value? "format").bind Client.ofName?)
  if given.words.isEmpty then throw .misuse
  return .render client ((given.value? "destination").getD "PROXY") given.words

/-- The names of all commands. -/
def names : List String :=
  ["generate", "render", "help"]

/-- Read a command line. -/
def read (args : List String) : Except Stop Command := do
  let (_, rest) ← takeArgs globalSpecs .first (args.length + 1) .empty args
  match rest with
  | "generate" :: args => readGenerate args
  | "render" :: args => readRender args
  | ["help"] => throw .help
  | ["help", name] => throw (if names.contains name then .help else .misuse)
  | _ => throw .misuse

end Command

end RoutingRules
