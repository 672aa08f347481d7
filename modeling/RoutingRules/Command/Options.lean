/-!
# Options of a command line

Reads the options and the words of a command line.  An option has a name behind two hyphens and
may have a letter behind one; letters can be put together.  A value follows its option as the next
argument, behind an equals sign, or right behind a letter.  Two hyphens end the options.
-/

namespace RoutingRules.Command

/-- Why a command line asks for no command. -/
inductive Stop where
  | help
  | version
  | misuse
deriving DecidableEq, Repr

/-- What an option is for. -/
inductive OptionRole where
  /-- It says that something is to be done. -/
  | flag
  /-- It carries a value that satisfies a test. -/
  | value (accepts : String → Bool)
  /-- It asks for something else than a command. -/
  | stop (stop : Stop)

/-- An option. -/
structure OptionSpec where
  name : String
  letter : Option Char
  role : OptionRole
  /-- Whether the option may be given several times. -/
  repeatable : Bool

/-- What has been read of a command line. -/
structure Given where
  /-- The options with their values, in order. -/
  options : List (String × String)
  words : List String
deriving DecidableEq, Repr

namespace Given

/-- Nothing. -/
def empty : Given :=
  ⟨[], []⟩

/-- The values of an option. -/
def values (given : Given) (name : String) : List String :=
  (given.options.filter fun o => o.1 = name).map Prod.snd

/-- The value of an option that was given. -/
def value? (given : Given) (name : String) : Option String :=
  (given.values name).head?

/-- Whether an option was given. -/
def has (given : Given) (name : String) : Bool :=
  (given.value? name).isSome

/-- Add an option. -/
def addOption (given : Given) (spec : OptionSpec) (value : String) : Except Stop Given :=
  if !spec.repeatable && given.has spec.name then .error .misuse
  else .ok { given with options := given.options ++ [(spec.name, value)] }

end Given

/-! ## Options -/

/-- Whether an argument can be the value of the option before it. -/
def isValue (arg : String) : Bool :=
  arg.toList.head? ≠ some '-' || arg = "-"

/-- Read an option, with the value that is attached to it or the next argument. -/
def takeOption (spec : OptionSpec) (attached : Option String) (given : Given)
    (args : List String) : Except Stop (Given × List String) :=
  match spec.role, attached, args with
  | .stop stop, none, _ => .error stop
  | .flag, none, args => (given.addOption spec "").map fun given => (given, args)
  | .value accepts, some value, args =>
    if accepts value then (given.addOption spec value).map fun given => (given, args)
    else .error .misuse
  | .value accepts, none, value :: args =>
    if isValue value && accepts value then
      (given.addOption spec value).map fun given => (given, args)
    else .error .misuse
  | _, _, _ => .error .misuse

/-- Whether an option carries a value. -/
def OptionSpec.takesValue (spec : OptionSpec) : Bool :=
  match spec.role with
  | .value _ => true
  | _ => false

/-- Read letters that are put together.  What follows the letter of an option with a value is its
value. -/
def takeLetters (specs : List OptionSpec) (given : Given) (args : List String) :
    List Char → Except Stop (Given × List String)
  | [] => .ok (given, args)
  | c :: rest =>
    match specs.find? fun spec => spec.letter = some c with
    | none => .error .misuse
    | some spec =>
      if spec.takesValue then
        let attached :=
          match rest with
          | [] => none
          | '=' :: value => some (String.ofList value)
          | value => some (String.ofList value)
        takeOption spec attached given args
      else
        match takeOption spec none given args with
        | .ok (given, args) => takeLetters specs given args rest
        | .error stop => .error stop

/-- Read an option with a name. -/
def takeName (specs : List OptionSpec) (given : Given) (args : List String) (cs : List Char) :
    Except Stop (Given × List String) :=
  let name := String.ofList (cs.takeWhile (· ≠ '='))
  let attached :=
    match cs.dropWhile (· ≠ '=') with
    | [] => none
    | _ :: value => some (String.ofList value)
  match specs.find? fun spec => spec.name = name with
  | none => .error .misuse
  | some spec => takeOption spec attached given args

/-! ## Command lines -/

/-- Where words are allowed. -/
inductive Words where
  | none
  | any
  /-- The first word ends the options. -/
  | first
deriving DecidableEq, Repr

/-- Read arguments; every step takes one at least. -/
def takeArgs (specs : List OptionSpec) (words : Words) :
    Nat → Given → List String → Except Stop (Given × List String)
  | 0, given, args => .ok (given, args)
  | _ + 1, given, [] => .ok (given, [])
  | steps + 1, given, arg :: args =>
    match arg.toList with
    | ['-', '-'] =>
      if words = .any then .ok ({ given with words := given.words ++ args }, [])
      else if args.isEmpty then .ok (given, [])
      else .error .misuse
    | '-' :: '-' :: name =>
      match takeName specs given args name with
      | .ok (given, args) => takeArgs specs words steps given args
      | .error stop => .error stop
    | '-' :: c :: letters =>
      match takeLetters specs given args (c :: letters) with
      | .ok (given, args) => takeArgs specs words steps given args
      | .error stop => .error stop
    | _ =>
      match words with
      | .none => .error .misuse
      | .first => .ok (given, arg :: args)
      | .any => takeArgs specs words steps { given with words := given.words ++ [arg] } args

end RoutingRules.Command
