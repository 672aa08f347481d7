import RoutingRules.Files.Fault
import RoutingRules.Files.Path

/-!
# File trees

Directories, files and programs by their places.  A place is the list of the names on the way from
the root; a path is followed from the root or from the working directory, and everything on the
way to its last part has to be a directory.
-/

namespace RoutingRules

/-- What a file holds. -/
inductive Files.Content where
  | text (text : String)
  /-- Octets that are no text. -/
  | binary (octets : List UInt8)
deriving DecidableEq

namespace Files

/-- The size of a file in octets. -/
def Content.size : Content → Nat
  | .text s => s.utf8ByteSize
  | .binary octets => octets.length

/-- What a file with the given octets holds. -/
def Content.ofOctets (octets : List UInt8) : Content :=
  match String.fromUTF8? ⟨octets.toArray⟩ with
  | some s => .text s
  | none => .binary octets

/-- How the run of a tool ended. -/
structure ToolRun where
  code : Nat
  /-- What the tool printed. -/
  output : String
  /-- What the tool complained about. -/
  complaint : String
deriving DecidableEq, Repr

/-- What a tool can see at a place. -/
inductive Sight where
  | directory
  | file (content : Content)
  | program
deriving DecidableEq

/-- What a tool is given to compile. -/
structure Job where
  /-- The path of the document. -/
  source : String
  /-- The path to which the tool is told to write. -/
  output : String
  document : Content
  /-- Whether a file can be written to that path. -/
  writable : Bool

/-- A job stands for its document. -/
instance : Coe Job Content := ⟨Job.document⟩

/-- A tool that tells its version and compiles documents.  It writes nothing but the file to which it
is told to write.  For one configuration it is asked for its version once, and no two documents have
the same path, so that anything that a tool may do for a configuration is done by such a tool. -/
structure Tool where
  version : ToolRun
  /-- The run on a document, and what was written, if anything. -/
  compile : Job → ToolRun × Option Content

/-- A program that is used as a tool.  It can look at all files, by what paths lead to, if anything is
there. -/
structure Program where
  tool : (String → Option Sight) → Tool

/-- A tool that looks at no files. -/
instance : Coe Tool Program := ⟨fun tool => ⟨fun _ => tool⟩⟩

/-- The search for the program of a name among the installed ones. -/
class Installed where
  find : String → Except Fault Program

/-- Nothing is installed where nothing else is said. -/
instance : Installed := ⟨fun _ => .error .notFound⟩

/-- What is at a place. -/
inductive Entry where
  | directory
  | file (content : Content)
  | program (program : Program)

/-- What can be seen of what is at a place. -/
def Entry.sight : Entry → Sight
  | .directory => .directory
  | .file content => .file content
  | .program _ => .program

/-- A place in a tree. -/
abbrev Place := List String

end Files

open Files

/-- A tree of files with a working directory, on a machine with installed programs. -/
structure FileTree where
  entries : List (Place × Entry)
  here : Place
  [installed : Installed]

namespace FileTree

/-! ## Places -/

/-- What is at a place; the root is a directory. -/
def find? (tree : FileTree) (place : Place) : Option Entry :=
  if place = [] then some .directory
  else (tree.entries.find? fun e => e.1 = place).map Prod.snd

/-- Put something at a place, instead of what was there. -/
def set (tree : FileTree) (place : Place) (entry : Entry) : FileTree :=
  { tree with entries := (place, entry) :: tree.entries.filter fun e => e.1 ≠ place }

/-- Whether a directory is at a place. -/
def isDirectory (tree : FileTree) (place : Place) : Bool :=
  match tree.find? place with
  | some .directory => true
  | _ => false

/-! ## Following paths -/

/-- The greatest length of a name in octets. -/
def longestName : Nat :=
  255

/-- The greatest length of a path in octets. -/
def longestPath : Nat :=
  4095

/-- The place of a name in a directory. -/
def child (tree : FileTree) (place : Place) (name : String) : Except Fault Place :=
  if !tree.isDirectory place then .error .notADirectory
  else if longestName < name.utf8ByteSize then .error .nameTooLong
  else .ok (place ++ [name])

/-- Follow one part of a path. -/
def step (tree : FileTree) (place : Place) (part : String) : Except Fault Place :=
  if part = "" || part = "." then
    if tree.isDirectory place then .ok place else .error .notADirectory
  else if part = ".." then
    if tree.isDirectory place then .ok place.dropLast else .error .notADirectory
  else do
    let place ← tree.child place part
    if (tree.find? place).isSome then .ok place else .error .notFound

/-- Where a path starts. -/
def origin (tree : FileTree) (path : String) : Place :=
  if isAbsolute path then [] else tree.here

/-- Refuse paths that cannot be followed at all. -/
def checkPath (path : String) : Except Fault Unit :=
  if '\x00' ∈ path.toList then .error .nulInName
  else if path = "" then .error .notFound
  else if longestPath < path.utf8ByteSize then .error .nameTooLong
  else .ok ()

/-- The place that a path leads to. -/
def locate (tree : FileTree) (path : String) : Except Fault Place := do
  checkPath path
  (Text.pieces '/' path).foldlM tree.step (tree.origin path)

/-- Whether a path leads to a directory. -/
def leadsToDirectory (tree : FileTree) (path : String) : Bool :=
  match tree.locate path with
  | .ok place => tree.isDirectory place
  | .error _ => false

/-! ## Files -/

/-- The text of a file. -/
def read (tree : FileTree) (path : String) : Except Fault String := do
  match tree.find? (← tree.locate path) with
  | some (.file (.text text)) => return text
  | some .directory => throw .isADirectory
  | _ => throw .invalidText

/-- The size of a file. -/
def size (tree : FileTree) (path : String) : Except Fault Nat := do
  match tree.find? (← tree.locate path) with
  | some (.file content) => return content.size
  | _ => return 0

/-- The parts of a path without the empty ones at its end. -/
def partsOf (path : String) : List String :=
  ((Text.pieces '/' path).reverse.dropWhile (· = "")).reverse

/-- Whether a path can only be that of a directory, by its end. -/
def endsAsDirectory (path : String) : Bool :=
  match (Text.pieces '/' path).getLast? with
  | some last => last = "" || last = "." || last = ".."
  | none => true

/-- The place where a file of the last part of a path is made. -/
def filePlace (tree : FileTree) (path : String) : Except Fault Place := do
  checkPath path
  let parts := partsOf path
  let parent ← parts.dropLast.foldlM tree.step (tree.origin path)
  if !tree.isDirectory parent then throw .notADirectory
  if endsAsDirectory path then throw .isADirectory
  let place ← tree.child parent (parts.getLast?.getD "")
  if tree.isDirectory place then throw .isADirectory else return place

/-- Write a file, instead of the one that was there. -/
def write (tree : FileTree) (path : String) (content : Content) : Except Fault FileTree := do
  let place ← tree.filePlace path
  return tree.set place (.file content)

/-! ## Directories -/

/-- Make a directory. -/
def makeDirectory (tree : FileTree) (path : String) : Except Fault FileTree := do
  checkPath path
  let parts := partsOf path
  let place ← parts.dropLast.foldlM tree.step (tree.origin path)
  match parts.getLast? with
  | none => throw .alreadyExists
  | some last =>
    if last = "." || last = ".." then
      if tree.isDirectory place then throw .alreadyExists else throw .notADirectory
    else
      let place ← tree.child place last
      if (tree.find? place).isSome then throw .alreadyExists
      else return tree.set place .directory

/-- Make a directory, or find one there. -/
def ensureDirectory (tree : FileTree) (path : String) : FileTree × Except Fault Unit :=
  match tree.makeDirectory path with
  | .ok tree => (tree, .ok ())
  | .error fault => (tree, if tree.leadsToDirectory path then .ok () else .error fault)

/-- Make the first of the directories; where its parent is missing, make the others before.  Those
that were made stay when one cannot be made. -/
def makeAll (tree : FileTree) : List String → FileTree × Except Fault Unit
  | [] => (tree, .ok ())
  | path :: parents =>
    match tree.makeDirectory path with
    | .ok tree => (tree, .ok ())
    | .error .notFound =>
      match tree.makeAll parents with
      | (tree, .ok ()) => tree.ensureDirectory path
      | (tree, .error fault) => (tree, .error fault)
    | .error fault => (tree, if tree.leadsToDirectory path then .ok () else .error fault)

/-- Make a directory with all its parents, as far as they are missing. -/
def makePath (tree : FileTree) (path : String) : FileTree × Except Fault Unit :=
  tree.makeAll (withParents (path.length + 1) path)

/-- The tree in which a directory and all its parents have been made. -/
def makeDirectories (tree : FileTree) (path : String) : Except Fault FileTree :=
  let (tree, answer) := tree.makePath path
  answer.map fun _ => tree

/-! ## Tools -/

/-- The program of a name.  A name without a slash is looked for among the installed programs. -/
def program (tree : FileTree) (name : String) : Except Fault Program :=
  if '\x00' ∈ name.toList then .error .nulInCommand
  else if '/' ∉ name.toList then tree.installed.find name
  else do
    match tree.find? (← tree.locate name) with
    | some (.program program) => return program
    | _ => throw .permissionDenied

/-- What a path leads to, if anything is there. -/
def look (tree : FileTree) (path : String) : Option Sight :=
  ((tree.locate path).toOption.bind tree.find?).map Entry.sight

/-- Use the tool of a name, as it finds the files. -/
def useTool {α : Type} (tree : FileTree) (name : String) (use : Tool → α) : Except Fault α := do
  return use ((← tree.program name).tool tree.look)

/-- Ask a tool for its version. -/
def askVersion (tree : FileTree) (name : String) : Except Fault ToolRun :=
  tree.useTool name Tool.version

/-- Whether a file can be written to a path. -/
def canWrite (tree : FileTree) (path : String) : Bool :=
  (tree.filePlace path).toOption.isSome

/-- The job of compiling a document to a path. -/
def job (tree : FileTree) (source output : String) (document : Content) : Job :=
  ⟨source, output, document, tree.canWrite output⟩

/-- Run a tool on a document. -/
def runTool (tree : FileTree) (name source output : String) (document : Content) :
    Except Fault (ToolRun × Option Content) :=
  tree.useTool name (·.compile (tree.job source output document))

end FileTree

end RoutingRules
