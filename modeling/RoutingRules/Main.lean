import RoutingRules.Command.Execute
import Std.Time.DateTime.Timestamp

/-!
# The program

Reads the files below the working directory and the configuration, wherever it is, executes the
command on them, and writes what came of it.  Tools are not run and servers are not asked: a run
that needs them fails as if they were not there.
-/

namespace RoutingRules.Program

/-! ## Reading files -/

/-- The names on the way to an absolute path. -/
def placeOf (path : String) : Files.Place :=
  (Text.pieces '/' path).filter (· ≠ "")

/-- An absolute path as a text. -/
def pathOf (place : Files.Place) : String :=
  "/" ++ Text.joinWith "/" place

/-- The places above a place, as directories. -/
def directoriesAbove (place : Files.Place) : List (Files.Place × Files.Entry) :=
  (List.range place.length).map fun length => (place.take length, .directory)

/-- Put what was found into a tree. -/
def setAll (tree : FileTree) (found : List (Files.Place × Files.Entry)) : FileTree :=
  found.foldl (fun tree e => tree.set e.1 e.2) tree

/-- What is at a place, and below it.  Links to directories are not followed. -/
partial def found (place : Files.Place) (entry : IO.FS.DirEntry) :
    IO (List (Files.Place × Files.Entry)) := do
  let place := place ++ [entry.fileName]
  let path := entry.path
  match (← path.symlinkMetadata).type with
  | .dir =>
    let below ← (← path.readDir).toList.mapM (found place)
    return (place, .directory) :: below.flatten
  | _ =>
    if ← path.isDir then return []
    let octets ← IO.FS.readBinFile path
    return [(place, .file (.ofOctets octets.toList))]

/-- The files below the working directory. -/
def workingTree : IO FileTree := do
  let directory ← IO.currentDir
  let here := placeOf directory.toString
  let below ← (← directory.readDir).toList.mapM (found here)
  return setAll ⟨[(here, .directory)], here⟩ (directoriesAbove here ++ below.flatten)

/-- Add the configuration of a command, when it is not below the working directory. -/
def withConfig (tree : FileTree) : Command → IO FileTree
  | .generate options => do
    if !Files.isAbsolute options.config then return tree
    try
      let octets ← IO.FS.readBinFile options.config
      let place := placeOf options.config
      return setAll tree (directoriesAbove place ++ [(place, .file (.ofOctets octets.toList))])
    catch _ => return tree
  | .render .. => return tree

/-! ## Writing files -/

/-- Whether an entry was there before. -/
def isUnchanged : Option Files.Entry → Files.Entry → Bool
  | some .directory, .directory => true
  | some (.file before), .file after => before = after
  | _, _ => false

/-- Write an entry that was not there before. -/
def writeEntry (before : FileTree) (place : Files.Place) (entry : Files.Entry) : IO Unit := do
  if isUnchanged (before.find? place) entry then return
  match entry with
  | .directory => IO.FS.createDirAll (pathOf place)
  | .file (.text text) => IO.FS.writeFile (pathOf place) text
  | .file (.binary octets) => IO.FS.writeBinFile (pathOf place) ⟨octets.toArray⟩
  | .program _ => return

/-- Write what changed in a tree.  The last change is the first entry. -/
def writeChanges (before after : FileTree) : IO Unit :=
  after.entries.reverse.forM fun e => writeEntry before e.1 e.2

/-! ## Running -/

/-- A notice as a line. -/
def noticeLine (notice : Notice) : String :=
  match notice.level with
  | .warning => "WARN " ++ notice.text
  | .failure => "ERROR " ++ notice.text

/-- Run the program. -/
def run (args : List String) : IO UInt32 := do
  let mut before ← workingTree
  if let .ok command := Command.read args then
    before ← withConfig before command
  let now ← Std.Time.Timestamp.now
  let seconds := now.toSecondsSinceUnixEpoch.val + Header.clockOffset
  let (execution, after) := Execution.ofArgs args seconds before
  writeChanges before after
  execution.notices.forM fun notice => IO.eprintln (noticeLine notice)
  IO.print execution.output
  if execution.complaint ≠ "" then IO.eprintln execution.complaint
  return execution.code.toUInt32

end RoutingRules.Program

/-- The entry of the program. -/
def main (args : List String) : IO UInt32 :=
  RoutingRules.Program.run args
