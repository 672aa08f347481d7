import RoutingRules.Fetch
import RoutingRules.Files.Tree
import RoutingRules.Notice

/-!
# The world of a run

A run reads and writes files, fetches documents and tells what is worth telling.  What it did
stays when it fails.
-/

namespace RoutingRules

/-- The files, the state of the fetcher, and the notices so far. -/
structure World (σ : Type) where
  files : FileTree
  remote : σ
  notices : List Notice

/-- A computation in a world, which may fail. -/
abbrev Task (ε σ : Type) := ExceptT ε (StateM (World σ))

namespace Task

variable {ε σ α : Type}

/-- A fetcher of documents, which can see the files. -/
abbrev Remote (σ : Type) := FileTree → Fetcher σ

/-- Tell notices. -/
def tell (notices : List Notice) : Task ε σ Unit :=
  modify fun w => { w with notices := w.notices ++ notices }

/-- Run a computation that only fetches. -/
def fetching (run : FileTree → Fetching σ α) : Task RuleError σ α :=
  ExceptT.mk fun w =>
    let (answer, remote) := (run w.files).run.run w.remote
    (answer, { w with remote })

/-- Ask the files. -/
def asking (ask : FileTree → Except Files.Fault α) (wrap : Files.Fault → ε) : Task ε σ α := do
  match ask (← get).files with
  | .ok a => return a
  | .error fault => throw (wrap fault)

/-- Change the files. -/
def changing (change : FileTree → Except Files.Fault FileTree) (wrap : Files.Fault → ε) :
    Task ε σ Unit := do
  match change (← get).files with
  | .ok files => modify fun w => { w with files }
  | .error fault => throw (wrap fault)

/-- Make a directory with all its parents. -/
def making (path : String) (wrap : Files.Fault → ε) : Task ε σ Unit := do
  let (files, answer) := (← get).files.makePath path
  modify fun w => { w with files }
  match answer with
  | .ok () => return ()
  | .error fault => throw (wrap fault)

/-- Give the error of a computation another form. -/
def mapError {ε' : Type} (wrap : ε → ε') (task : Task ε σ α) : Task ε' σ α :=
  ExceptT.mk fun w =>
    let (answer, w) := task.run.run w
    match answer with
    | .ok a => (.ok a, w)
    | .error e => (.error (wrap e), w)

/-- Run a computation and give its result, even if it failed. -/
def outcome {ε' : Type} (task : Task ε σ α) : Task ε' σ (Except ε α) :=
  ExceptT.mk fun w =>
    let (answer, w) := task.run.run w
    (.ok answer, w)

end Task

end RoutingRules
