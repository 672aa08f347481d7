import Mathlib.Data.Set.Insert
import RoutingRules.Proofs.Files.Tree

/-!
# Tools in file trees

A program may look at any file when it is used as a tool.  What it does is the same in two trees when
it finds the same in the files that it looks at, and when it can write to its output in both or in
none.

Main results:

- Theorem {lit}`FileTree.useTool_congr`: when a tool answers the same in two trees.
- Theorem {lit}`FileTree.AllPrograms.of_changes`: no program comes into a tree that files are written
  to.
-/

namespace RoutingRules

open Files

namespace Files.Program

variable {α : Type} {program : Program} {use : Tool → α} {look look' : String → Option Sight}
  {looks : Set String}

/-- A program looks at no other files than the given ones in a use: what is at the others does not
change the answer. -/
def LooksAt (program : Program) (use : Tool → α) (look : String → Option Sight)
    (looks : Set String) : Prop :=
  ∀ look' : String → Option Sight, (∀ path ∈ looks, look' path = look path) →
    use (program.tool look') = use (program.tool look)

/-- A program that looks at no files. -/
def IsBlind (program : Program) : Prop :=
  ∀ look look', program.tool look = program.tool look'

theorem looksAt_univ : program.LooksAt use look .univ := by
  intro look' hlook
  obtain rfl : look' = look := funext fun path => hlook path trivial
  rfl

theorem IsBlind.looksAt_empty (h : program.IsBlind) : program.LooksAt use look ∅ :=
  fun _ _ => congrArg use (h _ _)

/-- A program looks at the same files wherever it finds the same in them. -/
theorem LooksAt.congr (h : program.LooksAt use look looks)
    (hsame : ∀ path ∈ looks, look' path = look path) : program.LooksAt use look' looks := by
  intro other hother
  rw [h look' hsame]
  exact h other fun path hpath => (hother path hpath).trans (hsame path hpath)

end Files.Program

namespace FileTree

variable {tree made other : FileTree} {path name : String} {p : Program → Prop}

/-! ## Programs in a tree -/

/-- All programs pass a check: those in the tree and those that are installed. -/
structure AllPrograms (p : Program → Prop) (tree : FileTree) : Prop where
  found : ∀ place program, tree.find? place = some (.program program) → p program
  installed : ∀ name program, tree.installed.find name = .ok program → p program

/-- The program of a name is in the tree or installed. -/
theorem AllPrograms.of_program (h : tree.AllPrograms p) {program : Program}
    (hprogram : tree.program name = .ok program) : p program := by
  unfold FileTree.program at hprogram
  split at hprogram
  · cases hprogram
  split at hprogram
  · exact h.installed name program hprogram
  obtain ⟨place, _, hprogram⟩ := Except.bind_eq_ok_iff.1 hprogram
  split at hprogram
  next found hfound =>
    obtain rfl : found = program := Except.ok.inj hprogram
    exact h.found place found hfound
  next => cases hprogram

theorem AllPrograms.of_entries
    (hentries : ∀ e ∈ tree.entries, ∀ program, e.2 = .program program → p program)
    (hinstalled : ∀ name program, tree.installed.find name = .ok program → p program) :
    tree.AllPrograms p where
  found place program hfound := by
    unfold find? at hfound
    split at hfound
    · cases hfound
    obtain ⟨e, he, hprogram⟩ := Option.map_eq_some_iff.1 hfound
    exact hentries e (List.mem_of_find?_eq_some he) program hprogram
  installed := hinstalled

/-- No program comes into a tree in which only files and directories are new. -/
theorem AllPrograms.of_changes (h : tree.AllPrograms p)
    (hinstalled : made.installed = tree.installed)
    (hfind : ∀ q, made.find? q = tree.find? q ∨ made.find? q = some .directory ∨
      ∃ content, made.find? q = some (.file content)) : made.AllPrograms p where
  found place program hfound := by
    rcases hfind place with hsame | hdir | ⟨content, hfile⟩
    · exact h.found place program (hsame ▸ hfound)
    · rw [hdir] at hfound
      cases hfound
    · rw [hfile] at hfound
      cases hfound
  installed := hinstalled ▸ h.installed

/-! ## Using tools -/

section Uses

variable {α : Type} {use : Tool → α} {looks : Set String}

/-- The program of a name, if it is found, looks at no other files than the given ones in a use. -/
def UseLooksAt (tree : FileTree) (name : String) (use : Tool → α) (looks : Set String) : Prop :=
  ∀ program, tree.program name = .ok program → program.LooksAt use tree.look looks

theorem useLooksAt_univ : tree.UseLooksAt name use .univ :=
  fun _ _ => Program.looksAt_univ

theorem AllPrograms.useLooksAt_empty (h : tree.AllPrograms Program.IsBlind) :
    tree.UseLooksAt name use ∅ :=
  fun _ hprogram => (h.of_program hprogram).looksAt_empty

/-- A tool answers the same in two trees, and looks at the same files, when its program is found in
both, and finds the same in the files that it looks at. -/
theorem useTool_congr (hlooks : tree.UseLooksAt name use looks)
    (hprogram : (tree.program name).toOption = (other.program name).toOption)
    (hsame : ∀ path ∈ looks, other.look path = tree.look path) :
    (tree.useTool name use).toOption = (other.useTool name use).toOption ∧
      other.UseLooksAt name use looks := by
  unfold useTool UseLooksAt
  cases hother : other.program name with
  | error fault' =>
    rw [hother] at hprogram
    cases hfound : tree.program name with
    | error fault => exact ⟨rfl, nofun⟩
    | ok program =>
      rw [hfound] at hprogram
      cases hprogram
  | ok program =>
    rw [hother] at hprogram
    have hfound : tree.program name = .ok program := Except.toOption_eq_some_iff.1 hprogram
    have huse := hlooks program hfound
    rw [hfound]
    refine ⟨congrArg some (huse other.look hsame).symm, ?_⟩
    rintro _ ⟨⟩
    exact huse.congr hsame

end Uses

/-! ## Outputs -/

theorem canWrite_iff : tree.canWrite path = true ↔ ∃ q, tree.filePlace path = .ok q := by
  unfold canWrite
  cases tree.filePlace path <;> simp [Except.toOption]

theorem canWrite_of_endsAsDirectory (hwf : tree.WellFormed) (hends : endsAsDirectory path = true) :
    tree.canWrite path = false := by
  rw [← Bool.not_eq_true, canWrite_iff]
  rintro ⟨q, hplace⟩
  rw [((filePlace_eq_ok_iff hwf).1 hplace).2.1] at hends
  cases hends

/-- Where a file can be written in both trees or in none, a document is the same job. -/
theorem job_congr {source output : String} {document : Content}
    (h : tree.canWrite output = other.canWrite output) :
    tree.job source output document = other.job source output document := by
  rw [job, job, h]

end FileTree

end RoutingRules
