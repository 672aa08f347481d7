import Mathlib.Data.List.Induction
import RoutingRules.Proofs.Files.Place
import RoutingRules.Proofs.Result

/-!
# File trees that are trees

What is at a place lies in a directory, and the working directory is one.  In such a tree a path can
be followed exactly when every place on its way is a directory, and a file that is written changes
what is at its place and nothing else.

Main results:

- Theorem {lit}`locate_eq_ok_iff`: which paths can be followed, and where they lead.
- Theorem {lit}`filePlace_eq_ok_iff`: where files can be written.
- Theorem {lit}`write_spec`: a file that is written is at the place of its path, and nothing else
  changes.
-/

namespace RoutingRules.FileTree

open Files

variable {tree made : FileTree} {place q : Place} {path part : String} {parts : List String}

/-! ## Entries -/

@[simp] theorem find?_nil (tree : FileTree) : tree.find? [] = some .directory := by
  simp [find?]

/-- What is at a place after something was put there or elsewhere. -/
theorem find?_set {entry : Entry} (hplace : place ≠ []) (q : Place) :
    (tree.set place entry).find? q = if q = place then some entry else tree.find? q := by
  by_cases hq : q = []
  · subst hq
    simp [Ne.symm hplace]
  by_cases hsame : q = place
  · simp [find?, set, hsame, hplace]
  · simp only [find?, set, hq, hsame, if_false, List.find?_cons, Ne.symm hsame, decide_false,
      List.find?_filter]
    congr 2
    ext e
    by_cases he : e.1 = q
    · simp [he, hsame]
    · simp [he]

theorem isDirectory_iff : tree.isDirectory place = true ↔ tree.find? place = some .directory := by
  unfold isDirectory
  split
  next h => simp [h]
  next h =>
    simp only [Bool.false_eq_true, false_iff]
    exact h

@[simp] theorem isDirectory_nil (tree : FileTree) : tree.isDirectory [] = true := by
  simp [isDirectory_iff]

theorem isSome_of_isDirectory (h : tree.isDirectory place = true) :
    (tree.find? place).isSome = true := by
  simp [isDirectory_iff.1 h]

/-- What the file at a place holds, if one is there. -/
def contentAt? (tree : FileTree) (place : Place) : Option Content :=
  match tree.find? place with
  | some (.file content) => some content
  | _ => none

theorem contentAt?_eq_some_iff {content : Content} :
    tree.contentAt? place = some content ↔ tree.find? place = some (.file content) := by
  unfold contentAt?
  split
  next found hfound => simp [hfound]
  next hother =>
    simp only [reduceCtorEq, false_iff]
    exact hother content

/-- Whether no file is at a place: nothing, or a directory. -/
def IsFree (tree : FileTree) (place : Place) : Prop :=
  tree.find? place = none ∨ tree.find? place = some .directory

theorem isDirectory_of_isFree (h : tree.IsFree place) (hsome : (tree.find? place).isSome = true) :
    tree.isDirectory place = true := by
  rcases h with h | h
  · simp [h] at hsome
  · exact isDirectory_iff.2 h

/-! ## Well-formed trees -/

/-- The working directory is a directory, and everything lies in one. -/
structure WellFormed (tree : FileTree) : Prop where
  here : tree.isDirectory tree.here = true
  parent : ∀ place name, (tree.find? (place ++ [name])).isSome = true →
    tree.isDirectory place = true

namespace WellFormed

/-- The way back from a directory leads to a directory. -/
theorem dropLast (h : tree.WellFormed) (hplace : (tree.find? place).isSome = true) :
    tree.isDirectory place.dropLast = true := by
  rcases List.eq_nil_or_concat place with rfl | ⟨front, name, rfl⟩
  · simp
  · rw [List.concat_eq_append] at hplace ⊢
    rw [List.dropLast_concat]
    exact h.parent _ _ hplace

/-- What is at a place lies in directories only. -/
theorem isDirectory_of_isPrefix (h : tree.WellFormed) (hq : (tree.find? q).isSome = true)
    (hbelow : place <+: q) (hne : place ≠ q) : tree.isDirectory place = true := by
  obtain ⟨rest, rfl⟩ := hbelow
  induction rest using List.reverseRecOn with
  | nil => simp at hne
  | append_singleton rest name ih =>
    rw [← List.append_assoc] at hq
    have hparent := h.parent _ _ hq
    by_cases hrest : rest = []
    · simpa [hrest] using hparent
    · exact ih (isSome_of_isDirectory hparent) (by simpa using hrest)

/-- A tree is well-formed when its entries lie in directories. -/
theorem of_entries (hhere : tree.isDirectory tree.here = true)
    (h : ∀ e ∈ tree.entries, tree.isDirectory e.1.dropLast = true) : tree.WellFormed where
  here := hhere
  parent place name hfound := by
    rw [find?, if_neg (by simp), Option.isSome_map, List.find?_isSome] at hfound
    obtain ⟨e, he, hplace⟩ := hfound
    have hparent := h e he
    rwa [of_decide_eq_true hplace, List.dropLast_concat] at hparent

/-- Paths start at a directory. -/
theorem origin (h : tree.WellFormed) (path : String) :
    tree.isDirectory (originOf tree.here path) = true := by
  unfold originOf
  split
  · simp
  · exact h.here

end WellFormed

/-! ## Following paths -/

theorem origin_eq (tree : FileTree) (path : String) :
    tree.origin path = originOf tree.here path :=
  rfl

/-- Whether a name is short enough. -/
def Fits (name : String) : Prop :=
  name.utf8ByteSize ≤ longestName

instance (name : String) : Decidable (Fits name) :=
  inferInstanceAs (Decidable (_ ≤ _))

/-- Whether a path and the names in it can be used at all. -/
structure Usable (path : String) : Prop where
  check : checkPath path = .ok ()
  fits : ∀ part ∈ Text.pieces '/' path, Fits part

theorem usable_iff_of_pieces {front : List String} {name : String}
    (hpieces : Text.pieces '/' path = front ++ [name]) :
    Usable path ↔ checkPath path = .ok () ∧ (∀ part ∈ front, Fits part) ∧ Fits name := by
  have hfits : (∀ part ∈ Text.pieces '/' path, Fits part) ↔
      (∀ part ∈ front, Fits part) ∧ Fits name := by
    simp [hpieces, or_imp, forall_and]
  rw [← hfits]
  exact ⟨fun h => ⟨h.check, h.fits⟩, fun h => ⟨h.1, h.2⟩⟩

theorem fits_of_dots (h : part = "" ∨ part = "." ∨ part = "..") : Fits part := by
  rcases h with rfl | rfl | rfl <;> decide

/-- A name can be looked for in a directory. -/
theorem child_eq_ok_iff :
    tree.child place part = .ok q ↔
      tree.isDirectory place = true ∧ Fits part ∧ q = place ++ [part] := by
  unfold child Fits
  by_cases hdir : tree.isDirectory place = true
  · by_cases hfits : longestName < part.utf8ByteSize
    · simp only [hdir, hfits, Bool.not_true, Bool.false_eq_true, if_true, if_false]
      constructor
      · nofun
      · omega
    · simp [hdir, hfits, Nat.le_of_not_lt hfits, eq_comm]
  · simp [hdir]

/-- Only directories can be followed into. -/
theorem isDirectory_of_step (h : tree.step place part = .ok q) :
    tree.isDirectory place = true := by
  unfold step at h
  split at h
  · split at h
    · assumption
    · cases h
  · split at h
    · split at h
      · assumption
      · cases h
    · obtain ⟨_, hchild, _⟩ := Except.bind_eq_ok_iff.1 h
      exact (child_eq_ok_iff.1 hchild).1

/-- Dots lead from a directory to another one. -/
theorem step_of_dots (hdots : part = "" ∨ part = "." ∨ part = "..")
    (hdir : tree.isDirectory place = true) : tree.step place part = .ok (enter place part) := by
  rcases hdots with rfl | rfl | rfl <;> simp [step, enter, hdir]

theorem isSome_enter_of_dots (hwf : tree.WellFormed)
    (hdots : part = "" ∨ part = "." ∨ part = "..") (hdir : tree.isDirectory place = true) :
    (tree.find? (enter place part)).isSome = true := by
  have hsome := isSome_of_isDirectory hdir
  rcases hdots with rfl | rfl | rfl
  · exact hsome
  · exact hsome
  · exact isSome_of_isDirectory (hwf.dropLast hsome)

/-- A name leads to what has this name in a directory. -/
theorem step_eq_ok_iff_of_name (hname : ¬(part = "" ∨ part = "." ∨ part = "..")) :
    tree.step place part = .ok q ↔
      tree.isDirectory place = true ∧ Fits part ∧ q = place ++ [part] ∧
        (tree.find? q).isSome = true := by
  simp only [not_or] at hname
  obtain ⟨hempty, hdot, hback⟩ := hname
  simp only [step, hempty, hdot, hback, decide_false, Bool.or_false, Bool.false_eq_true, if_false]
  rw [Except.bind_eq_ok_iff]
  constructor
  · rintro ⟨p, hchild, h⟩
    obtain ⟨hdir, hfits, rfl⟩ := child_eq_ok_iff.1 hchild
    split at h
    next hfound =>
      cases h
      exact ⟨hdir, hfits, rfl, hfound⟩
    next => cases h
  · rintro ⟨hdir, hfits, rfl, hfound⟩
    exact ⟨_, child_eq_ok_iff.2 ⟨hdir, hfits, rfl⟩, if_pos hfound⟩

/-- A part can be followed from a directory to where something is. -/
theorem step_eq_ok_iff (hwf : tree.WellFormed) :
    tree.step place part = .ok q ↔
      tree.isDirectory place = true ∧ Fits part ∧ q = enter place part ∧
        (tree.find? q).isSome = true := by
  by_cases hdots : part = "" ∨ part = "." ∨ part = ".."
  · constructor
    · intro h
      have hdir := isDirectory_of_step h
      rw [step_of_dots hdots hdir] at h
      cases h
      exact ⟨hdir, fits_of_dots hdots, rfl, isSome_enter_of_dots hwf hdots hdir⟩
    · rintro ⟨hdir, _, rfl, _⟩
      exact step_of_dots hdots hdir
  · have henter : enter place part = place ++ [part] := by
      simp only [not_or] at hdots
      simp [enter, hdots]
    rw [step_eq_ok_iff_of_name hdots, henter]

/-- Parts can be followed through directories to where something is. -/
theorem foldlM_step_eq_ok_iff (hwf : tree.WellFormed) :
    parts.foldlM tree.step place = .ok q ↔
      q = placeFrom place parts ∧ (∀ s ∈ wayFrom place parts, tree.isDirectory s = true) ∧
        (∀ part ∈ parts, Fits part) ∧ (parts ≠ [] → (tree.find? q).isSome = true) := by
  induction parts generalizing place with
  | nil =>
    have hnil : ([] : List String).foldlM tree.step place = .ok place := rfl
    rw [hnil, Except.ok.injEq, eq_comm]
    simp [placeFrom, wayFrom]
  | cons part parts ih =>
    rw [List.foldlM_cons, Except.bind_eq_ok_iff]
    simp only [step_eq_ok_iff hwf, ih, wayFrom, List.forall_mem_cons, placeFrom,
      List.foldl_cons]
    constructor
    · rintro ⟨_, ⟨hdir, hfits, rfl, hsome⟩, rfl, hway, hparts, hfound⟩
      refine ⟨rfl, ⟨hdir, hway⟩, ⟨hfits, hparts⟩, fun _ => ?_⟩
      by_cases hnil : parts = []
      · subst hnil
        exact hsome
      · exact hfound hnil
    · rintro ⟨rfl, ⟨hdir, hway⟩, ⟨hfits, hparts⟩, hfound⟩
      have hfound := hfound (List.cons_ne_nil _ _)
      refine ⟨_, ⟨hdir, hfits, rfl, ?_⟩, rfl, hway, hparts, fun _ => hfound⟩
      rcases parts with _ | ⟨next, parts⟩
      · exact hfound
      · exact isSome_of_isDirectory (hway _ List.mem_cons_self)

/-- A path can be followed when everything on the way is a directory and something is at its end. -/
theorem locate_eq_ok_iff (hwf : tree.WellFormed) :
    tree.locate path = .ok q ↔
      Usable path ∧ (∀ s ∈ wayOf tree.here path, tree.isDirectory s = true) ∧
        q = placeOf tree.here path ∧ (tree.find? q).isSome = true := by
  unfold locate
  rw [Except.bind_eq_ok_iff]
  simp only [foldlM_step_eq_ok_iff hwf]
  constructor
  · rintro ⟨_, hcheck, rfl, hway, hfits, hfound⟩
    exact ⟨⟨hcheck, hfits⟩, hway, rfl, hfound (Text.pieces_ne_nil '/' path)⟩
  · rintro ⟨⟨hcheck, hfits⟩, hway, rfl, hfound⟩
    exact ⟨(), hcheck, rfl, hway, hfits, fun _ => hfound⟩

theorem leadsToDirectory_iff (hwf : tree.WellFormed) :
    tree.leadsToDirectory path = true ↔
      Usable path ∧ ∀ s ∈ visited tree.here path, tree.isDirectory s = true := by
  unfold leadsToDirectory visited
  constructor
  · intro h
    split at h
    next place hplace =>
      obtain ⟨husable, hway, rfl, _⟩ := (locate_eq_ok_iff hwf).1 hplace
      exact ⟨husable, by simpa [or_imp, forall_and] using ⟨hway, h⟩⟩
    next => cases h
  · rintro ⟨husable, hvisited⟩
    have hplace := hvisited (placeOf tree.here path) (by simp)
    rw [(locate_eq_ok_iff hwf).2 ⟨husable, fun s hs => hvisited s (by simp [hs]), rfl,
      isSome_of_isDirectory hplace⟩]
    exact hplace

/-! ## Writing files -/

/-- A file can be written where the way is one of directories and its path ends in a name, unless a
directory is there. -/
theorem filePlace_eq_ok_iff (hwf : tree.WellFormed) :
    tree.filePlace path = .ok q ↔
      Usable path ∧ endsAsDirectory path = false ∧
        (∀ s ∈ wayOf tree.here path, tree.isDirectory s = true) ∧
        q = placeOf tree.here path ∧ tree.isDirectory q = false := by
  unfold filePlace
  rw [Except.bind_eq_ok_iff]
  by_cases hfile : endsAsDirectory path = true
  · simp only [hfile, Bool.true_eq_false, false_and, and_false, iff_false]
    rintro ⟨_, _, h⟩
    obtain ⟨parent, _, h⟩ := Except.bind_eq_ok_iff.1 h
    split at h
    · cases h
    · cases h
  rw [Bool.not_eq_true] at hfile
  obtain ⟨hparts, _⟩ := not_endsInDot_of_file hfile
  obtain ⟨front, name, hname⟩ := exists_leadsToName hfile tree.here
  rw [usable_iff_of_pieces hname.pieces, hname.way, hname.place]
  simp only [hparts, hname.pieces, origin_eq, List.dropLast_concat, List.getLast?_concat,
    Option.getD_some, hfile, Bool.false_eq_true, if_false, true_and, List.mem_append,
    List.mem_singleton, or_imp, forall_and, forall_eq]
  constructor
  · rintro ⟨_, hcheck, h⟩
    obtain ⟨parent, hfold, h⟩ := Except.bind_eq_ok_iff.1 h
    obtain ⟨rfl, hdirs, hfront, _⟩ := (foldlM_step_eq_ok_iff hwf).1 hfold
    split at h
    · cases h
    obtain ⟨place, hchild, h⟩ := Except.bind_eq_ok_iff.1 h
    obtain ⟨hdir, hfits, rfl⟩ := child_eq_ok_iff.1 hchild
    split at h
    · cases h
    next hfree =>
      cases h
      exact ⟨⟨hcheck, hfront, hfits⟩, ⟨hdirs, hdir⟩, rfl, by simpa using hfree⟩
  · rintro ⟨⟨hcheck, hfront, hfits⟩, ⟨hdirs, hdir⟩, rfl, hfree⟩
    refine ⟨(), hcheck, Except.bind_eq_ok_iff.2 ⟨_, (foldlM_step_eq_ok_iff hwf).2
      ⟨rfl, hdirs, hfront, fun _ => isSome_of_isDirectory hdir⟩, ?_⟩⟩
    rw [if_neg (by simpa using hdir)]
    refine Except.bind_eq_ok_iff.2 ⟨_, child_eq_ok_iff.2 ⟨hdir, hfits, rfl⟩, ?_⟩
    rw [if_neg (by simpa using hfree)]
    rfl

theorem write_eq_ok_iff {content : Content} :
    tree.write path content = .ok made ↔
      ∃ place, tree.filePlace path = .ok place ∧ made = tree.set place (.file content) := by
  unfold write
  rw [Except.bind_eq_ok_iff]
  constructor
  · rintro ⟨place, hplace, h⟩
    cases h
    exact ⟨place, hplace, rfl⟩
  · rintro ⟨place, hplace, rfl⟩
    exact ⟨place, hplace, rfl⟩

theorem not_endsAsDirectory_of_write (hwf : tree.WellFormed) {content : Content}
    (h : tree.write path content = .ok made) : endsAsDirectory path = false := by
  obtain ⟨place, hplace, _⟩ := write_eq_ok_iff.1 h
  exact ((filePlace_eq_ok_iff hwf).1 hplace).2.1

/-- Nothing lies below a place that is no directory. -/
theorem WellFormed.set (h : tree.WellFormed) {entry : Entry} {name : String}
    (hparent : tree.isDirectory place = true)
    (hplace : tree.isDirectory (place ++ [name]) = true → entry = .directory) :
    (tree.set (place ++ [name]) entry).WellFormed := by
  have hne : place ++ [name] ≠ [] := by simp
  have hkeeps : ∀ q, tree.isDirectory q = true →
      (tree.set (place ++ [name]) entry).isDirectory q = true := by
    intro q hq
    rw [isDirectory_iff, find?_set hne]
    by_cases hsame : q = place ++ [name]
    · subst hsame
      simp [hplace hq]
    · simpa [hsame] using isDirectory_iff.1 hq
  refine ⟨hkeeps _ h.here, fun q child hchild => hkeeps q ?_⟩
  rw [find?_set hne] at hchild
  by_cases hsame : q ++ [child] = place ++ [name]
  · obtain ⟨rfl, _⟩ := List.append_inj' hsame rfl
    exact hparent
  · rw [if_neg hsame] at hchild
    exact h.parent q child hchild

/-- A place at which a file can be written is a name in a directory. -/
theorem exists_parent_of_filePlace (hwf : tree.WellFormed) (h : tree.filePlace path = .ok q) :
    ∃ place name, q = place ++ [name] ∧ tree.isDirectory place = true := by
  obtain ⟨_, hfile, hway, rfl, _⟩ := (filePlace_eq_ok_iff hwf).1 h
  obtain ⟨front, name, hname⟩ := exists_leadsToName hfile tree.here
  refine ⟨placeFrom (originOf tree.here path) front, name, hname.place, hway _ ?_⟩
  simp [hname.way]

/-- A file that is written is at the place of its path, and nothing else changes. -/
theorem write_spec (hwf : tree.WellFormed) {content : Content}
    (h : tree.write path content = .ok made) :
    made.here = tree.here ∧ made.installed = tree.installed ∧ made.WellFormed ∧
      ∀ q, made.find? q =
        if q = placeOf tree.here path then some (.file content) else tree.find? q := by
  obtain ⟨place, hplace, rfl⟩ := write_eq_ok_iff.1 h
  obtain ⟨_, _, _, hq, hfree⟩ := (filePlace_eq_ok_iff hwf).1 hplace
  obtain ⟨parent, name, rfl, hparent⟩ := exists_parent_of_filePlace hwf hplace
  refine ⟨rfl, rfl, hwf.set hparent (by simp [hfree]), fun q => ?_⟩
  rw [find?_set (by simp), hq]

end RoutingRules.FileTree
