import RoutingRules.Proofs.Files.Tree

/-!
# Making directories

A directory is made together with its parents, each of them where nothing was.  Whether that can be
done does not depend on which of them are there already, but only on files that are in the way, with
one exception: what stands in front of a dot at the end of a path is not made.

Main results:

- Theorem {lit}`makesOnly_makePath`: making a directory makes directories on its path only.
- Theorem {lit}`isDirectory_of_makePath`: a directory that is made is there, with all on its path.
- Theorem {lit}`makePath_eq_ok_iff`: which directories can be made.
-/

namespace RoutingRules.FileTree

open Files

variable {tree made : FileTree} {place q : Place} {path part : String} {parts : List String}

/-! ## Trees with more directories -/

/-- Directories were made at some places at which nothing was; everything else is as before. -/
structure MakesOnly (places : List Place) (tree made : FileTree) : Prop where
  here : made.here = tree.here
  installed : made.installed = tree.installed
  wellFormed : made.WellFormed
  find : ∀ q, made.find? q = tree.find? q ∨
    q ∈ places ∧ tree.find? q = none ∧ made.find? q = some .directory

namespace MakesOnly

variable {places others : List Place} {next : FileTree}

theorem refl (hwf : tree.WellFormed) : MakesOnly places tree tree :=
  ⟨rfl, rfl, hwf, fun _ => .inl rfl⟩

theorem mono (h : MakesOnly places tree made) (hsub : places ⊆ others) :
    MakesOnly others tree made := by
  refine ⟨h.here, h.installed, h.wellFormed, fun q => ?_⟩
  rcases h.find q with hsame | ⟨hq, hmade⟩
  · exact .inl hsame
  · exact .inr ⟨hsub hq, hmade⟩

theorem trans (h : MakesOnly places tree made) (h' : MakesOnly places made next) :
    MakesOnly places tree next := by
  refine ⟨h'.here.trans h.here, h'.installed.trans h.installed, h'.wellFormed, fun q => ?_⟩
  rcases h.find q with hsame | ⟨hq, hnone, hdir⟩
  · rw [← hsame]
    exact h'.find q
  · right
    refine ⟨hq, hnone, ?_⟩
    rcases h'.find q with hsame' | ⟨_, hnone', _⟩
    · rw [hsame', hdir]
    · rw [hdir] at hnone'
      cases hnone'

theorem isDirectory (h : MakesOnly places tree made) (hdir : tree.isDirectory q = true) :
    made.isDirectory q = true := by
  rw [isDirectory_iff] at *
  rcases h.find q with hsame | ⟨_, hnone, _⟩
  · rw [hsame, hdir]
  · rw [hdir] at hnone
    cases hnone

/-- What is free afterwards was free before. -/
theorem isFree_iff (h : MakesOnly places tree made) : made.IsFree q ↔ tree.IsFree q := by
  unfold IsFree
  rcases h.find q with hsame | ⟨_, hnone, hdir⟩
  · rw [hsame]
  · simp [hnone, hdir]

end MakesOnly

/-- Names behind which only empty parts are left out fit if the others do. -/
theorem usable_iff_partsOf :
    Usable path ↔ checkPath path = .ok () ∧ ∀ part ∈ partsOf path, Fits part := by
  obtain ⟨blanks, hpieces, hempty⟩ := exists_pieces_eq path
  constructor
  · intro h
    refine ⟨h.check, fun part hpart => h.fits part ?_⟩
    simp [hpieces, hpart]
  · rintro ⟨hcheck, hfits⟩
    refine ⟨hcheck, fun part hpart => ?_⟩
    rw [hpieces, List.mem_append] at hpart
    rcases hpart with hpart | hpart
    · exact hfits part hpart
    · exact fits_of_dots (.inl (hempty part hpart))

/-- Where a path without empty parts at its end passes directories, so does the whole path if it
leads to one. -/
theorem leadsToDirectory_of_way (hwf : tree.WellFormed) (husable : Usable path)
    (hway : ∀ s ∈ wayFrom (originOf tree.here path) (partsOf path), tree.isDirectory s = true)
    (hplace : tree.isDirectory (placeOf tree.here path) = true) :
    tree.leadsToDirectory path = true := by
  rw [leadsToDirectory_iff hwf]
  refine ⟨husable, fun s hs => ?_⟩
  obtain ⟨blanks, hpieces, hempty⟩ := exists_pieces_eq path
  have hblanks : Blank blanks := fun part hpart => .inl (hempty part hpart)
  rw [visited, wayOf, hpieces, wayFrom_append, placeFrom_partsOf] at hs
  simp only [List.mem_append, List.mem_singleton] at hs
  rcases hs with (hs | hs) | hs
  · exact hway s hs
  · rw [hblanks.mem_wayFrom hs]
    exact hplace
  · rw [hs]
    exact hplace

section LastPart

variable {front : List String} {last : String} (hparts : partsOf path = front ++ [last])
include hparts

/-- A path whose last part is a name leads to this name. -/
theorem placeOf_of_partsOf (hname : ¬(last = "." ∨ last = "..")) (here : Place) :
    placeOf here path = placeFrom (originOf here path) front ++ [last] := by
  have hempty := ne_empty_of_partsOf hparts
  rw [not_or] at hname
  rw [← placeFrom_partsOf, hparts, placeFrom_append]
  simp [placeFrom, enter, hempty, hname]

/-- Whether a directory can be made is decided by the last part of its path, when the others can be
followed. -/
theorem makeDirectory_eq (hcheck : checkPath path = .ok ())
    (hfold : front.foldlM tree.step (originOf tree.here path) = .ok place) :
    tree.makeDirectory path =
      if last = "." ∨ last = ".." then
        .error (if tree.isDirectory place then .alreadyExists else .notADirectory)
      else (tree.child place last).bind fun q =>
        if (tree.find? q).isSome then .error .alreadyExists else .ok (tree.set q .directory) := by
  simp only [makeDirectory, hcheck, hparts, origin_eq, List.dropLast_concat, List.getLast?_concat,
    hfold, bind, Except.bind, Bool.or_eq_true, decide_eq_true_eq]
  split
  · split <;> rfl
  · rfl

end LastPart

/-- A directory is made at the place of its path, where nothing was. -/
theorem makeDirectory_spec (hwf : tree.WellFormed) (h : tree.makeDirectory path = .ok made) :
    Usable path ∧ ¬EndsInDot path ∧
      (∀ s ∈ wayFrom (originOf tree.here path) (partsOf path), tree.isDirectory s = true) ∧
      MakesOnly [placeOf tree.here path] tree made ∧
      made.isDirectory (placeOf tree.here path) = true := by
  obtain ⟨_, hcheck, hrest⟩ := Except.bind_eq_ok_iff.1 h
  obtain ⟨parent, hfold, hrest⟩ := Except.bind_eq_ok_iff.1 hrest
  rcases List.eq_nil_or_concat (partsOf path) with hnil | ⟨front, last, hparts⟩
  · simp only [hnil, List.getLast?_nil] at hrest
    cases hrest
  rw [List.concat_eq_append] at hparts
  rw [hparts, List.dropLast_concat, origin_eq] at hfold
  obtain ⟨rfl, hway, hfits, _⟩ := (foldlM_step_eq_ok_iff hwf).1 hfold
  rw [makeDirectory_eq hparts hcheck hfold] at h
  split at h
  · cases h
  next hname =>
    obtain ⟨place, hchild, h⟩ := Except.bind_eq_ok_iff.1 h
    obtain ⟨hdir, hlast, rfl⟩ := child_eq_ok_iff.1 hchild
    split at h
    · cases h
    next hnone =>
      cases h
      have hplace := placeOf_of_partsOf hparts hname tree.here
      have hfind : ∀ q, (tree.set (placeOf tree.here path) .directory).find? q =
          if q = placeOf tree.here path then some .directory else tree.find? q :=
        find?_set (by simp [hplace])
      rw [not_or] at hname
      rw [hplace] at hfind ⊢
      refine ⟨usable_iff_partsOf.2 ⟨hcheck, ?_⟩, ?_, ?_, ⟨rfl, rfl, hwf.set hdir (fun _ => rfl), ?_⟩, ?_⟩
      · simpa [hparts, or_imp, forall_and] using ⟨hfits, hlast⟩
      · simp [EndsInDot, hparts, hname]
      · simpa [hparts, wayFrom_append, wayFrom, or_imp, forall_and] using ⟨hway, hdir⟩
      · intro q
        rw [hfind]
        by_cases hq : q = placeFrom (originOf tree.here path) front ++ [last]
        · subst hq
          exact .inr ⟨by simp, Option.not_isSome_iff_eq_none.1 hnone, by simp⟩
        · simp [hq]
      · simp [isDirectory_iff, hfind]

/-- Where the way is one of directories and no file is at its end, a directory can be made or is
there. -/
theorem makeDirectory_of_way (hwf : tree.WellFormed) (husable : Usable path)
    (hway : ∀ s ∈ wayFrom (originOf tree.here path) (partsOf path), tree.isDirectory s = true)
    (hfree : tree.IsFree (placeOf tree.here path)) :
    (∃ made, tree.makeDirectory path = .ok made) ∨
      tree.makeDirectory path = .error .alreadyExists ∧ tree.leadsToDirectory path = true := by
  obtain ⟨hcheck, hfits⟩ := usable_iff_partsOf.1 husable
  have hleads := leadsToDirectory_of_way hwf husable hway
  rcases List.eq_nil_or_concat (partsOf path) with hnil | ⟨front, last, hparts⟩
  · right
    have hthere : tree.isDirectory (placeOf tree.here path) = true := by
      rw [← placeFrom_partsOf, hnil]
      exact hwf.origin path
    refine ⟨?_, hleads hthere⟩
    simp [makeDirectory, hcheck, hnil]
    rfl
  rw [List.concat_eq_append] at hparts
  rw [hparts] at hway hfits
  simp only [wayFrom_append, wayFrom, List.mem_append, List.mem_singleton, or_imp, forall_and,
    forall_eq] at hway hfits
  obtain ⟨hway, hdir⟩ := hway
  have hfold : front.foldlM tree.step (originOf tree.here path) =
      .ok (placeFrom (originOf tree.here path) front) :=
    (foldlM_step_eq_ok_iff hwf).2 ⟨rfl, hway, hfits.1, fun _ => isSome_of_isDirectory hdir⟩
  rw [makeDirectory_eq hparts hcheck hfold]
  by_cases hdots : last = "." ∨ last = ".."
  · right
    rw [if_pos hdots, if_pos hdir]
    refine ⟨rfl, hleads ?_⟩
    rw [← placeFrom_partsOf, hparts, placeFrom_append]
    rcases hdots with rfl | rfl
    · simpa [placeFrom, enter] using hdir
    · simpa [placeFrom, enter] using hwf.dropLast (isSome_of_isDirectory hdir)
  rw [if_neg hdots, child_eq_ok_iff.2 ⟨hdir, hfits.2, rfl⟩,
    ← placeOf_of_partsOf hparts hdots tree.here]
  cases hfound : (tree.find? (placeOf tree.here path)).isSome with
  | true => exact .inr ⟨by simp [Except.bind, hfound], hleads (isDirectory_of_isFree hfree hfound)⟩
  | false => exact .inl ⟨_, by simp [Except.bind, hfound]; rfl⟩

/-- A part that does not lead anywhere is missing. -/
theorem step_of_missing (hwf : tree.WellFormed) (hplace : tree.isDirectory place = true)
    (hfits : Fits part) (hnone : (tree.find? (enter place part)).isSome = false) :
    tree.step place part = .error .notFound := by
  by_cases hdots : part = "" ∨ part = "." ∨ part = ".."
  · rw [isSome_enter_of_dots hwf hdots hplace] at hnone
    cases hnone
  · simp only [not_or] at hdots
    have hchild : tree.child place part = .ok (place ++ [part]) :=
      child_eq_ok_iff.2 ⟨hplace, hfits, rfl⟩
    rw [show enter place part = place ++ [part] by simp [enter, hdots]] at hnone
    simp only [step, hdots, hchild]
    simp [bind, Except.bind, hnone]

/-- Where no file is on the way, a missing directory is the only thing that can stop a path. -/
theorem foldlM_step_of_free (hwf : tree.WellFormed) (hplace : tree.isDirectory place = true)
    (hfits : ∀ part ∈ parts, Fits part)
    (hfree : ∀ s ∈ wayFrom place parts ++ [placeFrom place parts], tree.IsFree s) :
    (∀ s ∈ wayFrom place parts ++ [placeFrom place parts], tree.isDirectory s = true) ∨
      parts.foldlM tree.step place = .error .notFound := by
  induction parts generalizing place with
  | nil =>
    left
    intro s hs
    obtain rfl : s = place := by simpa [wayFrom, placeFrom] using hs
    exact hplace
  | cons part parts ih =>
    rw [List.forall_mem_cons] at hfits
    simp only [wayFrom, List.cons_append, List.forall_mem_cons] at hfree ⊢
    have hnext : tree.IsFree (enter place part) := by
      apply hfree.2
      rcases parts with _ | ⟨other, parts⟩ <;> simp [wayFrom, placeFrom]
    cases hfound : (tree.find? (enter place part)).isSome with
    | true =>
      have hstep := (step_eq_ok_iff hwf).2 ⟨hplace, hfits.1, rfl, hfound⟩
      rcases ih (isDirectory_of_isFree hnext hfound) hfits.2 hfree.2 with hdirs | herror
      · exact .inl ⟨hplace, hdirs⟩
      · right
        rw [List.foldlM_cons, hstep]
        exact herror
    | false =>
      right
      rw [List.foldlM_cons, step_of_missing hwf hplace hfits.1 hfound]
      rfl

/-! ## Making directories with their parents -/

/-- A directory is made or found when that is what is said, and what was made stays otherwise. -/
theorem ensureDirectory_spec (hwf : tree.WellFormed) (path : String) :
    MakesOnly [placeOf tree.here path] tree (tree.ensureDirectory path).1 ∧
      ((tree.ensureDirectory path).2 = .ok () → Usable path ∧
        ∀ s ∈ visited tree.here path, (tree.ensureDirectory path).1.isDirectory s = true) := by
  unfold ensureDirectory
  cases hmake : tree.makeDirectory path with
  | ok made =>
    obtain ⟨husable, _, hway, honly, hplace⟩ := makeDirectory_spec hwf hmake
    refine ⟨honly, fun _ => ⟨husable, ?_⟩⟩
    rw [← honly.here] at hway hplace ⊢
    exact ((leadsToDirectory_iff honly.wellFormed).1 (leadsToDirectory_of_way honly.wellFormed husable
      (fun s hs => honly.isDirectory (hway s hs)) hplace)).2
  | error fault =>
    refine ⟨.refl hwf, fun h => ?_⟩
    have hleads : tree.leadsToDirectory path = true := by
      by_contra hnot
      simp [hnot] at h
    exact (leadsToDirectory_iff hwf).1 hleads

/-- Parents are only made when the parent of a directory is missing. -/
theorem makeAll_cons_of_ne {parents : List String}
    (h : tree.makeDirectory path ≠ .error .notFound) :
    tree.makeAll (path :: parents) = tree.ensureDirectory path := by
  unfold makeAll ensureDirectory
  split
  next hmake => rw [hmake]
  next hmake => exact absurd hmake h
  next hmake => rw [hmake]

/-- Where the parent of a directory is missing, parents are made before it. -/
theorem makeAll_cons_of_notFound {parents : List String}
    (h : tree.makeDirectory path = .error .notFound) :
    tree.makeAll (path :: parents) =
      match tree.makeAll parents with
      | (made, .ok ()) => made.ensureDirectory path
      | (made, .error fault) => (made, .error fault) := by
  rcases hparents : tree.makeAll parents with ⟨made, fault | _⟩ <;> simp [makeAll, h, hparents]

/-- Directories are made at the places of the given paths only, and the first one is there if that
is what is said. -/
theorem makeAll_spec (hwf : tree.WellFormed) (paths : List String) :
    MakesOnly (paths.map (placeOf tree.here)) tree (tree.makeAll paths).1 ∧
      ∀ path ∈ paths.head?, (tree.makeAll paths).2 = .ok () → Usable path ∧
        ∀ s ∈ visited tree.here path, (tree.makeAll paths).1.isDirectory s = true := by
  induction paths with
  | nil => exact ⟨.refl hwf, by simp⟩
  | cons path parents ih =>
    simp only [List.map_cons, List.head?_cons, Option.mem_def, Option.some.injEq, forall_eq']
    by_cases hmake : tree.makeDirectory path = .error .notFound
    · rw [makeAll_cons_of_notFound hmake]
      have hmade := ih.1.mono (List.subset_cons_self (placeOf tree.here path) _)
      rcases hall : tree.makeAll parents with ⟨made, answer | ⟨⟩⟩
      · rw [hall] at hmade
        exact ⟨hmade, nofun⟩
      · rw [hall] at hmade
        obtain ⟨honly, hthere⟩ := ensureDirectory_spec hmade.wellFormed path
        rw [hmade.here] at honly hthere
        exact ⟨hmade.trans (honly.mono (by simp)), hthere⟩
    · rw [makeAll_cons_of_ne hmake]
      obtain ⟨honly, hthere⟩ := ensureDirectory_spec hwf path
      exact ⟨honly.mono (by simp), hthere⟩

/-- A path and its parents only visit places that the path visits. -/
theorem visited_subset_of_mem_withParents {here : Place} {steps : Nat} {parent : String}
    (h : parent ∈ withParents steps path) : visited here parent ⊆ visited here path := by
  induction steps generalizing path with
  | zero => simp [withParents] at h
  | succ steps ih =>
    unfold withParents at h
    split at h
    · simp at h
    · split at h
      next first hfirst =>
        rcases List.mem_cons.1 h with rfl | h
        · exact List.Subset.refl _
        · exact List.Subset.trans (ih h) fun s hs =>
            (mem_visited_iff_of_parent hfirst).2 (.inl hs)
      next =>
        obtain rfl := List.mem_singleton.1 h
        exact List.Subset.refl _

theorem placeOf_mem_visited (here : Place) (path : String) :
    placeOf here path ∈ visited here path := by
  simp [visited]

/-- Making a directory makes directories on its path only. -/
theorem makesOnly_makePath (hwf : tree.WellFormed) (path : String) :
    MakesOnly (visited tree.here path) tree (tree.makePath path).1 := by
  refine (makeAll_spec hwf _).1.mono fun place hplace => ?_
  obtain ⟨parent, hparent, rfl⟩ := List.mem_map.1 hplace
  exact visited_subset_of_mem_withParents hparent (placeOf_mem_visited _ _)

theorem head?_withParents (hne : path ≠ "") (steps : Nat) :
    (withParents (steps + 1) path).head? = some path := by
  unfold withParents
  rw [if_neg hne]
  cases parent? path <;> rfl

/-- The empty path visits the working directory. -/
theorem visited_empty (here : Place) : ∀ s ∈ visited here "", s = here := by
  have hpieces : Text.pieces '/' "" = [""] := by decide
  have horigin : originOf here "" = here := by simp [originOf, isAbsolute]
  intro s hs
  simpa [visited, wayOf, placeOf, hpieces, horigin, wayFrom, placeFrom, enter] using hs

/-- A directory that is made is there, with all that its path visits. -/
theorem isDirectory_of_makePath (hwf : tree.WellFormed)
    (h : (tree.makePath path).2 = .ok ()) :
    ∀ s ∈ visited tree.here path, (tree.makePath path).1.isDirectory s = true := by
  by_cases hne : path = ""
  · subst hne
    intro s hs
    rw [visited_empty _ s hs]
    exact (makesOnly_makePath hwf "").isDirectory hwf.here
  · exact ((makeAll_spec hwf _).2 path (head?_withParents hne _) h).2

/-- A parent can be used like its path, unless it is empty. -/
theorem usable_of_parent {parent : String} (hparent : parent? path = some parent)
    (husable : Usable path) (hne : parent ≠ "") : Usable parent := by
  obtain ⟨rest, hpath, _⟩ := exists_suffix_of_parent hparent
  refine ⟨?_, fun part hpart => ?_⟩
  · have hcheck := husable.check
    unfold checkPath at hcheck ⊢
    split at hcheck
    · cases hcheck
    next hnul =>
      split at hcheck
      · cases hcheck
      · split at hcheck
        · cases hcheck
        next hlong =>
          rw [hpath, String.toList_append, List.mem_append, not_or] at hnul
          rw [hpath, String.utf8ByteSize_append] at hlong
          rw [if_neg hnul.1, if_neg hne, if_neg (by omega)]
  · rcases mem_pieces_of_parent hparent hpart with rfl | hpart
    · exact fits_of_dots (.inl rfl)
    · exact husable.fits part hpart

/-- Whether a path that ends in a dot leads to where its parents lead anyway.  When a path ends in a
dot, the directory in front of the dot is not made. -/
def CoversDot (here : Place) (path : String) : Prop :=
  ∃ parent, parent? path = some parent ∧ placeOf here path ∈ visited here parent

/-- What a path needs for its directory to be made: no file on the way, and in front of a dot at
its end a directory. -/
structure Makeable (tree : FileTree) (path : String) : Prop where
  usable : Usable path
  free : ∀ s ∈ visited tree.here path, tree.IsFree s
  dot : EndsInDot path →
    tree.isDirectory (placeOf tree.here path) = true ∨ CoversDot tree.here path

/-- The directory of a path can be made once its parent is there. -/
theorem ensureDirectory_of_way (hwf : tree.WellFormed) (husable : Usable path)
    (hway : ∀ s ∈ wayFrom (originOf tree.here path) (partsOf path), tree.isDirectory s = true)
    (hfree : tree.IsFree (placeOf tree.here path)) : (tree.ensureDirectory path).2 = .ok () := by
  unfold ensureDirectory
  rcases makeDirectory_of_way hwf husable hway hfree with ⟨made, hmade⟩ | ⟨hexists, hleads⟩
  · rw [hmade]
  · simp [hexists, hleads]

/-- Nothing but a missing parent keeps a directory from being made or found. -/
theorem ensureDirectory_of_free (hwf : tree.WellFormed) (husable : Usable path)
    (hfree : ∀ s ∈ visited tree.here path, tree.IsFree s)
    (h : tree.makeDirectory path ≠ .error .notFound) : (tree.ensureDirectory path).2 = .ok () := by
  obtain ⟨hcheck, hfits⟩ := usable_iff_partsOf.1 husable
  refine ensureDirectory_of_way hwf husable ?_ (hfree _ (placeOf_mem_visited _ _))
  rcases List.eq_nil_or_concat (partsOf path) with hnil | ⟨front, last, hparts⟩
  · simp [hnil, wayFrom]
  rw [List.concat_eq_append] at hparts
  rw [hparts] at hfits
  have hway : wayFrom (originOf tree.here path) (partsOf path) =
      wayFrom (originOf tree.here path) front ++ [placeFrom (originOf tree.here path) front] := by
    simp [hparts, wayFrom_append, wayFrom]
  rw [hway]
  have hfree' : ∀ s ∈ wayFrom (originOf tree.here path) front ++
      [placeFrom (originOf tree.here path) front], tree.IsFree s := by
    intro s hs
    rw [← hway] at hs
    exact hfree s (wayFrom_partsOf_subset hs)
  rcases foldlM_step_of_free hwf (hwf.origin path) (fun part hpart => hfits part (by simp [hpart]))
    hfree' with hdirs | herror
  · exact hdirs
  · exfalso
    apply h
    simp only [makeDirectory, hcheck, hparts, List.dropLast_concat, origin_eq, herror]
    rfl

/-- Once the parent of a path is there, everything on the way to its last part is. -/
theorem isDirectory_of_parent {parent : String} (hparent : parent? path = some parent)
    (hmade : ∀ s ∈ visited tree.here parent, tree.isDirectory s = true)
    (hdot : EndsInDot path →
      tree.isDirectory (placeOf tree.here path) = true ∨ CoversDot tree.here path) :
    ∀ s ∈ wayFrom (originOf tree.here path) (partsOf path), tree.isDirectory s = true := by
  intro s hs
  by_cases hends : EndsInDot path
  · rcases (mem_visited_iff_of_parent hparent).1 (wayFrom_partsOf_subset hs) with hs | rfl
    · exact hmade s hs
    · rcases hdot hends with hdir | ⟨parent', hparent', hcovers⟩
      · exact hdir
      · rw [hparent] at hparent'
        cases hparent'
        exact hmade _ hcovers
  · exact hmade s (mem_visited_of_parent hparent hends hs)

/-- The parent of a path whose directory can be made can be made itself. -/
theorem Makeable.parent {parent : String} (h : tree.Makeable path) (hwf : tree.WellFormed)
    (hparent : parent? path = some parent) (hne : parent ≠ "") : tree.Makeable parent where
  usable := usable_of_parent hparent h.usable hne
  free s hs := h.free s ((mem_visited_iff_of_parent hparent).2 (.inl hs))
  dot hdot := by
    left
    rw [placeOf_of_parent_endsInDot hparent hdot]
    exact hwf.origin path

/-- Once its parents are made, the directory of a path can be made. -/
theorem Makeable.ensureDirectory_of_parent {parent : String} {places : List Place}
    (h : tree.Makeable path) (hparent : parent? path = some parent)
    (honly : MakesOnly places tree made)
    (hdirs : ∀ s ∈ visited tree.here parent, made.isDirectory s = true) :
    (made.ensureDirectory path).2 = .ok () := by
  refine ensureDirectory_of_way honly.wellFormed h.usable ?_ ?_
  · rw [← honly.here] at hdirs
    refine isDirectory_of_parent hparent hdirs fun hdot => ?_
    rw [honly.here]
    exact (h.dot hdot).imp_left honly.isDirectory
  · rw [honly.here, honly.isFree_iff]
    exact h.free _ (placeOf_mem_visited tree.here path)

/-- A parent is there once it is made with its own parents, and so is the one without a name. -/
theorem isDirectory_of_makeAll {steps : Nat} {parent : String} (hsteps : parent.length < steps)
    (hwf : tree.WellFormed)
    (hmade : parent ≠ "" → (tree.makeAll (withParents steps parent)).2 = .ok ()) :
    (tree.makeAll (withParents steps parent)).2 = .ok () ∧
      ∀ s ∈ visited tree.here parent,
        (tree.makeAll (withParents steps parent)).1.isDirectory s = true := by
  obtain ⟨steps, rfl⟩ : ∃ k, steps = k + 1 := ⟨steps - 1, by omega⟩
  by_cases hempty : parent = ""
  · subst hempty
    refine ⟨rfl, fun s hs => ?_⟩
    rw [visited_empty _ s hs]
    exact hwf.here
  · have hthere := (makeAll_spec hwf (withParents (steps + 1) parent)).2 parent
      (head?_withParents hempty steps) (hmade hempty)
    exact ⟨hmade hempty, hthere.2⟩

/-- A directory can be made with its parents when no file is on the way. -/
theorem makeAll_withParents_ok {steps : Nat} (hsteps : path.length < steps) (hne : path ≠ "")
    (hwf : tree.WellFormed) (h : tree.Makeable path) :
    (tree.makeAll (withParents steps path)).2 = .ok () := by
  induction steps generalizing path with
  | zero => omega
  | succ steps ih =>
    unfold withParents
    rw [if_neg hne]
    by_cases hmake : tree.makeDirectory path = .error .notFound
    · cases hparent : parent? path with
      | none =>
        show (tree.makeAll [path]).2 = .ok ()
        rw [makeAll_cons_of_notFound hmake]
        refine ensureDirectory_of_way hwf h.usable (fun s hs => ?_)
          (h.free _ (placeOf_mem_visited tree.here path))
        rw [eq_originOf_of_no_parent hparent (wayFrom_partsOf_subset hs)]
        exact hwf.origin path
      | some parent =>
        have hshorter : parent.length < steps :=
          Nat.lt_of_lt_of_le (length_parent_lt hparent) (Nat.le_of_lt_succ hsteps)
        obtain ⟨hok, hdirs⟩ := isDirectory_of_makeAll hshorter hwf fun hempty =>
          ih hshorter hempty (h.parent hwf hparent hempty)
        have honly := (makeAll_spec hwf (withParents steps parent)).1
        show (tree.makeAll (path :: withParents steps parent)).2 = .ok ()
        rw [makeAll_cons_of_notFound hmake]
        rcases hall : tree.makeAll (withParents steps parent) with ⟨made, answer⟩
        rw [hall] at honly hok hdirs
        obtain rfl := hok
        exact h.ensureDirectory_of_parent hparent honly hdirs
    · have hensure := ensureDirectory_of_free hwf h.usable h.free hmake
      cases parent? path <;> (rw [makeAll_cons_of_ne hmake]; exact hensure)

/-- The directory in front of a dot is not made. -/
theorem ensureDirectory_of_endsInDot (hwf : tree.WellFormed) (hdot : EndsInDot path) :
    (tree.ensureDirectory path).1 = tree := by
  unfold ensureDirectory
  cases hmake : tree.makeDirectory path with
  | ok made => exact absurd hdot (makeDirectory_spec hwf hmake).2.1
  | error fault => rfl

/-- A directory in front of a dot that is there in the end was there before, or is on the way of the
parents. -/
theorem isDirectory_or_coversDot {steps : Nat} (hwf : tree.WellFormed) (hdot : EndsInDot path)
    (hthere : (tree.makeAll (withParents steps path)).1.isDirectory (placeOf tree.here path) = true) :
    tree.isDirectory (placeOf tree.here path) = true ∨ CoversDot tree.here path := by
  cases steps with
  | zero => exact .inl hthere
  | succ steps =>
    unfold withParents at hthere
    split at hthere
    · exact .inl hthere
    by_cases hmake : tree.makeDirectory path = .error .notFound
    · split at hthere
      next parent hparent =>
        rw [makeAll_cons_of_notFound hmake] at hthere
        have honly := (makeAll_spec hwf (withParents steps parent)).1
        have hmade : (tree.makeAll (withParents steps parent)).1.isDirectory
            (placeOf tree.here path) = true := by
          rcases hall : tree.makeAll (withParents steps parent) with ⟨made, answer | ⟨⟩⟩
          · simpa [hall] using hthere
          · rw [hall] at honly hthere
            simpa [ensureDirectory_of_endsInDot honly.wellFormed hdot] using hthere
        rcases honly.find (placeOf tree.here path) with hsame | ⟨hmem, _⟩
        · left
          rw [isDirectory_iff] at hmade ⊢
          rw [← hsame, hmade]
        · right
          obtain ⟨other, hother, hplace⟩ := List.mem_map.1 hmem
          refine ⟨parent, hparent, ?_⟩
          rw [← hplace]
          exact visited_subset_of_mem_withParents hother (placeOf_mem_visited _ _)
      next =>
        left
        rw [makeAll_cons_of_notFound hmake] at hthere
        simpa [makeAll, ensureDirectory_of_endsInDot hwf hdot] using hthere
    · left
      split at hthere <;>
        simpa [makeAll_cons_of_ne hmake, ensureDirectory_of_endsInDot hwf hdot] using hthere

/-- Which directories can be made. -/
theorem makePath_eq_ok_iff (hwf : tree.WellFormed) :
    (tree.makePath path).2 = .ok () ↔ path = "" ∨ tree.Makeable path := by
  by_cases hne : path = ""
  · simp only [hne, true_or, iff_true]
    rfl
  simp only [hne, false_or]
  constructor
  · intro h
    have honly := makesOnly_makePath hwf path
    have hdirs := isDirectory_of_makePath hwf h
    refine ⟨((makeAll_spec hwf _).2 path (head?_withParents hne _) h).1, fun s hs => ?_,
      fun hdot => isDirectory_or_coversDot hwf hdot (hdirs _ (placeOf_mem_visited _ _))⟩
    rw [← honly.isFree_iff]
    exact .inr (isDirectory_iff.1 (hdirs s hs))
  · exact makeAll_withParents_ok (by omega) hne hwf

end RoutingRules.FileTree
