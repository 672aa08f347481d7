import RoutingRules.Proofs.Files.Directories
import RoutingRules.Proofs.Files.Tool

/-!
# Trees that are alike

Two trees are alike when they differ only in files at some places and in directories that are at some
places in one of them and missing in the other; the same programs are installed.  What is found or done
at a path is the same in both as long as the path keeps away from these places.  A directory on the
way to a place does not matter where the place itself is the same: without the directory nothing is
there.

Main results:

- Theorem {lit}`Alike.locate`: paths lead to the same in both trees.
- Theorem {lit}`Alike.program`: a name stands for the same program in both trees.
- Theorem {lit}`Alike.write`: a file can be written in both trees, and they stay alike.
- Theorem {lit}`Alike.makePath`: a directory can be made in both trees, and no directory on its path
  is missing any more.
-/

namespace RoutingRules.FileTree

open Files

/-- Two trees differ only in files at some places and in directories at others. -/
structure Alike (file dir : Place → Prop) (tree other : FileTree) : Prop where
  here : tree.here = other.here
  installed : tree.installed = other.installed
  wellFormed : tree.WellFormed
  wellFormed' : other.WellFormed
  find : ∀ place, ¬file place → tree.find? place = other.find? place ∨
    dir place ∧ tree.IsFree place ∧ other.IsFree place

/-- The places on a path at which a new directory can be felt by whoever reads there: all but the
directories above the place that the path leads to. -/
def felt (here : Place) (path : String) : List Place :=
  (visited here path).filter fun s => ¬(s <+: placeOf here path ∧ s ≠ placeOf here path)

theorem mem_felt_iff {here s : Place} {path : String} :
    s ∈ felt here path ↔
      s ∈ visited here path ∧ ¬(s <+: placeOf here path ∧ s ≠ placeOf here path) := by
  simp only [felt, List.mem_filter, decide_eq_true_eq]

namespace Alike

variable {file dir : Place → Prop} {tree other : FileTree} {place : Place} {path : String}

theorem symm (h : Alike file dir tree other) : Alike file dir other tree where
  here := h.here.symm
  installed := h.installed.symm
  wellFormed := h.wellFormed'
  wellFormed' := h.wellFormed
  find place hplace := by
    rcases h.find place hplace with hsame | ⟨hdir, hfree, hfree'⟩
    · exact .inl hsame.symm
    · exact .inr ⟨hdir, hfree', hfree⟩

theorem refl (hwf : tree.WellFormed) : Alike file dir tree tree where
  here := rfl
  installed := rfl
  wellFormed := hwf
  wellFormed' := hwf
  find _ _ := .inl rfl

theorem trans {next : FileTree} (h : Alike file dir tree other) (h' : Alike file dir other next) :
    Alike file dir tree next where
  here := h.here.trans h'.here
  installed := h.installed.trans h'.installed
  wellFormed := h.wellFormed
  wellFormed' := h'.wellFormed'
  find place hplace := by
    rcases h.find place hplace with hsame | ⟨hdir, hfree, hfree'⟩
    · unfold IsFree
      rw [hsame]
      exact h'.find place hplace
    · refine .inr ⟨hdir, hfree, ?_⟩
      rcases h'.find place hplace with hsame | ⟨_, _, hfree''⟩
      · rwa [IsFree, ← hsame]
      · exact hfree''

theorem mono {dir' : Place → Prop} (h : Alike file dir tree other)
    (hsub : ∀ s, dir s → dir' s) : Alike file dir' tree other where
  here := h.here
  installed := h.installed
  wellFormed := h.wellFormed
  wellFormed' := h.wellFormed'
  find s hs := (h.find s hs).imp_right fun ⟨hdir, hfree⟩ => ⟨hsub s hdir, hfree⟩

theorem find_eq (h : Alike file dir tree other) (hfile : ¬file place) (hdir : ¬dir place) :
    tree.find? place = other.find? place := by
  rcases h.find place hfile with hsame | ⟨hplace, _⟩
  · exact hsame
  · exact absurd hplace hdir

theorem isFree_iff (h : Alike file dir tree other) (hfile : ¬file place) :
    tree.IsFree place ↔ other.IsFree place := by
  rcases h.find place hfile with hsame | ⟨_, hfree, hfree'⟩
  · rw [IsFree, IsFree, hsame]
  · exact iff_of_true hfree hfree'

/-! ## Reading -/

/-- Paths lead to the same in both trees. -/
theorem locate (h : Alike file dir tree other) (hfile : ∀ s ∈ visited tree.here path, ¬file s)
    (hdir : ∀ s ∈ felt tree.here path, ¬dir s) {q : Place} (hlocate : tree.locate path = .ok q) :
    other.locate path = .ok q ∧ tree.find? q = other.find? q := by
  obtain ⟨husable, hway, hq, hfound⟩ := (locate_eq_ok_iff h.wellFormed).1 hlocate
  have hplace : tree.find? q = other.find? q := by
    subst hq
    refine h.find_eq (hfile _ (placeOf_mem_visited _ _)) (hdir _ ?_)
    rw [mem_felt_iff]
    exact ⟨placeOf_mem_visited _ _, by simp⟩
  have hfound' : (other.find? q).isSome = true := by rw [← hplace, hfound]
  refine ⟨(locate_eq_ok_iff h.wellFormed').2 ⟨husable, ?_, ?_, hfound'⟩, hplace⟩
  · rw [← h.here]
    intro s hs
    have hvisited : s ∈ visited tree.here path := List.mem_append_left _ hs
    by_cases hfelt : s ∈ felt tree.here path
    · have hsame := h.find_eq (hfile s hvisited) (hdir s hfelt)
      rw [isDirectory_iff, ← hsame, ← isDirectory_iff]
      exact hway s hs
    · -- The place of the path is below: something is there, so the directory above it is.
      rw [mem_felt_iff, not_and, not_not] at hfelt
      obtain ⟨hbelow, hne⟩ := hfelt hvisited
      rw [← hq] at hbelow hne
      exact h.wellFormed'.isDirectory_of_isPrefix hfound' hbelow hne
  · rw [← h.here, hq]

section Reading

variable (h : Alike file dir tree other) (hfile : ∀ s ∈ visited tree.here path, ¬file s)
  (hdir : ∀ s ∈ felt tree.here path, ¬dir s)

include h hfile hdir

/-- Both trees have the same at the end of a path, if anything. -/
theorem locate_cases :
    (∃ q, tree.locate path = .ok q ∧ other.locate path = .ok q ∧ tree.find? q = other.find? q) ∨
      ∃ fault fault', tree.locate path = .error fault ∧ other.locate path = .error fault' := by
  cases hlocate : tree.locate path with
  | ok q =>
    obtain ⟨hother, hsame⟩ := h.locate hfile hdir hlocate
    exact .inl ⟨q, rfl, hother, hsame⟩
  | error fault =>
    right
    cases hother : other.locate path with
    | ok q =>
      rw [h.here] at hfile hdir
      obtain ⟨htree, _⟩ := h.symm.locate hfile hdir hother
      rw [hlocate] at htree
      cases htree
    | error fault' => exact ⟨fault, fault', rfl, rfl⟩

theorem read : (tree.read path).toOption = (other.read path).toOption := by
  rcases h.locate_cases hfile hdir with ⟨q, htree, hother, hsame⟩ | ⟨_, _, htree, hother⟩
  · simp only [FileTree.read, htree, hother, bind, Except.bind, hsame]
  · simp only [FileTree.read, htree, hother, bind, Except.bind]
    rfl

theorem size : (tree.size path).toOption = (other.size path).toOption := by
  rcases h.locate_cases hfile hdir with ⟨q, htree, hother, hsame⟩ | ⟨_, _, htree, hother⟩
  · simp only [FileTree.size, htree, hother, bind, Except.bind, hsame]
  · simp only [FileTree.size, htree, hother, bind, Except.bind]
    rfl

/-- Whoever looks at a path finds the same in both trees. -/
theorem look : tree.look path = other.look path := by
  unfold FileTree.look
  rcases h.locate_cases hfile hdir with ⟨q, htree, hother, hsame⟩ | ⟨_, _, htree, hother⟩
  · simp only [htree, hother, Except.toOption, Option.bind_some, hsame]
  · simp only [htree, hother, Except.toOption, Option.bind_none]

end Reading

/-- A name stands for the same program in both trees. -/
theorem program (h : Alike file dir tree other) {name : String}
    (hfile : '/' ∈ name.toList → ∀ s ∈ visited tree.here name, ¬file s)
    (hdir : '/' ∈ name.toList → ∀ s ∈ felt tree.here name, ¬dir s) :
    (tree.program name).toOption = (other.program name).toOption := by
  unfold FileTree.program
  by_cases hnul : '\x00' ∈ name.toList
  · simp [hnul]
  by_cases hslash : '/' ∈ name.toList
  · simp only [hnul, hslash, not_true_eq_false, if_false]
    rcases h.locate_cases (hfile hslash) (hdir hslash) with
      ⟨q, htree, hother, hsame⟩ | ⟨_, _, htree, hother⟩
    · simp only [htree, hother, bind, Except.bind, hsame]
    · simp only [htree, hother, bind, Except.bind]
      rfl
  · rw [if_neg hnul, if_pos hslash, if_neg hnul, if_pos hslash, h.installed]

/-! ## Writing -/

/-- A file can be written at the same place of both trees. -/
theorem filePlace (h : Alike file dir tree other) (hfile : ∀ s ∈ visited tree.here path, ¬file s)
    (hdir : ∀ s ∈ visited tree.here path, ¬dir s) {q : Place}
    (hplace : tree.filePlace path = .ok q) : other.filePlace path = .ok q := by
  obtain ⟨husable, hends, hway, hq, hfree⟩ := (filePlace_eq_ok_iff h.wellFormed).1 hplace
  have hsame : ∀ s ∈ visited tree.here path, tree.find? s = other.find? s := fun s hs =>
    h.find_eq (hfile s hs) (hdir s hs)
  have hdirectory : ∀ s ∈ visited tree.here path, tree.isDirectory s = other.isDirectory s := by
    intro s hs
    rw [Bool.eq_iff_iff, isDirectory_iff, isDirectory_iff, hsame s hs]
  rw [filePlace_eq_ok_iff h.wellFormed', ← h.here]
  refine ⟨husable, hends, fun s hs => ?_, hq, ?_⟩
  · rw [← hdirectory s (List.mem_append_left _ hs)]
    exact hway s hs
  · rw [← hdirectory q (hq ▸ placeOf_mem_visited _ _)]
    exact hfree

theorem canWrite (h : Alike file dir tree other) (hfile : ∀ s ∈ visited tree.here path, ¬file s)
    (hdir : ∀ s ∈ visited tree.here path, ¬dir s) : tree.canWrite path = other.canWrite path := by
  rw [Bool.eq_iff_iff, canWrite_iff, canWrite_iff]
  constructor
  · rintro ⟨q, hplace⟩
    exact ⟨q, h.filePlace hfile hdir hplace⟩
  · rintro ⟨q, hplace⟩
    exact ⟨q, h.symm.filePlace (h.here ▸ hfile) (h.here ▸ hdir) hplace⟩

/-- A file can be written in both trees, and they stay alike. -/
theorem write (h : Alike file dir tree other) (hfile : ∀ s ∈ visited tree.here path, ¬file s)
    (hdir : ∀ s ∈ visited tree.here path, ¬dir s) {content : Content} {made : FileTree}
    (hwrite : tree.write path content = .ok made) :
    ∃ made', other.write path content = .ok made' ∧ Alike file dir made made' := by
  obtain ⟨q, hplace, _⟩ := write_eq_ok_iff.1 hwrite
  have hother : other.write path content = _ :=
    write_eq_ok_iff.2 ⟨q, h.filePlace hfile hdir hplace, rfl⟩
  refine ⟨_, hother, ?_⟩
  obtain ⟨hhere, hinstalled, hwf, hfind⟩ := write_spec h.wellFormed hwrite
  obtain ⟨hhere', hinstalled', hwf', hfind'⟩ := write_spec h.wellFormed' hother
  refine ⟨hhere.trans (h.here.trans hhere'.symm),
    hinstalled.trans (h.installed.trans hinstalled'.symm), hwf, hwf', fun s hs => ?_⟩
  unfold IsFree
  rw [hfind, hfind', ← h.here]
  split
  · exact .inl rfl
  · exact h.find s hs

/-- A file can be written in both trees or in none. -/
theorem write_error (h : Alike file dir tree other) (hfile : ∀ s ∈ visited tree.here path, ¬file s)
    (hdir : ∀ s ∈ visited tree.here path, ¬dir s) {content : Content} {fault : Fault}
    (hwrite : tree.write path content = .error fault) :
    ∃ fault', other.write path content = .error fault' := by
  cases hother : other.write path content with
  | error fault' => exact ⟨fault', rfl⟩
  | ok made =>
    rw [h.here] at hfile hdir
    obtain ⟨made', htree, _⟩ := h.symm.write hfile hdir hother
    rw [hwrite] at htree
    cases htree

/-! ## Making directories -/

/-- A directory can be made in both trees. -/
theorem makePath_ok (h : Alike file dir tree other) (hfile : ∀ s ∈ visited tree.here path, ¬file s)
    (hdot : EndsInDot path → ¬dir (placeOf tree.here path))
    (hmake : (tree.makePath path).2 = .ok ()) : (other.makePath path).2 = .ok () := by
  rw [makePath_eq_ok_iff h.wellFormed'] at ⊢
  rcases (makePath_eq_ok_iff h.wellFormed).1 hmake with hempty | hmakeable
  · exact .inl hempty
  · right
    refine ⟨hmakeable.usable, ?_, ?_⟩
    · rw [← h.here]
      exact fun s hs => (h.isFree_iff (hfile s hs)).1 (hmakeable.free s hs)
    · intro hends
      rw [← h.here]
      have hsame := h.find_eq (hfile _ (placeOf_mem_visited _ _)) (hdot hends)
      rcases hmakeable.dot hends with hdirectory | hcovers
      · rw [isDirectory_iff] at hdirectory
        exact .inl (isDirectory_iff.2 (hsame ▸ hdirectory))
      · exact .inr hcovers

/-- A directory can be made in both trees or in none, and no directory on its path is missing any
more when it is. -/
theorem makePath (h : Alike file dir tree other) (hfile : ∀ s ∈ visited tree.here path, ¬file s)
    (hdot : EndsInDot path → ¬dir (placeOf tree.here path)) :
    ((tree.makePath path).2.toOption = (other.makePath path).2.toOption) ∧
      ((tree.makePath path).2 = .ok () → Alike file (fun s => dir s ∧ s ∉ visited tree.here path)
        (tree.makePath path).1 (other.makePath path).1) := by
  have hother := h.makePath_ok hfile hdot
  have htree : (other.makePath path).2 = .ok () → (tree.makePath path).2 = .ok () :=
    h.symm.makePath_ok (h.here ▸ hfile) (h.here ▸ hdot)
  constructor
  · rcases hanswer : (tree.makePath path).2 with fault | ⟨⟩
    · rcases hanswer' : (other.makePath path).2 with fault' | ⟨⟩
      · rfl
      · rw [htree hanswer'] at hanswer
        cases hanswer
    · rw [hother hanswer]
  · intro hmake
    have honly := makesOnly_makePath h.wellFormed path
    have honly' := makesOnly_makePath h.wellFormed' path
    have hthere := isDirectory_of_makePath h.wellFormed hmake
    have hthere' := isDirectory_of_makePath h.wellFormed' (hother hmake)
    rw [← h.here] at honly' hthere'
    refine ⟨honly.here.trans (h.here.trans honly'.here.symm),
      honly.installed.trans (h.installed.trans honly'.installed.symm), honly.wellFormed,
      honly'.wellFormed, fun s hs => ?_⟩
    by_cases hvisited : s ∈ visited tree.here path
    · left
      rw [isDirectory_iff.1 (hthere s hvisited), isDirectory_iff.1 (hthere' s hvisited)]
    · have hsame : (tree.makePath path).1.find? s = tree.find? s :=
        (honly.find s).resolve_right fun hmade => hvisited hmade.1
      have hsame' : (other.makePath path).1.find? s = other.find? s :=
        (honly'.find s).resolve_right fun hmade => hvisited hmade.1
      unfold IsFree
      rw [hsame, hsame']
      rcases h.find s hs with heq | ⟨hdir, hfree⟩
      · exact .inl heq
      · exact .inr ⟨⟨hdir, hvisited⟩, hfree⟩

end Alike

end RoutingRules.FileTree
