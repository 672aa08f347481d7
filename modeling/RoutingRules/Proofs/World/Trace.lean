import RoutingRules.Proofs.Files.Directories
import RoutingRules.Proofs.Files.Tool
import RoutingRules.Proofs.World

/-!
# Traces

What a computation does in its world, in order: the addresses that it requests, the tools that it
runs, the files that it looks at and writes, and the directories that it makes.  A trace is read off a
run, and together with the files before it decides which files are there afterwards.

The files that a tool looks at in a run are any that decide what it does there: what is at the others
could be different.  So a trace may name more of them than needed.

Main results:

- Theorem {lit}`Task.Runs.run_eq`: a run with a trace is the run of the computation.
- Theorem {lit}`Task.Runs.leaves`: every place at which something was written holds what was written
  there last, and nothing else changes but that directories are made.
-/

namespace RoutingRules

open Files

/-- Something that a computation does in its world. -/
inductive Access where
  /-- A request for the document of an address. -/
  | request (url : String)
  /-- A question to the tool of a name about its version, by the files that the tool looks at. -/
  | askVersion (name : String) (looks : Set String)
  /-- A run of the tool of a name on a document, by the paths of the document and of the output, and
  the files that the tool looks at. -/
  | runTool (name source output : String) (looks : Set String)
  /-- A look at the size of a file. -/
  | measure (path : String)
  /-- A file that was written. -/
  | write (path : String) (content : Content)
  /-- A file that could not be written. -/
  | refuse (path : String)
  /-- A directory that was to be made with its parents. -/
  | make (path : String)

/-- Whether an access is a request. -/
def Access.IsRequest : Access → Prop
  | .request _ => True
  | _ => False

/-- An access without the files that a tool looks at. -/
def Access.withoutLooks : Access → Access
  | .askVersion name _ => .askVersion name ∅
  | .runTool name source output _ => .runTool name source output ∅
  | access => access

namespace Task

variable {ε ε' σ α β : Type}

/-! ## Steps -/

theorem run_get (w : World σ) : (get : Task ε σ (World σ)).run.run w = (.ok w, w) :=
  rfl

theorem run_asking (ask : FileTree → Except Fault α) (wrap : Fault → ε) (w : World σ) :
    (asking ask wrap : Task ε σ α).run.run w = ((ask w.files).mapError wrap, w) := by
  unfold asking
  rw [run_bind, run_get]
  dsimp only
  cases ask w.files <;> rfl

theorem run_changing (change : FileTree → Except Fault FileTree) (wrap : Fault → ε)
    (w : World σ) :
    (changing change wrap : Task ε σ Unit).run.run w =
      match change w.files with
      | .ok files => (.ok (), { w with files })
      | .error fault => (.error (wrap fault), w) := by
  unfold changing
  rw [run_bind, run_get]
  dsimp only
  cases change w.files <;> rfl

theorem run_making (path : String) (wrap : Fault → ε) (w : World σ) :
    (making path wrap : Task ε σ Unit).run.run w =
      ((w.files.makePath path).2.mapError wrap,
        { w with files := (w.files.makePath path).1 }) := by
  unfold making
  rw [run_bind, run_get]
  dsimp only
  rcases w.files.makePath path with ⟨files, fault | ⟨⟩⟩ <;> rfl

/-- Write a file.  A failure counts when it has a wording. -/
def writing (path : String) (content : Content) (wrap? : Option (Fault → ε)) : Task ε σ Unit :=
  ExceptT.mk fun w =>
    match w.files.write path content with
    | .ok files => (.ok (), { w with files })
    | .error fault => (wrap?.elim (.ok ()) fun wrap => .error (wrap fault), w)

theorem run_writing (path : String) (content : Content) (wrap? : Option (Fault → ε))
    (w : World σ) :
    (writing path content wrap? : Task ε σ Unit).run.run w =
      match w.files.write path content with
      | .ok files => (.ok (), { w with files })
      | .error fault => (wrap?.elim (.ok ()) fun wrap => .error (wrap fault), w) :=
  rfl

/-- Computations that run alike are the same. -/
theorem ext {task task' : Task ε σ α} (h : ∀ w, task.run.run w = task'.run.run w) :
    task = task' :=
  funext h

theorem changing_write_eq (path : String) (content : Content) (wrap : Fault → ε) :
    (changing (·.write path content) wrap : Task ε σ Unit) = writing path content (some wrap) := by
  apply ext
  intro w
  rw [run_changing, run_writing]
  rfl

/-! ## Runs with traces -/

/-- Runs of computations: from a world a computation does what its trace says, has an outcome and
leaves another world behind. -/
inductive Runs (remote : Remote σ) : {ε α : Type} → Task ε σ α → World σ → List Access →
    Except ε α → World σ → Prop
  | lift {ε α : Type} (result : Except ε α) (w : World σ) :
    Runs remote (liftM result) w [] result w
  | tell {ε : Type} (notices : List Notice) (w : World σ) :
    Runs remote (tell notices : Task ε σ Unit) w [] (.ok ())
      { w with notices := w.notices ++ notices }
  | request (url : String) (w : World σ) :
    Runs remote (fetching fun files => remote files url) w [.request url]
      ((remote w.files url).run.run w.remote).1
      { w with remote := ((remote w.files url).run.run w.remote).2 }
  | askVersion {ε : Type} {name : String} {looks : Set String} (wrap : Fault → ε) {w : World σ}
    (h : w.files.UseLooksAt name Tool.version looks) :
    Runs remote (asking (·.askVersion name) wrap) w [.askVersion name looks]
      ((w.files.askVersion name).mapError wrap) w
  | runTool {ε : Type} {name source output : String} {document : Content} {looks : Set String}
    (wrap : Fault → ε) {w : World σ}
    (h : w.files.UseLooksAt name (·.compile (w.files.job source output document)) looks) :
    Runs remote (asking (·.runTool name source output document) wrap) w
      [.runTool name source output looks]
      ((w.files.runTool name source output document).mapError wrap) w
  | measure {ε : Type} (path : String) (wrap : Fault → ε) (w : World σ) :
    Runs remote (asking (·.size path) wrap) w [.measure path]
      ((w.files.size path).mapError wrap) w
  | write {ε : Type} {path : String} {content : Content} {files : FileTree}
    (wrap? : Option (Fault → ε)) {w : World σ} (h : w.files.write path content = .ok files) :
    Runs remote (writing path content wrap?) w [.write path content] (.ok ()) { w with files }
  | refuse {ε : Type} {path : String} {content : Content} {fault : Fault}
    (wrap? : Option (Fault → ε)) {w : World σ} (h : w.files.write path content = .error fault) :
    Runs remote (writing path content wrap?) w [.refuse path]
      (wrap?.elim (.ok ()) fun wrap => .error (wrap fault)) w
  | make {ε : Type} (path : String) (wrap : Fault → ε) (w : World σ) :
    Runs remote (making path wrap) w [.make path] ((w.files.makePath path).2.mapError wrap)
      { w with files := (w.files.makePath path).1 }
  | bind {ε α β : Type} {task : Task ε σ α} {next : α → Task ε σ β} {before between after : World σ}
    {log log' : List Access} {a : α} {result : Except ε β}
    (h : Runs remote task before log (.ok a) between)
    (h' : Runs remote (next a) between log' result after) :
    Runs remote (task >>= next) before (log ++ log') result after
  | stop {ε α β : Type} {task : Task ε σ α} (next : α → Task ε σ β) {before after : World σ}
    {log : List Access} {e : ε} (h : Runs remote task before log (.error e) after) :
    Runs remote (task >>= next) before log (.error e) after
  | mapError {ε ε' α : Type} {task : Task ε σ α} (wrap : ε → ε') {before after : World σ}
    {log : List Access} {result : Except ε α} (h : Runs remote task before log result after) :
    Runs remote (mapError wrap task) before log (result.mapError wrap) after

variable {remote : Remote σ} {task : Task ε σ α} {before after : World σ} {log : List Access}
  {result : Except ε α}

/-- A run with a trace is the run of the computation. -/
theorem Runs.run_eq (h : Runs remote task before log result after) :
    task.run.run before = (result, after) := by
  induction h with
  | lift | tell | request => rfl
  | askVersion | runTool | measure => exact run_asking _ _ _
  | write wrap? h => simp [run_writing, h]
  | refuse wrap? h => simp [run_writing, h]
  | make => exact run_making _ _ _
  | bind _ _ ih ih' =>
    rw [run_bind, ih]
    exact ih'
  | stop _ _ ih => rw [run_bind, ih]
  | mapError wrap _ ih => rw [run_mapError, ih]

theorem Runs.pure (a : α) (w : World σ) : Runs remote (Pure.pure a : Task ε σ α) w [] (.ok a) w :=
  .lift (.ok a) w

/-- A file whose writing has to succeed was written when the run goes on. -/
theorem Runs.of_writing {path : String} {content : Content} {wrap : Fault → ε}
    (h : (writing path content (some wrap) : Task ε σ Unit).Yields before () after) :
    Runs remote (writing path content (some wrap) : Task ε σ Unit) before [.write path content]
      (.ok ()) after := by
  rw [Yields, run_writing] at h
  cases hwrite : before.files.write path content with
  | error fault =>
    rw [hwrite] at h
    cases h
  | ok files =>
    rw [hwrite] at h
    cases h
    exact .write _ hwrite

theorem Runs.of_making {path : String} {wrap : Fault → ε}
    (h : (making path wrap : Task ε σ Unit).Yields before () after) :
    Runs remote (making path wrap : Task ε σ Unit) before [.make path] (.ok ()) after := by
  have hend := h.symm.trans (run_making path wrap before)
  have hresult : .ok () = (before.files.makePath path).2.mapError wrap := congrArg Prod.fst hend
  obtain rfl : after = { before with files := (before.files.makePath path).1 } :=
    congrArg Prod.snd hend
  rw [hresult]
  exact .make path wrap before

end Task

/-! ## What traces leave behind -/

namespace Access

/-- The files that were written, in order. -/
def written (log : List Access) : List (String × Content) :=
  log.filterMap fun
    | .write path content => some (path, content)
    | _ => none

/-- What was written last at a place. -/
def lastAt (here place : Place) (files : List (String × Content)) : Option Content :=
  (files.filter fun file => placeOf here file.1 = place).getLast?.map Prod.snd

/-- The places at which directories may have been made. -/
def made (here : Place) (log : List Access) : List Place :=
  log.flatMap fun
    | .make path => visited here path
    | _ => []

theorem written_append (log log' : List Access) :
    written (log ++ log') = written log ++ written log' := by
  simp [written]

theorem lastAt_append (here place : Place) (files files' : List (String × Content)) :
    lastAt here place (files ++ files') =
      (lastAt here place files').or (lastAt here place files) := by
  simp only [lastAt, List.filter_append, List.getLast?_append]
  cases (files'.filter fun file => decide (placeOf here file.1 = place)).getLast? <;> rfl

/-- What was written last at a place is a file there. -/
theorem exists_of_lastAt {here place : Place} {files : List (String × Content)} {content : Content}
    (h : lastAt here place files = some content) :
    ∃ file ∈ files, placeOf here file.1 = place := by
  obtain ⟨file, hfile, _⟩ := Option.map_eq_some_iff.1 h
  have hmem := List.mem_filter.1 (List.mem_of_getLast? hfile)
  exact ⟨file, hmem.1, of_decide_eq_true hmem.2⟩

theorem made_append (here : Place) (log log' : List Access) :
    made here (log ++ log') = made here log ++ made here log' := by
  simp [made]

/-- What a trace says about the files afterwards: a place at which something was written holds what
was written there last.  Other places are as before, or a directory was made where nothing was. -/
structure Leaves (log : List Access) (before after : FileTree) : Prop where
  here : after.here = before.here
  installed : after.installed = before.installed
  wellFormed : after.WellFormed
  last : ∀ place content, lastAt before.here place (written log) = some content →
    after.find? place = some (.file content)
  others : ∀ place, lastAt before.here place (written log) = none →
    after.find? place = before.find? place ∨
      place ∈ made before.here log ∧ before.find? place = none ∧
        after.find? place = some .directory

namespace Leaves

variable {log log' : List Access} {before between after : FileTree}

theorem of_makesOnly {places : List Place} (h : FileTree.MakesOnly places before after)
    (hnone : written log = []) (hplaces : places ⊆ made before.here log) :
    Leaves log before after where
  here := h.here
  installed := h.installed
  wellFormed := h.wellFormed
  last place content hlast := by simp [hnone, lastAt] at hlast
  others place _ := (h.find place).imp_right fun ⟨hplace, hmade⟩ => ⟨hplaces hplace, hmade⟩

/-- Where nothing is written and no directory is made, nothing changes. -/
theorem same (hwf : before.WellFormed) (hnone : written log = []) :
    Leaves log before before :=
  of_makesOnly (.refl hwf : FileTree.MakesOnly [] before before) hnone (by simp)

theorem write (hwf : before.WellFormed) {path : String} {content : Content}
    (h : before.write path content = .ok after) : Leaves [.write path content] before after := by
  obtain ⟨hhere, hinstalled, hafter, hfind⟩ := FileTree.write_spec hwf h
  have hlast : ∀ place, lastAt before.here place (written [.write path content]) =
      if placeOf before.here path = place then some content else none := by
    intro place
    by_cases hplace : placeOf before.here path = place <;> simp [Access.written, lastAt, hplace]
  refine ⟨hhere, hinstalled, hafter, fun place text hwritten => ?_, fun place hnone => ?_⟩
  · rw [hlast] at hwritten
    split at hwritten
    next hplace => rw [hfind, if_pos hplace.symm, Option.some.inj hwritten]
    next => cases hwritten
  · rw [hlast] at hnone
    split at hnone
    next => cases hnone
    next hplace => exact .inl (by rw [hfind, if_neg (Ne.symm hplace)])

/-- A place changes only when a file was written there, or a directory was made. -/
theorem changes (h : Leaves log before after) (place : Place) :
    after.find? place = before.find? place ∨
      before.find? place = none ∧ after.find? place = some .directory ∨
      (∃ content, after.find? place = some (.file content)) ∧
        ∃ file ∈ written log, place = placeOf before.here file.1 := by
  cases hlast : lastAt before.here place (written log) with
  | none => exact (h.others place hlast).imp_right fun ⟨_, hmade⟩ => .inl hmade
  | some content =>
    refine .inr (.inr ⟨⟨content, h.last place content hlast⟩, ?_⟩)
    obtain ⟨file, hfile, hplace⟩ := exists_of_lastAt hlast
    exact ⟨file, hfile, hplace.symm⟩

/-- No program comes into a tree. -/
theorem allPrograms {p : Program → Prop} (h : Leaves log before after)
    (hprograms : before.AllPrograms p) : after.AllPrograms p := by
  refine hprograms.of_changes h.installed fun q => ?_
  exact (h.changes q).imp_right fun hnew => hnew.imp And.right And.left

theorem append (h : Leaves log before between) (h' : Leaves log' between after) :
    Leaves (log ++ log') before after := by
  have hhere := h.here
  refine ⟨h'.here.trans hhere, h'.installed.trans h.installed, h'.wellFormed,
    fun place content hwritten => ?_, fun place hnone => ?_⟩
  · rw [written_append, lastAt_append, ← hhere] at hwritten
    cases hlast : lastAt between.here place (written log') with
    | some text =>
      rw [hlast, Option.some_or] at hwritten
      rw [h'.last place text hlast]
      rw [Option.some.inj hwritten]
    | none =>
      rw [hlast, Option.none_or, hhere] at hwritten
      have hfile := h.last place content hwritten
      rcases h'.others place hlast with hsame | ⟨_, hnone, _⟩
      · rw [hsame, hfile]
      · rw [hfile] at hnone
        cases hnone
  · rw [written_append, lastAt_append, Option.or_eq_none_iff, ← hhere] at hnone
    rw [made_append, ← hhere]
    have hfirst := h.others place (by rw [← hhere]; exact hnone.2)
    rcases h'.others place hnone.1 with hsame | ⟨hplace, hmissing, hdir⟩
    · rw [hsame]
      exact hfirst.imp_right fun ⟨hplace, hmade⟩ =>
        ⟨List.mem_append_left _ (by rw [hhere]; exact hplace), hmade⟩
    · rcases hfirst with hsame | ⟨_, _, hmade⟩
      · exact .inr ⟨List.mem_append_right _ hplace, by rw [← hsame, hmissing], hdir⟩
      · rw [hmade] at hmissing
        cases hmissing

end Leaves

end Access

/-- Every place at which something was written holds what was written there last, and nothing else
changes but that directories are made. -/
theorem Task.Runs.leaves {σ ε α : Type} {remote : Task.Remote σ} {task : Task ε σ α}
    {before after : World σ} {log : List Access} {result : Except ε α}
    (h : Task.Runs remote task before log result after) (hwf : before.files.WellFormed) :
    Access.Leaves log before.files after.files := by
  induction h with
  | lift | tell | request | askVersion | runTool | measure | refuse => exact .same hwf rfl
  | write _ h => exact .write hwf h
  | make path wrap w =>
    exact .of_makesOnly (FileTree.makesOnly_makePath hwf path) rfl (by simp [Access.made])
  | bind _ _ ih ih' => exact (ih hwf).append (ih' (ih hwf).wellFormed)
  | stop _ _ ih => exact ih hwf
  | mapError _ _ ih => exact ih hwf

/-- When no program looks at files, every run has a trace that says so. -/
theorem Task.Runs.withoutLooks {σ ε α : Type} {remote : Task.Remote σ} {task : Task ε σ α}
    {before after : World σ} {log : List Access} {result : Except ε α}
    (h : Task.Runs remote task before log result after) (hwf : before.files.WellFormed)
    (hblind : before.files.AllPrograms Program.IsBlind) :
    Task.Runs remote task before (log.map Access.withoutLooks) result after := by
  induction h with
  | lift result w => exact .lift result w
  | tell notices w => exact .tell notices w
  | request url w => exact .request url w
  | askVersion wrap _ => exact .askVersion wrap hblind.useLooksAt_empty
  | runTool wrap _ => exact .runTool wrap hblind.useLooksAt_empty
  | measure path wrap w => exact .measure path wrap w
  | write wrap? h => exact .write wrap? h
  | refuse wrap? h => exact .refuse wrap? h
  | make path wrap w => exact .make path wrap w
  | bind h _ ih ih' =>
    have hleaves := h.leaves hwf
    rw [List.map_append]
    exact .bind (ih hwf hblind) (ih' hleaves.wellFormed (hleaves.allPrograms hblind))
  | stop next _ ih => exact .stop next (ih hwf hblind)
  | mapError wrap _ ih => exact .mapError wrap (ih hwf hblind)

/-- Who only requests changes no files. -/
theorem Task.Runs.files_of_requests {σ ε α : Type} {remote : Task.Remote σ} {task : Task ε σ α}
    {before after : World σ} {log : List Access} {result : Except ε α}
    (h : Task.Runs remote task before log result after) (honly : ∀ access ∈ log, access.IsRequest) :
    after.files = before.files := by
  induction h with
  | lift | tell | request => rfl
  | askVersion | runTool | measure | write | refuse | make => simp [Access.IsRequest] at honly
  | bind _ _ ih ih' =>
    rw [List.forall_mem_append] at honly
    exact (ih' honly.2).trans (ih honly.1)
  | stop _ _ ih => exact ih honly
  | mapError _ _ ih => exact ih honly

/-! ## Computations by what they may do -/

namespace Task

variable {σ ε ε' α β : Type} {remote : Remote σ} {p q : Access → Prop}

/-- A computation only ever does what passes a check. -/
def Does (remote : Remote σ) (p : Access → Prop) (task : Task ε σ α) : Prop :=
  ∀ before, ∃ log result after, Runs remote task before log result after ∧ ∀ access ∈ log, p access

namespace Does

theorem mono {task : Task ε σ α} (h : Does remote p task) (hsub : ∀ access, p access → q access) :
    Does remote q task := by
  intro before
  obtain ⟨log, result, after, hruns, hlog⟩ := h before
  exact ⟨log, result, after, hruns, fun access haccess => hsub access (hlog access haccess)⟩

theorem lift (result : Except ε α) : Does remote p (liftM result : Task ε σ α) :=
  fun before => ⟨[], result, before, .lift result before, by simp⟩

theorem pure (a : α) : Does remote p (Pure.pure a : Task ε σ α) :=
  lift (.ok a)

theorem throw (e : ε) : Does remote p (MonadExcept.throw e : Task ε σ α) :=
  lift (.error e)

theorem tell (notices : List Notice) : Does remote p (Task.tell notices : Task ε σ Unit) :=
  fun before => ⟨[], _, _, .tell notices before, by simp⟩

theorem bind_of_yields {task : Task ε σ α} {next : α → Task ε σ β} (h : Does remote p task)
    (hnext : ∀ before a after, task.Yields before a after → Does remote p (next a)) :
    Does remote p (task >>= next) := by
  intro before
  obtain ⟨log, result, between, hruns, hlog⟩ := h before
  cases result with
  | error e => exact ⟨log, _, between, .stop next hruns, hlog⟩
  | ok a =>
    obtain ⟨log', result, after, hruns', hlog'⟩ := hnext before a between hruns.run_eq between
    refine ⟨log ++ log', result, after, .bind hruns hruns', fun access haccess => ?_⟩
    rcases List.mem_append.1 haccess with haccess | haccess
    · exact hlog access haccess
    · exact hlog' access haccess

theorem bind {task : Task ε σ α} {next : α → Task ε σ β} (h : Does remote p task)
    (hnext : ∀ a, Does remote p (next a)) : Does remote p (task >>= next) :=
  bind_of_yields h fun _ a _ _ => hnext a

theorem lift_bind {result : Except ε α} {next : α → Task ε σ β}
    (hnext : ∀ a, result = .ok a → Does remote p (next a)) :
    Does remote p ((liftM result : Task ε σ α) >>= next) :=
  bind_of_yields (lift result) fun _ a _ hyields => hnext a (Task.yields_lift.1 hyields).1

theorem mapError {task : Task ε σ α} (wrap : ε → ε') (h : Does remote p task) :
    Does remote p (Task.mapError wrap task) := by
  intro before
  obtain ⟨log, result, after, hruns, hlog⟩ := h before
  exact ⟨log, _, after, .mapError wrap hruns, hlog⟩

theorem writing {path : String} {content : Content} {wrap? : Option (Fault → ε)}
    (hwrite : p (.write path content)) (hrefuse : p (.refuse path)) :
    Does remote p (Task.writing path content wrap? : Task ε σ Unit) := by
  intro before
  cases h : before.files.write path content with
  | ok files => exact ⟨[.write path content], _, _, .write wrap? h, by simpa using hwrite⟩
  | error fault => exact ⟨[.refuse path], _, _, .refuse wrap? h, by simpa using hrefuse⟩

theorem making {path : String} {wrap : Fault → ε} (h : p (.make path)) :
    Does remote p (Task.making path wrap : Task ε σ Unit) :=
  fun before => ⟨[.make path], _, _, .make path wrap before, by simpa using h⟩

theorem askVersion {name : String} {wrap : Fault → ε} (h : p (.askVersion name .univ)) :
    Does remote p (Task.asking (·.askVersion name) wrap : Task ε σ ToolRun) :=
  fun _ => ⟨[.askVersion name .univ], _, _, .askVersion wrap FileTree.useLooksAt_univ,
    by simpa using h⟩

theorem runTool {name source output : String} {document : Content} {wrap : Fault → ε}
    (h : p (.runTool name source output .univ)) :
    Does remote p (Task.asking (·.runTool name source output document) wrap :
      Task ε σ (ToolRun × Option Content)) :=
  fun _ => ⟨[.runTool name source output .univ], _, _, .runTool wrap FileTree.useLooksAt_univ,
    by simpa using h⟩

theorem measure {path : String} {wrap : Fault → ε} (h : p (.measure path)) :
    Does remote p (Task.asking (·.size path) wrap : Task ε σ Nat) :=
  fun before => ⟨[.measure path], _, _, .measure path wrap before, by simpa using h⟩

theorem mapM {f : α → Task ε σ β} {entries : List α}
    (h : ∀ a ∈ entries, Does remote p (f a)) : Does remote p (entries.mapM f) := by
  induction entries with
  | nil => exact pure []
  | cons a entries ih =>
    rw [List.mapM_cons]
    rw [List.forall_mem_cons] at h
    exact bind h.1 fun b => bind (ih h.2) fun bs => pure (b :: bs)

/-- What a computation does in one of its runs. -/
theorem exists_of_run {task : Task ε σ α} {before after : World σ} {result : Except ε α}
    (h : Does remote p task) (hrun : task.run.run before = (result, after)) :
    ∃ log, Runs remote task before log result after ∧ ∀ access ∈ log, p access := by
  obtain ⟨log, result', after', hruns, hlog⟩ := h before
  have hsame := hrun.symm.trans hruns.run_eq
  cases hsame
  exact ⟨log, hruns, hlog⟩

end Does

/-! ## Requests -/

theorem run_fetching (run : FileTree → Fetching σ α) (w : World σ) :
    (fetching run).run.run w =
      (((run w.files).run.run w.remote).1,
        { w with remote := ((run w.files).run.run w.remote).2 }) :=
  rfl

/-- Fetching can be done step by step, because it does not change the files. -/
theorem fetching_bind (first : FileTree → Fetching σ α) (next : α → FileTree → Fetching σ β) :
    (fetching fun files => first files >>= fun a => next a files) =
      fetching first >>= fun a => fetching (next a) := by
  apply ext
  intro w
  have hbind : (first w.files >>= fun a => next a w.files).run.run w.remote =
      match (first w.files).run.run w.remote with
      | (.ok a, remote) => (next a w.files).run.run remote
      | (.error e, remote) => (.error e, remote) := by
    simp only [ExceptT.run_bind, StateT.run_bind]
    rcases (first w.files).run.run w.remote with ⟨answer | answer, remote⟩ <;> rfl
  rw [run_bind, run_fetching, run_fetching, hbind]
  rcases (first w.files).run.run w.remote with ⟨answer | answer, remote⟩ <;> rfl

namespace Does

theorem fetching_lift (result : Result α) :
    Does remote p (fetching fun _ => (liftM result : Fetching σ α)) := by
  have hlift : (fetching fun _ => (liftM result : Fetching σ α)) = liftM result := by
    apply ext
    intro w
    cases result <;> rfl
  rw [hlift]
  exact lift result

theorem fetching_bind {first : FileTree → Fetching σ α} {next : α → FileTree → Fetching σ β}
    (h : Does remote p (fetching first)) (hnext : ∀ a, Does remote p (fetching (next a))) :
    Does remote p (fetching fun files => first files >>= fun a => next a files) := by
  rw [Task.fetching_bind]
  exact bind h hnext

theorem fetching_mapM {f : FileTree → α → Fetching σ β} {entries : List α}
    (h : ∀ a ∈ entries, Does remote p (fetching fun files => f files a)) :
    Does remote p (fetching fun files => entries.mapM (f files)) := by
  induction entries with
  | nil => exact fetching_lift (.ok [])
  | cons a entries ih =>
    rw [List.forall_mem_cons] at h
    simp only [List.mapM_cons]
    exact fetching_bind h.1 fun b => fetching_bind (ih h.2) fun bs => fetching_lift (.ok (b :: bs))

theorem request (url : String) (hp : p (.request url)) :
    Does remote p (fetching fun files => remote files url) :=
  fun before => ⟨[.request url], _, _, .request url before, by simpa using hp⟩

end Does

/-! ## Files written on the way to a result -/

/-- From a world a computation succeeds with a result, writes files in order, and leaves another world
behind. -/
def Writes (remote : Remote σ) (task : Task ε σ α) (before : World σ) (a : α)
    (files : List (String × Content)) (after : World σ) : Prop :=
  ∃ log, Runs remote task before log (.ok a) after ∧ Access.written log = files

namespace Writes

variable {before between after : World σ}

/-- What only does other things writes no files. -/
theorem of_does {task : Task ε σ α} {a : α} (h : Does remote p task)
    (hp : ∀ access, p access → Access.written [access] = [])
    (hyields : task.Yields before a after) : Writes remote task before a [] after := by
  obtain ⟨log, hruns, hlog⟩ := h.exists_of_run hyields
  refine ⟨log, hruns, ?_⟩
  clear hruns
  induction log with
  | nil => rfl
  | cons access log ih =>
    rw [List.forall_mem_cons] at hlog
    rw [← List.singleton_append, Access.written_append, hp access hlog.1, ih hlog.2]
    rfl

theorem bind {task : Task ε σ α} {next : α → Task ε σ β} {a : α} {b : β}
    {files files' : List (String × Content)} (h : Writes remote task before a files between)
    (h' : Writes remote (next a) between b files' after) :
    Writes remote (task >>= next) before b (files ++ files') after := by
  obtain ⟨log, hruns, rfl⟩ := h
  obtain ⟨log', hruns', rfl⟩ := h'
  exact ⟨log ++ log', .bind hruns hruns', Access.written_append log log'⟩

theorem pure (a : α) (w : World σ) : Writes remote (Pure.pure a : Task ε σ α) w a [] w :=
  ⟨[], .pure a w, rfl⟩

theorem lift {result : Except ε α} {a : α} (h : result = .ok a) (w : World σ) :
    Writes remote (liftM result : Task ε σ α) w a [] w := by
  subst h
  exact pure a w

theorem mapError {task : Task ε σ α} {a : α} {files : List (String × Content)} (wrap : ε → ε')
    (h : Writes remote task before a files after) :
    Writes remote (Task.mapError wrap task) before a files after := by
  obtain ⟨log, hruns, hlog⟩ := h
  exact ⟨log, .mapError wrap hruns, hlog⟩

theorem writing {path : String} {content : Content} {wrap : Fault → ε}
    (h : (Task.writing path content (some wrap) : Task ε σ Unit).Yields before () after) :
    Writes remote (Task.writing path content (some wrap) : Task ε σ Unit) before ()
      [(path, content)] after :=
  ⟨_, .of_writing h, rfl⟩

/-- A walk over a list that succeeds writes the files of its entries in order. -/
theorem mapM {f : α → Task ε σ β} {files : α → List (String × Content) → Prop}
    {entries : List α} {results : List β}
    (hentries : ∀ a ∈ entries, ∀ w b w', (f a).Yields w b w' →
      ∃ new, Writes remote (f a) w b new w' ∧ files a new)
    (h : (entries.mapM f).Yields before results after) :
    ∃ news, List.Forall₂ files entries news ∧
      Writes remote (entries.mapM f) before results news.flatten after := by
  induction entries generalizing before results with
  | nil =>
    rw [List.mapM_nil, yields_pure] at h
    obtain ⟨rfl, rfl⟩ := h
    exact ⟨[], .nil, pure [] before⟩
  | cons a entries ih =>
    rw [List.forall_mem_cons] at hentries
    simp only [List.mapM_cons, yields_bind, yields_pure] at h
    obtain ⟨b, between, hb, bs, _, hbs, rfl, rfl⟩ := h
    obtain ⟨new, hnew, hfiles⟩ := hentries.1 _ _ _ hb
    obtain ⟨news, hnews, hwrites⟩ := ih hentries.2 hbs
    refine ⟨new :: news, .cons hfiles hnews, ?_⟩
    rw [List.mapM_cons, List.flatten_cons]
    refine hnew.bind ?_
    rw [← List.append_nil news.flatten]
    exact hwrites.bind (pure (b :: bs) _)

end Writes

end Task

end RoutingRules
