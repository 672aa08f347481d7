import RoutingRules.Proofs.Files.Alike
import RoutingRules.Proofs.World.Trace

/-!
# The same run in another world

A run can be replayed in a world whose files are alike, as long as its trace keeps away from the
places at which they differ, and its requests get the same answers.  It then does the same, succeeds
there when it succeeded here, and has the same result; only the wording of an error may differ.

Directories that the run has made itself are there in both worlds, so it need not keep away from
them any more.

Main results:

- Theorem {lit}`Task.Runs.replay`: the replay of a run.
- Theorem {lit}`Access.keepsAway_of_prepared`: what a trace has to keep away from, when it only uses
  files in directories that it has made.
-/

namespace RoutingRules

open Files

namespace Access

variable {file dir : Place → Prop} {here : Place} {reads : String → Option String}
  {log log' : List Access}

/-! ## Places that matter -/

/-- The path of a tool; an installed one has none. -/
def toolPaths (name : String) : Set String :=
  {path | '/' ∈ name.toList ∧ path = name}

/-- The paths that an access follows, when some addresses stand for files. -/
def paths (reads : String → Option String) : Access → Set String
  | .request url => {path | reads url = some path}
  | .askVersion name looks => toolPaths name ∪ looks
  | .runTool name _ output looks => insert output (toolPaths name ∪ looks)
  | .measure path | .write path _ | .refuse path | .make path => {path}

/-- The paths of the files that an access reads or writes. -/
def filePaths (reads : String → Option String) : Access → Set String
  | .make _ => ∅
  | access => access.paths reads

/-- The places of detours and ends at which whoever reads at some paths can feel a new directory. -/
def felt (here : Place) (paths : Set String) : Set Place :=
  {s | ∃ path ∈ paths, s ∈ FileTree.felt here path}

/-- The places at which an access can feel a directory that somebody else has made.  Whoever reads
feels the directories of detours; whoever makes a directory feels one in front of a dot at the end of
the path.  Apart from that only the last place of a path matters. -/
def feels (here : Place) (reads : String → Option String) : Access → Set Place
  | .request url => felt here {path | reads url = some path}
  | .askVersion name looks => felt here (toolPaths name ∪ looks)
  | .runTool name _ output looks => insert (placeOf here output) (felt here (toolPaths name ∪ looks))
  | .measure path | .write path _ | .refuse path => {placeOf here path}
  | .make path => {s | EndsInDot path ∧ s = placeOf here path}

/-- The places of directories in which an access uses a file. -/
def uses (here : Place) : Access → List Place
  | .measure path => wayOf here path
  | .runTool _ _ path _ | .write path _ | .refuse path =>
    if FileTree.endsAsDirectory path = true then [] else wayOf here path
  | _ => []

/-- An access keeps away from the files at some places and from new directories at others. -/
structure KeepsAway (file dir : Place → Prop) (here : Place)
    (reads : String → Option String) (access : Access) : Prop where
  file : ∀ path ∈ access.paths reads, ∀ s ∈ visited here path, ¬file s
  dir : ∀ s ∈ access.feels here reads, ¬dir s

/-- The accesses of a trace keep away from files and directories, and use files only in directories
at other places; those that the trace has made do not count any more. -/
def AllKeepAway (file : Place → Prop) (here : Place)
    (reads : String → Option String) : (Place → Prop) → List Access → Prop
  | _, [] => True
  | dir, access :: log =>
    (access.KeepsAway file dir here reads ∧ ∀ s ∈ access.uses here, ¬dir s) ∧
      AllKeepAway file here reads (fun s => dir s ∧ s ∉ made here [access]) log

theorem allKeepAway_append :
    AllKeepAway file here reads dir (log ++ log') ↔
      AllKeepAway file here reads dir log ∧
        AllKeepAway file here reads (fun s => dir s ∧ s ∉ made here log) log' := by
  induction log generalizing dir with
  | nil => simp [AllKeepAway, made]
  | cons access log ih =>
    have hcons : made here (access :: log) = made here [access] ++ made here log :=
      made_append here [access] log
    have hmade : (fun s => (dir s ∧ s ∉ made here [access]) ∧ s ∉ made here log) =
        fun s => dir s ∧ s ∉ made here (access :: log) := by
      funext s
      rw [hcons, List.mem_append, not_or, and_assoc]
    show _ ∧ AllKeepAway _ _ _ _ (log ++ log') ↔ (_ ∧ AllKeepAway _ _ _ _ log) ∧ _
    rw [ih, hmade]
    simp only [and_assoc]

/-- A trace uses files only in directories that it has made. -/
def Prepared (here : Place) : List Place → List Access → Prop
  | _, [] => True
  | ready, access :: log =>
    access.uses here ⊆ ready ∧ Prepared here (ready ++ made here [access]) log

theorem Prepared.mono {ready ready' : List Place} (h : Prepared here ready log)
    (hsub : ready ⊆ ready') : Prepared here ready' log := by
  induction log generalizing ready ready' with
  | nil => trivial
  | cons access log ih =>
    exact ⟨List.Subset.trans h.1 hsub, ih h.2 fun s hs => by
      simp only [List.mem_append] at hs ⊢
      exact hs.imp_left fun hs => hsub hs⟩

theorem Prepared.append {ready : List Place} (h : Prepared here ready log)
    (h' : Prepared here (ready ++ made here log) log') : Prepared here ready (log ++ log') := by
  induction log generalizing ready with
  | nil => simpa [made] using h'
  | cons access log ih =>
    refine ⟨h.1, ih h.2 ?_⟩
    rwa [← List.singleton_append, made_append, ← List.append_assoc] at h'

/-- A trace that uses files only in directories that it has made keeps away from directories when its
accesses do. -/
theorem keepsAway_of_prepared {ready : List Place} (h : Prepared here ready log)
    (hready : ∀ s ∈ ready, ¬dir s) (hlog : ∀ access ∈ log, access.KeepsAway file dir here reads) :
    AllKeepAway file here reads dir log := by
  induction log generalizing dir ready with
  | nil => trivial
  | cons access log ih =>
    rw [List.forall_mem_cons] at hlog
    refine ⟨⟨hlog.1, fun s hs => hready s (h.1 hs)⟩, ih h.2 ?_ ?_⟩
    · intro s hs hdir
      rcases List.mem_append.1 hs with hs | hs
      · exact hready s hs hdir.1
      · exact hdir.2 hs
    · intro other hother
      exact ⟨(hlog.2 other hother).file, fun s hs hdir => (hlog.2 other hother).dir s hs hdir.1⟩

/-- All requests of a trace come before everything else. -/
def RequestsFirst (log : List Access) : Prop :=
  log.Pairwise fun access later => later.IsRequest → access.IsRequest

/-- Of two parts of a trace the first one only requests, or the second one requests nothing. -/
theorem RequestsFirst.append (h : RequestsFirst (log ++ log')) :
    RequestsFirst log ∧ RequestsFirst log' ∧
      ((∀ access ∈ log, access.IsRequest) ∨ ∀ access ∈ log', ¬access.IsRequest) := by
  obtain ⟨hlog, hlog', hboth⟩ := List.pairwise_append.1 h
  refine ⟨hlog, hlog', ?_⟩
  by_cases hsome : ∃ access ∈ log', access.IsRequest
  · obtain ⟨later, hlater, hrequest⟩ := hsome
    exact .inl fun access haccess => hboth access haccess later hlater hrequest
  · right
    simpa using hsome

/-- A trace requests everything it needs before anything else, and uses files only in directories
that it has made. -/
structure Orderly (log : List Access) : Prop where
  requestsFirst : RequestsFirst log
  prepared : ∀ here, Prepared here [] log

theorem prepared_of_uses {ready : List Place} (h : ∀ access ∈ log, access.uses here ⊆ ready) :
    Prepared here ready log := by
  induction log generalizing ready with
  | nil => trivial
  | cons access log ih =>
    rw [List.forall_mem_cons] at h
    exact ⟨h.1, ih fun other hother =>
      List.Subset.trans (h.2 other hother) (List.subset_append_left _ _)⟩

theorem requestsFirst_of_none (h : ∀ access ∈ log, ¬access.IsRequest) : RequestsFirst log :=
  List.pairwise_iff_forall_sublist.2 fun hsub hrequest =>
    absurd hrequest (h _ (hsub.subset (by simp)))

theorem Orderly.nil : Orderly [] where
  requestsFirst := List.Pairwise.nil
  prepared _ := trivial

theorem Orderly.of_requests (h : ∀ access ∈ log, access.IsRequest) (h' : Orderly log') :
    Orderly (log ++ log') where
  requestsFirst := by
    refine List.pairwise_append.2 ⟨?_, h'.requestsFirst, fun access haccess _ _ _ =>
      h access haccess⟩
    exact List.pairwise_iff_forall_sublist.2 fun hsub _ => h _ (hsub.subset (by simp))
  prepared here := by
    refine Prepared.append (prepared_of_uses fun access haccess => ?_)
      ((h'.prepared here).mono (by simp))
    cases access <;> first | exact absurd (h _ haccess) id | simp [uses]

/-! ## Accesses in trees that are alike -/

section Alike

variable {α : Type} {tree other : FileTree} {path : String} {content : Content}

/-- Trees stay alike where no directory was made. -/
theorem alike_of_made_nil (halike : FileTree.Alike file dir tree other) (h : made here log = []) :
    FileTree.Alike file (fun s => dir s ∧ s ∉ made here log) tree other :=
  halike.mono fun _ hdir => ⟨hdir, by simp [h]⟩

/-- No new directory is felt on the way to a file, nor at its end. -/
theorem spares_visited (hway : ∀ s ∈ wayOf here path, ¬dir s) (hend : ¬dir (placeOf here path)) :
    ∀ s ∈ visited here path, ¬dir s :=
  List.forall_mem_append.2 ⟨hway, List.forall_mem_singleton.2 hend⟩

/-- Who keeps away from what is different finds the same tool, which answers the same and looks at
the same files. -/
theorem KeepsAway.useTool {name : String} {use : Tool → α} {looks : Set String}
    (h : (Access.askVersion name looks).KeepsAway file dir tree.here reads)
    (halike : FileTree.Alike file dir tree other) (hlooks : tree.UseLooksAt name use looks) :
    (tree.useTool name use).toOption = (other.useTool name use).toOption ∧
      other.UseLooksAt name use looks := by
  have hdir : ∀ path ∈ toolPaths name ∪ looks, ∀ s ∈ FileTree.felt tree.here path, ¬dir s :=
    fun path hpath s hs => h.dir s ⟨path, hpath, hs⟩
  refine FileTree.useTool_congr hlooks ?_ fun path hpath => ?_
  · exact halike.program (fun hslash => h.file name (.inl ⟨hslash, rfl⟩))
      fun hslash => hdir name (.inl ⟨hslash, rfl⟩)
  · exact (halike.look (h.file path (.inr hpath)) (hdir path (.inr hpath))).symm

/-- A run of a tool is the same for who keeps away from what is different. -/
theorem KeepsAway.runTool {name source output : String} {looks : Set String} {document : Content}
    (h : (Access.runTool name source output looks).KeepsAway file dir tree.here reads)
    (huses : ∀ s ∈ (Access.runTool name source output looks).uses tree.here, ¬dir s)
    (halike : FileTree.Alike file dir tree other)
    (hlooks : tree.UseLooksAt name (·.compile (tree.job source output document)) looks) :
    (tree.runTool name source output document).toOption =
        (other.runTool name source output document).toOption ∧
      other.UseLooksAt name (·.compile (other.job source output document)) looks := by
  have hfind : (Access.askVersion name looks).KeepsAway file dir tree.here reads :=
    ⟨fun path hpath => h.file path (.inr hpath), fun s hs => h.dir s (.inr hs)⟩
  have hwrite : tree.canWrite output = other.canWrite output := by
    by_cases hends : FileTree.endsAsDirectory output = true
    · rw [FileTree.canWrite_of_endsAsDirectory halike.wellFormed hends,
        FileTree.canWrite_of_endsAsDirectory halike.wellFormed' hends]
    · simp only [uses, hends, Bool.false_eq_true, if_false] at huses
      exact halike.canWrite (h.file output (.inl rfl))
        (spares_visited huses (h.dir _ (.inl rfl)))
  unfold FileTree.runTool
  rw [← FileTree.job_congr hwrite]
  exact hfind.useTool halike hlooks

theorem KeepsAway.size (h : (Access.measure path).KeepsAway file dir tree.here reads)
    (huses : ∀ s ∈ (Access.measure path).uses tree.here, ¬dir s)
    (halike : FileTree.Alike file dir tree other) :
    (tree.size path).toOption = (other.size path).toOption := by
  have hvisited : ∀ s ∈ visited tree.here path, ¬dir s :=
    spares_visited huses (h.dir _ rfl)
  exact halike.size (h.file path (by simp [paths]))
    fun s hs => hvisited s (FileTree.mem_felt_iff.1 hs).1

/-- What can be written in one of the trees can be written in the other one. -/
theorem KeepsAway.write (h : (Access.write path content).KeepsAway file dir tree.here reads)
    (huses : ∀ s ∈ (Access.write path content).uses tree.here, ¬dir s)
    (halike : FileTree.Alike file dir tree other) {files : FileTree}
    (hwrite : tree.write path content = .ok files) :
    ∃ files', other.write path content = .ok files' ∧ FileTree.Alike file dir files files' := by
  have hends := FileTree.not_endsAsDirectory_of_write halike.wellFormed hwrite
  simp only [uses, hends, Bool.false_eq_true, if_false] at huses
  exact halike.write (h.file path (by simp [paths]))
    (spares_visited huses (h.dir _ rfl)) hwrite

theorem KeepsAway.write_error (h : (Access.refuse path).KeepsAway file dir tree.here reads)
    (huses : ∀ s ∈ (Access.refuse path).uses tree.here, ¬dir s)
    (halike : FileTree.Alike file dir tree other) {fault : Fault}
    (hwrite : tree.write path content = .error fault) :
    ∃ fault', other.write path content = .error fault' := by
  by_cases hends : FileTree.endsAsDirectory path = true
  · -- No file is ever written to the path of a directory.
    cases hother : other.write path content with
    | error fault' => exact ⟨fault', rfl⟩
    | ok files =>
      rw [FileTree.not_endsAsDirectory_of_write halike.wellFormed' hother] at hends
      cases hends
  · simp only [uses, hends, Bool.false_eq_true, if_false] at huses
    exact halike.write_error (h.file path (by simp [paths]))
      (spares_visited huses (h.dir _ rfl)) hwrite

/-- A directory is made in both trees or in none, and afterwards its places are the same. -/
theorem KeepsAway.makePath (h : (Access.make path).KeepsAway file dir tree.here reads)
    (halike : FileTree.Alike file dir tree other) :
    (tree.makePath path).2.toOption = (other.makePath path).2.toOption ∧
      ((tree.makePath path).2 = .ok () →
        FileTree.Alike file (fun s => dir s ∧ s ∉ made tree.here [.make path])
          (tree.makePath path).1 (other.makePath path).1) := by
  have hmake := halike.makePath (h.file path (by simp [paths]))
    fun hdot => by simpa [feels, hdot] using h.dir
  simpa [made] using hmake

end Alike

end Access

namespace Task

variable {σ ε ε' α β : Type}

/-! ## Computations with orderly traces -/

section Works

variable {remote : Remote σ}

/-- A computation requests nothing, and uses files only in directories that it has made. -/
def Works (remote : Remote σ) (task : Task ε σ α) : Prop :=
  ∀ before, ∃ log result after, Runs remote task before log result after ∧
    (∀ access ∈ log, ¬access.IsRequest) ∧ ∀ here, Access.Prepared here [] log

/-- All runs of a computation have orderly traces. -/
def IsOrderly (remote : Remote σ) (task : Task ε σ α) : Prop :=
  ∀ before, ∃ log result after, Runs remote task before log result after ∧ Access.Orderly log

theorem Works.of_does {p : Access → Prop} {task : Task ε σ α} (h : Does remote p task)
    (hp : ∀ access, p access → ¬access.IsRequest ∧ ∀ here, access.uses here = []) :
    Works remote task := by
  intro before
  obtain ⟨log, result, after, hruns, hlog⟩ := h before
  refine ⟨log, result, after, hruns, fun access haccess => (hp _ (hlog access haccess)).1,
    fun here => Access.prepared_of_uses fun access haccess => ?_⟩
  rw [(hp _ (hlog access haccess)).2 here]
  exact List.Subset.refl _

theorem Works.bind {task : Task ε σ α} {next : α → Task ε σ β} (h : Works remote task)
    (hnext : ∀ a, Works remote (next a)) : Works remote (task >>= next) := by
  intro before
  obtain ⟨log, result, between, hruns, hlog, hprepared⟩ := h before
  cases result with
  | error e => exact ⟨log, _, between, .stop next hruns, hlog, hprepared⟩
  | ok a =>
    obtain ⟨log', result, after, hruns', hlog', hprepared'⟩ := hnext a between
    refine ⟨log ++ log', result, after, .bind hruns hruns', ?_, fun here =>
      (hprepared here).append ((hprepared' here).mono (by simp))⟩
    exact List.forall_mem_append.2 ⟨hlog, hlog'⟩

/-- A computation works when it makes a directory first and then uses files in this one only. -/
theorem Works.making_bind {path : String} {wrap : Fault → ε} {next : Unit → Task ε σ β}
    {p : Access → Prop} (hnext : Does remote p (next ()))
    (hp : ∀ access, p access →
      ¬access.IsRequest ∧ ∀ here, access.uses here ⊆ visited here path) :
    Works remote (making path wrap >>= next) := by
  intro before
  have hmake : Runs remote (making path wrap) before _ _ _ := .make path wrap before
  cases hanswer : (before.files.makePath path).2 with
  | error fault =>
    rw [hanswer] at hmake
    exact ⟨_, _, _, .stop next hmake, by simp [Access.IsRequest],
      fun here => ⟨by simp [Access.uses], trivial⟩⟩
  | ok _ =>
    rw [hanswer] at hmake
    obtain ⟨log, result, after, hruns, hlog⟩ := hnext
      { before with files := (before.files.makePath path).1 }
    refine ⟨_, result, after, .bind hmake hruns, ?_, fun here => ⟨by simp [Access.uses], ?_⟩⟩
    · rw [List.singleton_append, List.forall_mem_cons]
      exact ⟨by simp [Access.IsRequest], fun access haccess => (hp _ (hlog access haccess)).1⟩
    · refine Access.prepared_of_uses fun access haccess => ?_
      simpa [Access.made] using (hp _ (hlog access haccess)).2 here

theorem Works.mapError {task : Task ε σ α} (wrap : ε → ε') (h : Works remote task) :
    Works remote (Task.mapError wrap task) := by
  intro before
  obtain ⟨log, result, after, hruns, hlog⟩ := h before
  exact ⟨log, _, after, .mapError wrap hruns, hlog⟩

theorem Works.lift_bind {result : Except ε α} {next : α → Task ε σ β}
    (hnext : ∀ a, result = .ok a → Works remote (next a)) :
    Works remote ((liftM result : Task ε σ α) >>= next) := by
  intro before
  cases result with
  | error e => exact ⟨[], _, before, .stop next (.lift (.error e) before), by simp, fun _ => trivial⟩
  | ok a =>
    obtain ⟨log, result, after, hruns, hlog⟩ := hnext a rfl before
    exact ⟨[] ++ log, result, after, .bind (.lift (.ok a) before) hruns, hlog⟩

theorem Works.isOrderly {task : Task ε σ α} (h : Works remote task) : IsOrderly remote task := by
  intro before
  obtain ⟨log, result, after, hruns, hlog, hprepared⟩ := h before
  exact ⟨log, result, after, hruns, Access.requestsFirst_of_none hlog, hprepared⟩

/-- Requests before an orderly trace leave it orderly. -/
theorem IsOrderly.bind {task : Task ε σ α} {next : α → Task ε σ β}
    (h : Does remote Access.IsRequest task) (hnext : ∀ a, IsOrderly remote (next a)) :
    IsOrderly remote (task >>= next) := by
  intro before
  obtain ⟨log, result, between, hruns, hlog⟩ := h before
  cases result with
  | error e =>
    refine ⟨log, _, between, .stop next hruns, ?_⟩
    simpa using Access.Orderly.of_requests hlog .nil
  | ok a =>
    obtain ⟨log', result, after, hruns', hlog'⟩ := hnext a between
    exact ⟨_, result, after, .bind hruns hruns', .of_requests hlog hlog'⟩

end Works

/-! ## Answers -/

/-- The document that a request would get in a world. -/
def answerTo (remote : Remote σ) (w : World σ) (url : String) : Option String :=
  ((remote w.files url).run.run w.remote).1.toOption

/-- Requests do not change what other requests get. -/
def IsSteady (remote : Remote σ) : Prop :=
  ∀ (w : World σ) (url url' : String),
    answerTo remote { w with remote := ((remote w.files url).run.run w.remote).2 } url' =
      answerTo remote w url'

variable {remote : Remote σ} {task : Task ε σ α} {before after other : World σ}
  {log : List Access} {result : Except ε α}

/-- Who only requests changes no answers. -/
theorem Runs.answers (hsteady : IsSteady remote) (h : Runs remote task before log result after)
    (honly : ∀ access ∈ log, access.IsRequest) (url : String) :
    answerTo remote after url = answerTo remote before url := by
  induction h with
  | lift | tell => rfl
  | request url' w => exact hsteady w url' url
  | askVersion | runTool | measure | write | refuse | make => simp [Access.IsRequest] at honly
  | bind _ _ ih ih' =>
    rw [List.forall_mem_append] at honly
    exact (ih' honly.2).trans (ih honly.1)
  | stop _ _ ih => exact ih honly
  | mapError _ _ ih => exact ih honly

/-! ## Replays -/

section Replay

variable {file dir : Place → Prop} {here : Place} {tree : FileTree} {log' : List Access}

/-- In another world a computation does what a trace says, with the same result if there is one, and
then leaves a tree behind that is like a given one: no directory of the trace is missing any more. -/
def Replays (remote : Remote σ) (file dir : Place → Prop) (here : Place) (task : Task ε σ α)
    (other : World σ) (log : List Access) (result : Except ε α) (tree : FileTree) : Prop :=
  ∃ result' after', Runs remote task other log result' after' ∧
    result.toOption = result'.toOption ∧
    ∀ a, result = .ok a →
      FileTree.Alike file (fun s => dir s ∧ s ∉ Access.made here log) tree after'.files

/-- A computation that makes no directories leaves trees alike that were alike. -/
theorem Replays.of_alike {result' : Except ε α} (h : Runs remote task other log result' after)
    (hsame : result.toOption = result'.toOption) (hmade : Access.made here log = [])
    (halike : FileTree.Alike file dir tree after.files) :
    Replays remote file dir here task other log result tree :=
  ⟨result', after, h, hsame, fun _ _ => Access.alike_of_made_nil halike hmade⟩

/-- What follows is replayed in the world that is left behind. -/
theorem Replays.bind {next : α → Task ε σ β} {a : α} {between : FileTree} {final : Except ε β}
    (h : Replays remote file dir here task other log (.ok a) between)
    (hnext : ∀ after', Runs remote task other log (.ok a) after' →
      FileTree.Alike file (fun s => dir s ∧ s ∉ Access.made here log) between after'.files →
      Replays remote file (fun s => dir s ∧ s ∉ Access.made here log) here (next a) after' log' final
        tree) :
    Replays remote file dir here (task >>= next) other (log ++ log') final tree := by
  obtain ⟨result, between', hruns, hresult, halike⟩ := h
  obtain rfl := Except.toOption_eq_some_iff.1 hresult.symm
  obtain ⟨final', after', hruns', hfinal, hafter⟩ := hnext between' hruns (halike _ rfl)
  refine ⟨final', after', .bind hruns hruns', hfinal, fun b hb => (hafter b hb).mono ?_⟩
  rintro s ⟨⟨hdir, hs⟩, hs'⟩
  refine ⟨hdir, ?_⟩
  rw [Access.made_append, List.mem_append, not_or]
  exact ⟨hs, hs'⟩

theorem Replays.stop {e : ε} (next : α → Task ε σ β)
    (h : Replays remote file dir here task other log (.error e) tree) :
    Replays remote file dir here (task >>= next) other log (.error e) tree := by
  obtain ⟨result, after', hruns, hresult, _⟩ := h
  cases result with
  | ok a => cases hresult
  | error e' => exact ⟨_, after', .stop next hruns, rfl, nofun⟩

theorem Replays.mapError (wrap : ε → ε')
    (h : Replays remote file dir here task other log result tree) :
    Replays remote file dir here (Task.mapError wrap task) other log (result.mapError wrap) tree := by
  obtain ⟨result', after', hruns, hresult, hafter⟩ := h
  refine ⟨_, after', .mapError wrap hruns, by simpa using hresult, fun a ha => hafter a ?_⟩
  rwa [← Except.toOption_eq_some_iff, Except.toOption_mapError, Except.toOption_eq_some_iff] at ha

theorem Replays.making {path : String} {wrap : Fault → ε} {reads : String → Option String}
    (haway : (Access.make path).KeepsAway file dir tree.here reads)
    (halike : FileTree.Alike file dir tree other.files) :
    Replays remote file dir tree.here (Task.making path wrap) other [.make path]
      ((tree.makePath path).2.mapError wrap) (tree.makePath path).1 := by
  obtain ⟨hsame, hmade⟩ := haway.makePath halike
  refine ⟨_, _, .make path wrap other, by simpa using hsame, fun a ha => hmade ?_⟩
  rw [← Except.toOption_eq_some_iff, Except.toOption_mapError] at ha
  exact Except.toOption_eq_some_iff.1 ha

/-- A run can be replayed in a world whose files are alike, if its requests come first and get the
same answers there, and if its trace keeps away from what is different. -/
theorem Runs.replay {reads : String → Option String} (hsteady : IsSteady remote)
    (h : Runs remote task before log result after) (hfirst : Access.RequestsFirst log)
    (halike : FileTree.Alike file dir before.files other.files)
    (haway : Access.AllKeepAway file before.files.here reads dir log)
    (hanswers : ∀ url, .request url ∈ log →
      answerTo remote before url = answerTo remote other url) :
    Replays remote file dir before.files.here task other log result after.files := by
  induction h generalizing dir other with
  | lift result w => exact .of_alike (.lift result other) rfl rfl halike
  | tell notices w => exact .of_alike (.tell notices other) rfl rfl halike
  | request url w => exact .of_alike (.request url other) (hanswers url (by simp)) rfl halike
  | askVersion wrap hlooks =>
    obtain ⟨hsame, hlooks'⟩ := haway.1.1.useTool halike hlooks
    exact .of_alike (.askVersion wrap hlooks') (by simpa [FileTree.askVersion] using hsame) rfl halike
  | runTool wrap hlooks =>
    obtain ⟨hsame, hlooks'⟩ := haway.1.1.runTool haway.1.2 halike hlooks
    exact .of_alike (.runTool wrap hlooks') (by simpa using hsame) rfl halike
  | measure path wrap w =>
    have hsame := haway.1.1.size haway.1.2 halike
    exact .of_alike (.measure path wrap other) (by simpa using hsame) rfl halike
  | write wrap? h =>
    obtain ⟨files', hwrite, halike'⟩ := haway.1.1.write haway.1.2 halike h
    exact .of_alike (.write wrap? hwrite) rfl rfl halike'
  | refuse wrap? h =>
    obtain ⟨fault', hrefuse⟩ := haway.1.1.write_error haway.1.2 halike h
    exact .of_alike (.refuse wrap? hrefuse) (by cases wrap? <;> rfl) rfl halike
  | make path wrap w => exact .making haway.1.1 halike
  | bind h h' ih ih' =>
    obtain ⟨hfirst, hfirst', hsplit⟩ := hfirst.append
    obtain ⟨haway, haway'⟩ := Access.allKeepAway_append.1 haway
    have hhere := (h.leaves halike.wellFormed).here
    refine (ih hfirst halike haway fun url hurl =>
      hanswers url (List.mem_append_left _ hurl)).bind fun between' hruns hbetween => ?_
    rw [← hhere] at haway' hbetween ⊢
    refine ih' hfirst' hbetween haway' fun url hurl => ?_
    -- Requests of the second part are only there when the first part has changed no answers.
    rcases hsplit with honly | hnone
    · rw [h.answers hsteady honly, hruns.answers hsteady honly]
      exact hanswers url (List.mem_append_right _ hurl)
    · exact absurd trivial (hnone _ hurl)
  | stop next h ih => exact (ih hfirst halike haway hanswers).stop next
  | mapError wrap h ih => exact (ih hfirst halike haway hanswers).mapError wrap

end Replay

end Task

end RoutingRules
