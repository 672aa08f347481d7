import RoutingRules.Proofs.Run.Cache
import RoutingRules.Proofs.Run.FailedTarget
import RoutingRules.Proofs.Run.Steps

/-!
# Targets do not depend on each other

Two runs of one configuration may write different targets.  A target that both of them write ends
in the same way in both, with the same report and the same files, as long as what it does keeps away
from what the others change.  It does not matter what they read, and whether they fail.

Others are in the way of a target when they leave another file at a place that one of its paths
visits.  The directories that they make are in its way only where it reads or writes a file, on a
detour of a path that it reads, and in front of a dot at the end of the path of a directory that it
makes: it makes the others itself.  A target also reads the files that its tool looks at.

Main results:

- Theorem {lit}`Run.perform_isolates`: the verdict of a run, and what a target has in common in two
  runs.
- Theorem {lit}`Run.undisturbed_steps`: what steps leave behind for those who keep away from them.
-/

open RoutingRules.Task (Runs)

namespace RoutingRules.Run

open Files Fetcher

section Changes

variable {σ : Type}

/-! ## What steps change -/

/-- A step has left another file at a place. -/
def Step.Changes (s : Step σ) (place : Place) : Prop :=
  s.after.files.find? place ≠ s.before.files.find? place ∧ s.after.files.isDirectory place = false

/-- A step has made a directory at a place. -/
def Step.Makes (s : Step σ) (place : Place) : Prop :=
  s.before.files.find? place = none ∧ s.after.files.find? place = some .directory

/-- What a step did, in order. -/
def Traces (run : Run σ) (rules : List RouteRule) (s : Step σ) (log : List Access) : Prop :=
  Access.Orderly log ∧
    ∃ w, Runs run.remote (run.writeTarget rules s.target) s.before log s.result w

/-- The files that two steps read and write are at different places, and none of them is above
another. -/
def Apart (run : Run σ) (rules : List RouteRule) (reads : String → Option String)
    (s s' : Step σ) : Prop :=
  ∃ log log' w w', Runs run.remote (run.writeTarget rules s.target) s.before log s.result w ∧
    Runs run.remote (run.writeTarget rules s'.target) s'.before log' s'.result w' ∧
    ∀ access ∈ log, ∀ access' ∈ log', ∀ path ∈ access.filePaths reads,
      ∀ path' ∈ access'.filePaths reads,
        ¬placeOf s.before.files.here path <+: placeOf s'.before.files.here path' ∧
          ¬placeOf s'.before.files.here path' <+: placeOf s.before.files.here path

variable (run : Run σ) (rules : List RouteRule)

/-- Every step has a trace. -/
theorem exists_traces_step (w : World σ) (t : Config.Target) :
    ∃ log after, Access.Orderly log ∧
      Runs run.remote (run.writeTarget rules t) w log (run.step rules w t).result after ∧
      (run.step rules w t).after.files = after.files ∧
      (run.step rules w t).after.remote = after.remote := by
  obtain ⟨log, result, after, hruns, horderly⟩ := run.isOrderly_writeTarget rules t w
  obtain ⟨rfl, hfiles, hstate⟩ := run.step_of_run rules hruns.run_eq
  exact ⟨log, after, horderly, hruns, hfiles, hstate⟩

/-- What a step does is what its target reaches. -/
theorem exists_runs_step (w : World σ) (t : Config.Target) :
    ∃ log w', Runs run.remote (run.writeTarget rules t) w log (run.step rules w t).result w' ∧
      ∀ access ∈ log, run.Reaches t access := by
  obtain ⟨log, result, after, hruns, hlog⟩ := run.reaches_writeTarget rules t w
  obtain ⟨rfl, _, _⟩ := run.step_of_run rules hruns.run_eq
  exact ⟨log, after, hruns, hlog⟩

variable {run rules} {w : World σ} {t : Config.Target} {place : Place}

/-- The trace of a target with lines that was written. -/
theorem exists_traces_lines {s : Step σ} {client : LineClient} {report : TargetReport}
    (hs : s = run.step rules w s.target)
    (hclient : LineClient.ofClient? s.target.client = some client)
    (hresult : s.result = .ok report) :
    ∃ content, run.Traces rules s (fileLog report.path (.text content)) := by
  have hyields : (run.writeTarget rules s.target).Yields w report
      ((run.writeTarget rules s.target).run.run w).2 := by
    rw [hs] at hresult
    exact Prod.ext hresult rfl
  have hbefore : s.before = w := by
    rw [hs]
    rfl
  unfold Traces
  unfold writeTarget at hyields ⊢
  rw [hclient] at hyields ⊢
  obtain ⟨_, content, hruns⟩ := runs_writeLines hyields
  exact ⟨content, orderly_fileLog _ _, _, hbefore ▸ hresult ▸ hruns⟩

theorem leaves_step (hwf : w.files.WellFormed) :
    ∃ log, Access.Leaves log w.files (run.step rules w t).after.files := by
  obtain ⟨log, after, _, hruns, hfiles, _⟩ := run.exists_traces_step rules w t
  exact ⟨log, hfiles ▸ hruns.leaves hwf⟩

theorem wellFormed_step (hwf : w.files.WellFormed) :
    (run.step rules w t).after.files.WellFormed := by
  obtain ⟨log, hleaves⟩ := leaves_step hwf
  exact hleaves.wellFormed

/-- A step leaves a place as it was, or leaves another file or a new directory there. -/
theorem step_cases (hwf : w.files.WellFormed) (place : Place) :
    (run.step rules w t).after.files.find? place = w.files.find? place ∨
      (run.step rules w t).Changes place ∨ (run.step rules w t).Makes place := by
  obtain ⟨log, hleaves⟩ := leaves_step hwf
  rcases hleaves.changes place with hsame | hmade | ⟨⟨content, hfile⟩, _⟩
  · exact .inl hsame
  · exact .inr (.inr hmade)
  · by_cases hsame : (run.step rules w t).after.files.find? place = w.files.find? place
    · exact .inl hsame
    · exact .inr (.inl ⟨hsame, by simp [FileTree.isDirectory, hfile]⟩)

/-- Files stay where no step leaves another one. -/
theorem keeps_file {ts : List Config.Target} {content : Content} (hwf : w.files.WellFormed)
    (hnot : ∀ s ∈ run.steps rules w ts, ¬s.Changes place)
    (hfile : w.files.find? place = some (.file content)) :
    (endOf w (run.steps rules w ts)).files.find? place = some (.file content) := by
  induction ts generalizing w with
  | nil => exact hfile
  | cons t ts ih =>
    rw [steps, List.forall_mem_cons] at hnot
    refine ih (wellFormed_step hwf) hnot.2 ?_
    rcases step_cases hwf place with hsame | hchanges | ⟨hnone, _⟩
    · rw [hsame, hfile]
    · exact absurd hchanges hnot.1
    · have hbefore : w.files.find? place = none := hnone
      rw [hfile] at hbefore
      cases hbefore

/-- The files that a trace has left behind stay when later steps keep away from it. -/
theorem keeps_written {ts : List Config.Target} {log : List Access} {tree : FileTree}
    {reads : String → Option String} {content : Content} (hleaves : Access.Leaves log tree w.files)
    (haway : ∀ access ∈ log, ∀ other ∈ run.steps rules w ts,
      access.KeepsAway other.Changes other.Makes tree.here reads)
    (hlast : Access.lastAt tree.here place (Access.written log) = some content) :
    (endOf w (run.steps rules w ts)).files.find? place = some (.file content) := by
  refine keeps_file hleaves.wellFormed (fun other hother => ?_) (hleaves.last _ _ hlast)
  obtain ⟨⟨path, text⟩, hfile, rfl⟩ := Access.exists_of_lastAt hlast
  obtain ⟨access, haccess, hwritten⟩ := List.mem_filterMap.1 hfile
  have hpath : path ∈ access.paths reads := by
    cases access <;> cases hwritten
    simp [Access.paths]
  exact (haway access haccess other hother).file path hpath _ (FileTree.placeOf_mem_visited _ _)

/-- A step in a list of steps starts where those before it have ended, and the others start from
what it has left behind. -/
theorem steps_eq_append {ts : List Config.Target} {front back : List (Step σ)} {s : Step σ}
    (h : run.steps rules w ts = front ++ s :: back) :
    ∃ before after, front = run.steps rules w before ∧
      s = run.step rules (endOf w front) s.target ∧ back = run.steps rules s.after after := by
  induction ts generalizing w front with
  | nil => simp [steps] at h
  | cons t ts ih =>
    rw [steps] at h
    cases front with
    | nil =>
      obtain ⟨rfl, rfl⟩ := List.cons.inj h
      exact ⟨[], ts, rfl, rfl, rfl⟩
    | cons first front =>
      obtain ⟨rfl, hrest⟩ := List.cons.inj h
      obtain ⟨before, after, rfl, hs, hback⟩ := ih hrest
      exact ⟨t :: before, after, rfl, hs, hback⟩

end Changes

/-! ## Others in between -/

section Undisturbed

variable {σ : Type} {remote : Task.Remote σ} {reads : String → Option String}
  {file dir : Place → Prop} {start w : World (σ × Cache)}

/-- What is read when some documents are in the cache: their requests read no files. -/
def readsAfter (reads : String → Option String) (cache : Cache) (url : String) : Option String :=
  if (Cache.find? cache url).isSome then none else reads url

/-- From one world to another only files at some places and directories at others have changed.  The
cache has kept its documents, and new ones are those that the fetcher gave at first, unless they were
read from the changed places. -/
structure Undisturbed (remote : Task.Remote σ) (reads : String → Option String)
    (file dir : Place → Prop) (start w : World (σ × Cache)) : Prop where
  alike : FileTree.Alike file dir start.files w.files
  kept : ∀ url text, Cache.find? start.remote.2 url = some text →
    Cache.find? w.remote.2 url = some text
  added : ∀ url, Cache.find? start.remote.2 url = none →
    (Access.request url).KeepsAway file dir start.files.here reads →
    Cache.find? w.remote.2 url = none ∨ Cache.find? w.remote.2 url = freshAnswer remote start url

theorem Undisturbed.refl (hwf : start.files.WellFormed) :
    Undisturbed remote reads file dir start start :=
  ⟨.refl hwf, fun _ _ h => h, fun _ h _ => .inl h⟩

/-- The fetcher itself answers as at first to who keeps away. -/
theorem Undisturbed.freshAnswer_eq (hfixed : Task.IsFixed remote reads)
    (h : Undisturbed remote reads file dir start w) {url : String}
    (haway : (Access.request url).KeepsAway file dir start.files.here reads) :
    freshAnswer remote w url = freshAnswer remote start url := by
  refine hfixed url _ _ _ _ fun path hpath => (h.alike.read ?_ ?_).symm
  · exact haway.file path (by simp [Access.paths, hpath])
  · exact fun s hs => haway.dir s ⟨path, hpath, hs⟩

/-- A request is answered as at first to who keeps away. -/
theorem Undisturbed.answerTo_eq (hfixed : Task.IsFixed remote reads)
    (h : Undisturbed remote reads file dir start w) {url : String}
    (haway : (Access.request url).KeepsAway file dir start.files.here
      (readsAfter reads start.remote.2)) :
    Task.answerTo (cachedRemote remote) w url = Task.answerTo (cachedRemote remote) start url := by
  rw [answerTo_cachedRemote, answerTo_cachedRemote]
  cases hcache : Cache.find? start.remote.2 url with
  | some text => rw [h.kept url text hcache, Option.some_or, Option.some_or]
  | none =>
    have hreads : readsAfter reads start.remote.2 url = reads url := by
      simp [readsAfter, hcache]
    have haway' : (Access.request url).KeepsAway file dir start.files.here reads :=
      ⟨by simpa [Access.paths, hreads] using haway.file,
        by simpa [Access.feels, hreads] using haway.dir⟩
    rw [h.freshAnswer_eq hfixed haway']
    rcases h.added url hcache haway' with hnone | hadded
    · rw [hnone]
    · rw [hadded, Option.or_self, Option.none_or]

variable {run : Run (σ × Cache)} {rules : List RouteRule}

/-- What a step leaves behind for those who keep away from it. -/
theorem undisturbed_step {t : Config.Target} (hremote : run.remote = cachedRemote remote)
    (hfixed : Task.IsFixed remote reads) (h : Undisturbed remote reads file dir start w)
    (hfile : ∀ place, (run.step rules w t).Changes place → file place)
    (hdir : ∀ place, (run.step rules w t).Makes place → dir place) :
    Undisturbed remote reads file dir start (run.step rules w t).after := by
  have hwf := h.alike.wellFormed'
  obtain ⟨log, after, horderly, hruns, _, hstate⟩ := run.exists_traces_step rules w t
  rw [hremote] at hruns
  have hcache := cache_of_runs hfixed hruns horderly.requestsFirst
  rw [← hstate] at hcache
  obtain ⟨_, hleaves⟩ : ∃ log, Access.Leaves log w.files (run.step rules w t).after.files :=
    leaves_step hwf
  refine ⟨h.alike.trans ⟨hleaves.here.symm, hleaves.installed.symm, hwf, hleaves.wellFormed,
    fun place hplace => ?_⟩, ?_, ?_⟩
  · rcases step_cases hwf place with hsame | hchanges | hmakes
    · exact .inl hsame.symm
    · exact absurd (hfile place hchanges) hplace
    · exact .inr ⟨hdir place hmakes, .inl hmakes.1, .inr hmakes.2⟩
  · intro url text htext
    rcases hcache url with hsame | ⟨hnone, _⟩
    · rw [hsame, h.kept url text htext]
    · rw [h.kept url text htext] at hnone
      cases hnone
  · intro url hnone haway
    rcases hcache url with hsame | ⟨_, hadded⟩
    · rw [hsame]
      exact h.added url hnone haway
    · exact .inr (by rw [hadded, h.freshAnswer_eq hfixed haway])

/-- What steps leave behind for those who keep away from them. -/
theorem undisturbed_steps {ts : List Config.Target} (hremote : run.remote = cachedRemote remote)
    (hfixed : Task.IsFixed remote reads) (h : Undisturbed remote reads file dir start w)
    (hfile : ∀ s ∈ run.steps rules w ts, ∀ place, s.Changes place → file place)
    (hdir : ∀ s ∈ run.steps rules w ts, ∀ place, s.Makes place → dir place) :
    Undisturbed remote reads file dir start (endOf w (run.steps rules w ts)) := by
  induction ts generalizing w with
  | nil => exact h
  | cons t ts ih =>
    rw [steps, List.forall_mem_cons] at hfile hdir
    exact ih (undisturbed_step hremote hfixed h hfile.1 hdir.1) hfile.2 hdir.2

/-- A target ends in the same way in worlds that others have left to it undisturbed, and writes the
same files. -/
theorem step_agrees {w' : World (σ × Cache)} {s s' : Step (σ × Cache)} {log : List Access}
    (hremote : run.remote = cachedRemote remote) (hfixed : Task.IsFixed remote reads)
    (h : Undisturbed remote reads file dir start w)
    (h' : Undisturbed remote reads file dir start w')
    (hs : s = run.step rules w s.target) (hs' : s' = run.step rules w' s.target)
    (hlog : run.Traces rules s log)
    (haway : ∀ access ∈ log, access.KeepsAway file dir start.files.here
      (readsAfter reads start.remote.2)) :
    s.result.toOption = s'.result.toOption ∧ Access.Leaves log w.files s.after.files ∧
      Access.Leaves log w'.files s'.after.files := by
  obtain ⟨horderly, after, hruns⟩ := hlog
  have hbefore : s.before = w := by
    rw [hs]
    rfl
  rw [hbefore] at hruns
  have halike := h.alike.symm.trans h'.alike
  have hhere : w.files.here = start.files.here := h.alike.here.symm
  obtain ⟨result, after', hruns', hresult, _⟩ := hruns.replay
    (hremote ▸ isSteady_cachedRemote hfixed) horderly.requestsFirst halike
    (Access.keepsAway_of_prepared (horderly.prepared _) (by simp) (hhere ▸ haway))
    fun url hurl => by
      rw [hremote, h.answerTo_eq hfixed (haway _ hurl), h'.answerTo_eq hfixed (haway _ hurl)]
  obtain ⟨_, hfiles, _⟩ := run.step_of_run rules hruns.run_eq
  obtain ⟨rfl, hfiles', _⟩ := run.step_of_run rules hruns'.run_eq
  rw [← hs] at hfiles
  rw [← hs'] at hfiles' hresult
  exact ⟨hresult, hfiles ▸ hruns.leaves halike.wellFormed,
    hfiles' ▸ hruns'.leaves halike.wellFormed'⟩

end Undisturbed

/-! ## Two runs -/

/-- A target in two runs: it ended in the same way, with the same report, and at the end of both
runs its files hold what it wrote there last. -/
structure Agrees {σ : Type} (s s' : Step σ) (log : List Access) (tree tree' : FileTree) : Prop where
  result : s.result.toOption = s'.result.toOption
  files : ∀ place content,
    Access.lastAt s.before.files.here place (Access.written log) = some content →
      tree.find? place = some (.file content) ∧ tree'.find? place = some (.file content)

section Agree

variable {σ : Type} {remote : Task.Remote σ} {reads : String → Option String}
  {start : World (σ × Cache)} {run : Run (σ × Cache)} {rules : List RouteRule}
  {ts ts' : List Config.Target} {front back front' back' : List (Step (σ × Cache))}
  {s s' : Step (σ × Cache)}

/-- What comes before a step leaves the world undisturbed for those who keep away from it. -/
theorem undisturbed_front (others : List (Step (σ × Cache)))
    (hremote : run.remote = cachedRemote remote) (hfixed : Task.IsFixed remote reads)
    (hwf : start.files.WellFormed)
    (hs : run.steps rules start ts = front ++ s :: back) (hothers : front ⊆ others) :
    Undisturbed remote reads (fun place => ∃ other ∈ others, other.Changes place)
      (fun place => ∃ other ∈ others, other.Makes place) start (endOf start front) := by
  obtain ⟨_, _, hfront, _, _⟩ := steps_eq_append hs
  rw [hfront] at hothers ⊢
  exact undisturbed_steps hremote hfixed (.refl hwf)
    (fun other hother _ hchanges => ⟨other, hothers hother, hchanges⟩)
    (fun other hother _ hmakes => ⟨other, hothers hother, hmakes⟩)

/-- The files that a step has left behind are there at the end when what comes afterwards keeps away
from them. -/
theorem keeps_back {others : List (Step (σ × Cache))} {log : List Access} {tree : FileTree}
    {place : Place} {content : Content} (hs : run.steps rules start ts = front ++ s :: back)
    (hothers : back ⊆ others) (hleaves : Access.Leaves log tree s.after.files)
    (haway : ∀ access ∈ log, ∀ other ∈ others,
      access.KeepsAway other.Changes other.Makes tree.here reads)
    (hlast : Access.lastAt tree.here place (Access.written log) = some content) :
    (endOf start (run.steps rules start ts)).files.find? place = some (.file content) := by
  obtain ⟨_, _, _, _, hback⟩ := steps_eq_append hs
  have hend : endOf start (front ++ s :: back) = endOf s.after back := by simp [endOf]
  rw [hs, hend]
  rw [hback] at hothers ⊢
  exact keeps_written hleaves
    (fun access haccess other hother => haway access haccess other (hothers hother)) hlast

/-- A target agrees in two lists of steps when it keeps away from what the others change. -/
theorem agrees_of_keepsAway {log : List Access} (hremote : run.remote = cachedRemote remote)
    (hfixed : Task.IsFixed remote reads) (hwf : start.files.WellFormed)
   
    (hs : run.steps rules start ts = front ++ s :: back)
    (hs' : run.steps rules start ts' = front' ++ s' :: back') (htarget : s.target = s'.target)
    (hlog : run.Traces rules s log)
    (haway : ∀ access ∈ log, ∀ other ∈ front ++ back ++ (front' ++ back'),
      access.KeepsAway other.Changes other.Makes start.files.here
        (readsAfter reads start.remote.2)) :
    Agrees s s' log (endOf start (run.steps rules start ts)).files
      (endOf start (run.steps rules start ts')).files := by
  generalize hothers : front ++ back ++ (front' ++ back') = others at haway
  have hfront : front ⊆ others := by simp [← hothers]
  have hback : back ⊆ others := by simp [← hothers]
  have hrest : front' ++ back' ⊆ others := hothers ▸ List.subset_append_right _ _
  obtain ⟨hfront', hback'⟩ := List.append_subset.1 hrest
  have hreach := undisturbed_front others hremote hfixed hwf hs hfront
  have hreach' := undisturbed_front others hremote hfixed hwf hs' hfront'
  obtain ⟨_, _, _, hstep, _⟩ := steps_eq_append hs
  obtain ⟨_, _, _, hstep', _⟩ := steps_eq_append hs'
  obtain ⟨hresult, hleaves, hleaves'⟩ := step_agrees hremote hfixed hreach hreach' hstep
    (htarget ▸ hstep') hlog fun access haccess =>
      ⟨fun path hpath place hplace ⟨other, hother, hchanges⟩ =>
          (haway access haccess other hother).file path hpath place hplace hchanges,
        fun place hplace ⟨other, hother, hmakes⟩ =>
          (haway access haccess other hother).dir place hplace hmakes⟩
  have hbefore : s.before = endOf start front := by
    rw [hstep]
    rfl
  have hhere : (endOf start front).files.here = start.files.here := hreach.alike.here.symm
  have hhere' : (endOf start front').files.here = start.files.here := hreach'.alike.here.symm
  refine ⟨hresult, fun place content hlast => ?_⟩
  rw [hbefore] at hlast
  exact ⟨keeps_back hs hback hleaves (hhere ▸ haway) hlast,
    keeps_back hs' hback' hleaves' (hhere' ▸ haway) (hhere' ▸ hhere ▸ hlast)⟩

end Agree

section Selections

variable {σ : Type}

/-- Options that ask for the targets of given names, or for all if there are none. -/
def choosing (options : RunOptions) (names : List String) : RunOptions :=
  { options with targets := names }

/-- The steps of a run that is asked for the targets of given names. -/
def stepsFor (run : Run σ) (rules : List RouteRule) (start : World σ) (names : List String) :
    List (Step σ) :=
  run.steps rules start (selected run.config (choosing run.options names))

/-- What else a run is asked for does not matter to a target. -/
theorem writeTarget_choosing (config : Config) (options : RunOptions) (source : String)
    (seconds : Int) (remote : Task.Remote σ) (names : List String) (rules : List RouteRule)
    (t : Config.Target) :
    (ofConfig config (choosing options names) source seconds remote).writeTarget rules t =
      (ofConfig config options source seconds remote).writeTarget rules t := by
  unfold writeTarget
  cases LineClient.ofClient? t.client with
  | some client => rfl
  | none =>
    dsimp only
    unfold writeDocument
    rfl

theorem steps_choosing (config : Config) (options : RunOptions) (source : String) (seconds : Int)
    (remote : Task.Remote σ) (names : List String) (rules : List RouteRule) (w : World σ)
    (ts : List Config.Target) :
    (ofConfig config (choosing options names) source seconds remote).steps rules w ts =
      (ofConfig config options source seconds remote).steps rules w ts := by
  induction ts generalizing w with
  | nil => rfl
  | cons t ts ih =>
    have hstep : (ofConfig config (choosing options names) source seconds remote).step rules w t =
        (ofConfig config options source seconds remote).step rules w t := by
      unfold step
      rw [writeTarget_choosing]
    rw [steps, steps, hstep, ih]

end Selections

/-- A run ends with the verdict on its steps.  A target ends in the same way in two runs, with the
same report and the same files, when what it does keeps away from what the others in both runs
change. -/
theorem perform_isolates {σ : Type} {config : Config} {options : RunOptions} {source : String}
    {seconds : Int} {remote : Task.Remote σ} {reads : String → Option String}
    {before start : World (σ × Cache)} {rules : List RouteRule} {run : Run (σ × Cache)}
    (hrun : run = ofConfig config options source seconds (cachedRemote remote))
    (hwf : before.files.WellFormed) (hfixed : Task.IsFixed remote reads)
    (hrules : (resolveRules (cachedRemote remote) (.ofNames config.destinations) 0
      config.rules).Yields before rules start) :
    (∀ names, unknownTarget? config (choosing options names) = none →
      (perform config (choosing options names) source seconds
            (cachedRemote remote)).run.run before =
          (verdict (run.stepsFor rules start names), endOf start (run.stepsFor rules start names)) ∧
        (run.stepsFor rules start names).map Step.target =
          selected config (choosing options names)) ∧
    ∀ names names' front s back front' s' back' log,
      run.stepsFor rules start names = front ++ s :: back →
      run.stepsFor rules start names' = front' ++ s' :: back' → s.target = s'.target →
      run.Traces rules s log →
      (∀ access ∈ log, ∀ other ∈ front ++ back ++ (front' ++ back'),
        access.KeepsAway other.Changes other.Makes before.files.here
          (readsAfter reads start.remote.2)) →
      Agrees s s' log (endOf start (run.stepsFor rules start names)).files
        (endOf start (run.stepsFor rules start names')).files := by
  subst hrun
  constructor
  · intro names hknown
    refine ⟨?_, targets_steps _ _ _ _⟩
    rw [run_perform hknown hrules, steps_choosing]
    rfl
  have hstart : start.files = before.files := files_of_resolveRules hrules
  rw [← hstart] at hwf ⊢
  intro names names' front s back front' s' back' log hs hs' htarget hlog haway
  exact agrees_of_keepsAway rfl hfixed hwf hs hs' htarget hlog haway

/-! ## Two targets -/

section Pair

/-- A target for Clash. -/
def linesTarget : Config.Target :=
  { name := "lines"
    client := .clash
    file := none
    renames := .empty
    options := []
    singBox := .standard }

/-- A configuration with given targets. -/
def configOf (targets : List Config.Target) : Config :=
  { destinations := ["PROXY"]
    rules := [⟨.outbound "PROXY", [.literal "DOMAIN,a.com"]⟩]
    targets }

/-- A run that writes given targets with the documents of a fetcher. -/
def cachedRun (remote : Task.Remote Unit) (targets : List Config.Target) : Run (Unit × Cache) :=
  ofConfig (configOf targets) sampleRun.options "rules.yaml" 0 (cachedRemote remote)

/-- Write the targets of given names. -/
def performCached (remote : Task.Remote Unit) (targets : List Config.Target)
    (names : List String) : Task RunError (Unit × Cache) (List TargetReport) :=
  perform (configOf targets) (choosing sampleRun.options names) "rules.yaml" 0 (cachedRemote remote)

/-- Resolve the rules of a configuration with given targets. -/
def resolveCached (remote : Task.Remote Unit) (targets : List Config.Target) :
    Task RunError (Unit × Cache) (List RouteRule) :=
  resolveRules (cachedRemote remote) (.ofNames (configOf targets).destinations) 0
    (configOf targets).rules

/-- A world with nothing but a tool in the working directory, and an empty cache. -/
def cachedWorld : World (Unit × Cache) :=
  ⟨(toolWorld 0).files, ((), []), []⟩

theorem wellFormed_cachedWorld : cachedWorld.files.WellFormed :=
  wellFormed_toolWorld 0

/-- The tool of the world looks at no files. -/
theorem isBlind_cachedWorld : cachedWorld.files.AllPrograms Program.IsBlind := by
  refine .of_entries ?_ nofun
  have hentries : cachedWorld.files.entries =
      [(["w"], .directory), (["w", "sing-box"], .program (copyingTool 0))] := rfl
  rw [hentries]
  simp only [List.forall_mem_cons, List.not_mem_nil, reduceCtorEq, Entry.program.injEq, false_imp_iff,
    forall_eq', implies_true, and_true, true_and]
  exact fun _ _ => rfl

/-- A target that fails, and one whose file is written after it. -/
def failingFirst : List Config.Target :=
  [boxTarget "Nowhere", linesTarget]

/-- The run of both of them. -/
def failingRun : Run (Unit × Cache) :=
  cachedRun ofFiles failingFirst

/-- Whether a step has failed and left the way to the file of the next one free, whose file was
written. -/
def leavesFree : List (Step (Unit × Cache)) → Bool
  | [box, lines] =>
    box.result.toOption.isNone && box.after.files.isDirectory ["w"] &&
      box.after.files.isDirectory ["w", "out"] &&
      (box.before.files.find? ["w", "out", "lines.yaml"]).isNone &&
      (box.after.files.find? ["w", "out", "lines.yaml"]).isNone &&
      lines.result.toOption.map TargetReport.path = some "out/lines.yaml" &&
      lines.before.files.here = ["w"]
  | _ => false

theorem failingFirst_yields :
    ∃ rules start box lines alone,
      (resolveCached ofFiles failingFirst).Yields cachedWorld rules start ∧
      failingRun.stepsFor rules start [] = [box, lines] ∧
      failingRun.stepsFor rules start ["lines"] = [alone] ∧
      box.target = boxTarget "Nowhere" ∧ lines.target = linesTarget ∧ alone.target = linesTarget ∧
      leavesFree [box, lines] = true := by
  obtain ⟨rules, start, hrules, hcheck⟩ := Task.exists_of_yieldsWith (show
    (resolveCached ofFiles failingFirst).yieldsWith cachedWorld (fun rules start =>
      leavesFree (failingRun.stepsFor rules start [])) = true by decide +kernel)
  exact ⟨rules, start, _, _, _, hrules, rfl, rfl, rfl, rfl, rfl, hcheck⟩

/-- A step that has left the way to a file free, and the file missing, is not in the way of who writes
it. -/
theorem keepsAway_lines {s : Step (Unit × Cache)} (hroot : s.after.files.isDirectory ["w"] = true)
    (hout : s.after.files.isDirectory ["w", "out"] = true)
    (hbefore : s.before.files.find? ["w", "out", "lines.yaml"] = none)
    (hafter : s.after.files.find? ["w", "out", "lines.yaml"] = none) (content : Content)
    (reads : String → Option String) :
    ∀ access ∈ fileLog "out/lines.yaml" content,
      access.KeepsAway s.Changes s.Makes ["w"] reads := by
  have hvisited : visited ["w"] "out/lines.yaml" =
      [["w"], ["w", "out"], ["w", "out", "lines.yaml"]] := by decide +kernel
  have hplace : placeOf ["w"] "out/lines.yaml" = ["w", "out", "lines.yaml"] := by decide +kernel
  refine keepsAway_fileLog (by decide +kernel) ?_ ?_
  · simp [hvisited, Step.Changes, hroot, hout, hbefore, hafter]
  · simp [hplace, Step.Makes, hafter]

theorem perform_isolates_lines :
    ∃ rules start box lines alone report content,
      (resolveCached ofFiles failingFirst).Yields cachedWorld rules start ∧
      failingRun.stepsFor rules start [] = [box, lines] ∧
      failingRun.stepsFor rules start ["lines"] = [alone] ∧
      (performCached ofFiles failingFirst []).run.run cachedWorld =
        (.error (.targetsFailed ["box"] 2), endOf start [box, lines]) ∧
      lines.result = .ok report ∧ alone.result = .ok report ∧ report.path = "out/lines.yaml" ∧
      (endOf start [box, lines]).files.find? ["w", "out", "lines.yaml"] = some (.file content) ∧
      (endOf start [alone]).files.find? ["w", "out", "lines.yaml"] = some (.file content) := by
  obtain ⟨rules, start, box, lines, alone, hrules, hboth, halone, hbox', hlines, halone', hcheck⟩ :=
    failingFirst_yields
  simp only [leavesFree, Bool.and_eq_true, Option.isNone_iff_eq_none, decide_eq_true_eq] at hcheck
  obtain ⟨⟨⟨⟨⟨⟨hbox, hroot⟩, hout⟩, hbefore⟩, hafter⟩, hpath⟩, hhere⟩ := hcheck
  obtain ⟨report, hreport, hpath⟩ := Option.map_eq_some_iff.1 hpath
  have hsplit : failingRun.stepsFor rules start [] = [box] ++ lines :: [] := hboth
  obtain ⟨_, _, _, hstep, _⟩ := steps_eq_append hsplit
  have hclient : LineClient.ofClient? lines.target.client = some .clash := by
    rw [hlines]
    rfl
  obtain ⟨content, hlog⟩ :=
    exists_traces_lines hstep hclient (Except.toOption_eq_some_iff.1 hreport)
  have haway : ∀ access ∈ fileLog report.path (.text content),
      access.KeepsAway box.Changes box.Makes cachedWorld.files.here
        (readsAfter localPath? start.remote.2) :=
    hpath ▸ keepsAway_lines hroot hout hbefore hafter _ _
  obtain ⟨hverdict, hisolates⟩ := perform_isolates (show failingRun = _ from rfl)
    wellFormed_cachedWorld isFixed_ofFiles hrules
  obtain ⟨hresult, hfiles⟩ := hisolates [] ["lines"] [box] lines [] [] alone [] _ hsplit halone
    (hlines.trans halone'.symm) hlog (by simpa using haway)
  rw [hboth, halone] at hfiles
  obtain ⟨hfile, hfile'⟩ := hfiles ["w", "out", "lines.yaml"] (.text content) (by
    have hplace : placeOf ["w"] "out/lines.yaml" = ["w", "out", "lines.yaml"] := by decide +kernel
    rw [written_fileLog, hpath, hhere]
    simp [Access.lastAt, hplace])
  refine ⟨rules, start, box, lines, alone, report, .text content, hrules, hboth, halone, ?_,
    Except.toOption_eq_some_iff.1 hreport, Except.toOption_eq_some_iff.1 (hresult ▸ hreport), hpath,
    hfile, hfile'⟩
  have hends : verdict [box, lines] = .error (.targetsFailed ["box"] 2) := by
    simp [verdict, hbox, hreport, hbox', boxTarget]
  rw [← hends, ← hboth]
  exact (hverdict [] rfl).1

/-- A target for sing-box whose rule sets are in the directory of the other files, with a dot at the
end of its path. -/
def dottedBox : Config.Target :=
  { boxTarget "PROXY" with
    singBox := { SingBox.Options.standard with ruleSet := { compiledSets with directory := "." } } }

/-- A target for Clash before one whose rule sets need the same directory. -/
def dottedLast : List Config.Target :=
  [linesTarget, dottedBox]

/-- The run of both of them, without documents. -/
def dottedRun : Run (Unit × Cache) :=
  cachedRun sampleRun.remote dottedLast

/-- A name that ends like the files of rule sets is below the directory of the dot. -/
theorem placeOf_dotted {name : String} (hslash : '/' ∉ name.toList)
    (hlast : name.toList.getLast? = some 'n' ∨ name.toList.getLast? = some 's') :
    name ≠ "lines.yaml" ∧ placeOf ["w"] (join "out/." name) = ["w", "out", name] := by
  have hne : ∀ other : String, other.toList.getLast? ≠ some 'n' →
      other.toList.getLast? ≠ some 's' → name ≠ other := by
    rintro other hn hs rfl
    exact hlast.elim hn hs
  refine ⟨hne _ (by decide) (by decide), ?_⟩
  rw [placeOf_join hslash, show placeOf ["w"] "out/." = ["w", "out"] by decide +kernel]
  simp [enter, hne "" (by decide) (by decide), hne "." (by decide) (by decide),
    hne ".." (by decide) (by decide)]

/-- The places of the files that a target for sing-box with a dot reads or writes. -/
theorem placeOf_of_reaches {access : Access} {path : String}
    (h : dottedRun.Reaches dottedBox access)
    (hpath : path ∈ access.withoutLooks.filePaths fun _ => none) :
    placeOf ["w"] path = ["w", "sing-box"] ∨
      ∃ name, name ≠ "lines.yaml" ∧ placeOf ["w"] path = ["w", "out", name] := by
  have hdirectory : (dottedRun.compilerFor dottedBox).directory = "out/." := by
    decide +kernel
  rcases filePaths_cases rfl h hpath with rfl | ⟨tag, htag, hset⟩ | rfl
  · exact .inl (by decide +kernel)
  · right
    obtain ⟨hsource, hcompiled⟩ := SingBox.Compiler.slash_not_mem_of_plain htag
    unfold SingBox.Compiler.sourcePath SingBox.Compiler.compiledPath at hset
    rw [hdirectory] at hset
    rcases hset with rfl | rfl
    · exact ⟨_, placeOf_dotted hsource (by simp)⟩
    · exact ⟨_, placeOf_dotted hcompiled (by simp)⟩
  · exact .inr ⟨"box.json", by decide +kernel, by decide +kernel⟩

theorem apart_dotted {rules : List RouteRule} {w w' : World (Unit × Cache)}
    (hhere : w.files.here = ["w"]) (hhere' : w'.files.here = ["w"]) (hwf : w'.files.WellFormed)
    (hblind : w'.files.AllPrograms Program.IsBlind) :
    dottedRun.Apart rules (fun _ => none) (dottedRun.step rules w linesTarget)
      (dottedRun.step rules w' dottedBox) := by
  obtain ⟨log, after, hruns, hlog⟩ := dottedRun.exists_runs_step rules w linesTarget
  obtain ⟨log', after', hruns', hlog'⟩ := dottedRun.exists_runs_step rules w' dottedBox
  refine ⟨log, log'.map Access.withoutLooks, after, after', hruns, hruns'.withoutLooks hwf hblind, ?_⟩
  intro access haccess access' haccess' path hpath path' hpath'
  obtain ⟨made, hmade, rfl⟩ := List.mem_map.1 haccess'
  obtain rfl : path = "out/lines.yaml" := eq_of_writesTo (hlog access haccess) hpath
  have hplace : placeOf ["w"] "out/lines.yaml" = ["w", "out", "lines.yaml"] := by decide +kernel
  show ¬placeOf w.files.here _ <+: placeOf w'.files.here _ ∧
    ¬placeOf w'.files.here _ <+: placeOf w.files.here _
  rw [hhere, hhere', hplace]
  rcases placeOf_of_reaches (hlog' made hmade) hpath' with hplace | ⟨name, hname, hplace⟩
  · rw [hplace]
    decide
  · rw [hplace]
    simp [hname, Ne.symm hname]

/-- Whether the second of three steps succeeded and the third one failed; all of them start in the
same directory. -/
def dependsOnFirst : List (Step (Unit × Cache)) → Bool
  | [lines, box, alone] =>
    box.result.toOption.isSome && alone.result.toOption.isNone && lines.before.files.here = ["w"] &&
      box.before.files.here = ["w"] && alone.before.files.here = ["w"]
  | _ => false

/-- A directory cannot be made at a path with a dot at its end unless it is there.  So a target that
has its rule sets there fails alone and succeeds after another one, which has made the directory but
whose file is elsewhere. -/
theorem perform_dotted_depends :
    Task.IsFixed sampleRun.remote (fun _ => none) ∧ cachedWorld.files.AllPrograms Program.IsBlind ∧
    ∃ rules start lines box alone report,
      (resolveCached sampleRun.remote dottedLast).Yields cachedWorld rules start ∧
      dottedRun.stepsFor rules start [] = [lines, box] ∧
      dottedRun.stepsFor rules start ["box"] = [alone] ∧
      dottedRun.Apart rules (fun _ => none) lines box ∧
      dottedRun.Apart rules (fun _ => none) lines alone ∧
      box.target = alone.target ∧ box.result = .ok report ∧ alone.result.toOption = none := by
  obtain ⟨rules, start, hrules, hcheck⟩ := Task.exists_of_yieldsWith (show
    (resolveCached sampleRun.remote dottedLast).yieldsWith cachedWorld (fun rules start =>
      dependsOnFirst (dottedRun.stepsFor rules start [] ++
        dottedRun.stepsFor rules start ["box"])) = true by decide +kernel)
  obtain ⟨lines, box, hlines, hbox, hboth⟩ : ∃ lines box,
      lines = dottedRun.step rules start linesTarget ∧
      box = dottedRun.step rules lines.after dottedBox ∧
      dottedRun.stepsFor rules start [] = [lines, box] :=
    ⟨_, _, rfl, rfl, rfl⟩
  obtain ⟨alone, halone, hsingle⟩ : ∃ alone,
      alone = dottedRun.step rules start dottedBox ∧
      dottedRun.stepsFor rules start ["box"] = [alone] :=
    ⟨_, rfl, rfl⟩
  simp only [hboth, hsingle, dependsOnFirst, List.cons_append, List.nil_append, Bool.and_eq_true,
    Option.isNone_iff_eq_none, decide_eq_true_eq] at hcheck
  obtain ⟨⟨⟨⟨hsome, hnone⟩, hhere⟩, hhere'⟩, hhere''⟩ := hcheck
  obtain ⟨report, hreport⟩ := Option.isSome_iff_exists.1 hsome
  have hfiles : start.files = cachedWorld.files := files_of_resolveRules hrules
  have hwf : start.files.WellFormed := hfiles ▸ wellFormed_cachedWorld
  have hblind : start.files.AllPrograms Program.IsBlind := hfiles ▸ isBlind_cachedWorld
  obtain ⟨_, hleaves⟩ : ∃ log, Access.Leaves log start.files
      (dottedRun.step rules start linesTarget).after.files := leaves_step hwf
  refine ⟨fun _ _ _ _ _ _ => rfl, isBlind_cachedWorld, ?_⟩
  refine ⟨rules, start, lines, box, alone, report, hrules, hboth, hsingle, ?_, ?_, ?_,
    Except.toOption_eq_some_iff.1 hreport, hnone⟩ <;> subst hlines hbox halone
  · exact apart_dotted hhere hhere' hleaves.wellFormed (hleaves.allPrograms hblind)
  · exact apart_dotted hhere hhere'' hwf hblind
  · rfl

end Pair

end RoutingRules.Run
