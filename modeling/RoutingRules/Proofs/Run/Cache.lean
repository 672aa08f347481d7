import RoutingRules.Fetch.Local
import RoutingRules.Proofs.World.Replay
import RoutingRules.Run

/-!
# Requests through the cache

With a fetcher whose answers are fixed, a request through the cache gets what it would have got when
the cache was empty, as long as the file that it reads, if any, stays the same.  So it does not matter
who asked before.

Main results:

- Theorem {lit}`isFixed_ofFiles`: the answers of the fetcher of local files are fixed.
- Theorem {lit}`isSteady_cachedRemote`: requests do not change what other requests get.
- Theorem {lit}`cache_of_runs`: a document that comes into the cache is the one that the fetcher gave
  when the run began.
-/

namespace RoutingRules

variable {σ ε α : Type}

/-- Answers of a fetcher are fixed: they only depend on the address and on what the file of a path
holds, if the address stands for one. -/
def Task.IsFixed (remote : Task.Remote σ) (reads : String → Option String) : Prop :=
  ∀ (url : String) (files files' : FileTree) (state state' : σ),
    (∀ path, reads url = some path → (files.read path).toOption = (files'.read path).toOption) →
      ((remote files url).run.run state).1.toOption =
        ((remote files' url).run.run state').1.toOption

/-- The answers of the fetcher of local files are fixed. -/
theorem Fetcher.isFixed_ofFiles :
    Task.IsFixed (Fetcher.ofFiles : Task.Remote σ) Fetcher.localPath? := by
  intro url files files' state state' hsame
  unfold Fetcher.ofFiles
  cases hpath : Fetcher.localPath? url with
  | none => rfl
  | some path =>
    have hread := hsame path hpath
    dsimp only
    cases hfile : files.read path <;> cases hfile' : files'.read path <;>
      simp_all [Except.toOption] <;> rfl

namespace Run

open Fetcher

variable {remote : Task.Remote σ} {reads : String → Option String}

/-! ## The cache -/

/-- A request is answered from the cache, or by the fetcher, whose document is then kept. -/
theorem run_cachedRemote (remote : Task.Remote σ) (files : FileTree) (url : String)
    (state : σ) (cache : Cache) :
    (cachedRemote remote files url).run.run (state, cache) =
      match Cache.find? cache url with
      | some text => (.ok text, state, cache)
      | none =>
        match (remote files url).run.run state with
        | (.ok text, state) => (.ok text, state, (url, text) :: cache)
        | (.error e, state) => (.error e, state, cache) := by
  show ((match Cache.find? cache url with
    | some text => (pure text : Fetching (σ × Cache) String)
    | none => liftCache (remote files url) >>= fun text =>
      (modify (fun s : σ × Cache => (s.1, (url, text) :: s.2)) : Fetching (σ × Cache) PUnit) >>=
        fun _ => pure text)).run.run (state, cache) = _
  cases Cache.find? cache url with
  | some text => rfl
  | none =>
    simp only [ExceptT.run_bind, StateT.run_bind]
    have hlift : (liftCache (remote files url)).run.run (state, cache) =
        (((remote files url).run.run state).1, ((remote files url).run.run state).2, cache) := rfl
    rw [hlift]
    rcases (remote files url).run.run state with ⟨answer | text, state⟩ <;> rfl

theorem find?_cons (cache : Cache) (url text url' : String) :
    Cache.find? ((url, text) :: cache) url' =
      if url = url' then some text else Cache.find? cache url' := by
  unfold Cache.find?
  by_cases hurl : url = url' <;> simp [hurl]

/-- What the fetcher itself would answer to a request. -/
def freshAnswer (remote : Task.Remote σ) (w : World (σ × Cache)) (url : String) : Option String :=
  ((remote w.files url).run.run w.remote.1).1.toOption

theorem answerTo_cachedRemote (w : World (σ × Cache)) (url : String) :
    Task.answerTo (cachedRemote remote) w url =
      (Cache.find? w.remote.2 url).or (freshAnswer remote w url) := by
  obtain ⟨files, ⟨state, cache⟩, notices⟩ := w
  rw [Task.answerTo, run_cachedRemote]
  unfold freshAnswer
  dsimp only
  cases Cache.find? cache url with
  | some text => rfl
  | none => rcases (remote files url).run.run state with ⟨answer | text, state⟩ <;> rfl

/-- What is in the cache after a request: what was there, and the document, if it was not. -/
theorem find?_afterRequest (w : World (σ × Cache)) (url url' : String) :
    Cache.find? ((cachedRemote remote w.files url).run.run w.remote).2.2 url' =
      if url = url' then (Cache.find? w.remote.2 url).or (freshAnswer remote w url)
      else Cache.find? w.remote.2 url' := by
  obtain ⟨files, ⟨state, cache⟩, notices⟩ := w
  rw [run_cachedRemote]
  unfold freshAnswer
  dsimp only
  by_cases hurl : url = url'
  · subst hurl
    cases hcache : Cache.find? cache url with
    | some text => simp [hcache]
    | none =>
      rcases (remote files url).run.run state with ⟨answer | text, state⟩
      · simp [hcache, Except.toOption]
      · simp [find?_cons, Except.toOption]
  · cases hcache : Cache.find? cache url with
    | some text => simp [hurl]
    | none =>
      rcases (remote files url).run.run state with ⟨answer | text, state⟩
      · simp [hurl]
      · simp [find?_cons, hurl]

/-- Requests do not change what other requests get. -/
theorem isSteady_cachedRemote (hfixed : Task.IsFixed remote reads) :
    Task.IsSteady (cachedRemote remote) := by
  intro w url url'
  rw [answerTo_cachedRemote, answerTo_cachedRemote]
  have hfresh : freshAnswer remote
      { w with remote := ((cachedRemote remote w.files url).run.run w.remote).2 } url' =
        freshAnswer remote w url' :=
    hfixed url' _ _ _ _ fun _ _ => rfl
  rw [find?_afterRequest, hfresh]
  by_cases hurl : url = url'
  · subst hurl
    simp [Option.or_assoc]
  · simp [hurl]

/-! ## Documents in the cache -/

variable {task : Task ε (σ × Cache) α} {before after : World (σ × Cache)} {log : List Access}
  {result : Except ε α}

/-- Who requests nothing leaves the fetcher alone. -/
theorem remote_of_runs (h : Task.Runs (cachedRemote remote) task before log result after)
    (hnone : ∀ access ∈ log, ¬access.IsRequest) : after.remote = before.remote := by
  induction h with
  | lift | tell | askVersion | runTool | measure | write | refuse | make => rfl
  | request => simp [Access.IsRequest] at hnone
  | bind _ _ ih ih' =>
    simp only [List.mem_append, or_imp, forall_and] at hnone
    rw [ih' hnone.2, ih hnone.1]
  | stop _ _ ih => exact ih hnone
  | mapError _ _ ih => exact ih hnone

/-- A document that comes into the cache is the one that the fetcher gave when the run began. -/
theorem cache_of_runs (hfixed : Task.IsFixed remote reads)
    (h : Task.Runs (cachedRemote remote) task before log result after)
    (hfirst : Access.RequestsFirst log) (url : String) :
    Cache.find? after.remote.2 url = Cache.find? before.remote.2 url ∨
      Cache.find? before.remote.2 url = none ∧
        Cache.find? after.remote.2 url = freshAnswer remote before url := by
  induction h with
  | lift | tell | askVersion | runTool | measure | write | refuse | make => exact .inl rfl
  | request url' w =>
    rw [find?_afterRequest]
    by_cases hurl : url' = url
    · subst hurl
      cases hcache : Cache.find? w.remote.2 url' with
      | some text => simp
      | none => simp
    · simp [hurl]
  | bind h h' ih ih' =>
    obtain ⟨hfirst, hfirst', hsplit⟩ := hfirst.append
    rcases hsplit with honly | hnone
    · have hfiles := h.files_of_requests honly
      have hfresh : ∀ w w' : World (σ × Cache), w.files = w'.files →
          freshAnswer remote w url = freshAnswer remote w' url := by
        intro w w' hsame
        exact hfixed url _ _ _ _ fun path _ => by rw [hsame]
      rcases ih' hfirst' with hsame | ⟨hnone, hnew⟩
      · rw [hsame]
        exact ih hfirst
      · rw [hnew, hfresh _ _ hfiles]
        rcases ih hfirst with hsame | ⟨hnone', hnew'⟩
        · exact .inr ⟨by rw [← hsame, hnone], rfl⟩
        · exact .inr ⟨hnone', rfl⟩
    · rw [remote_of_runs h' hnone]
      exact ih hfirst
  | stop _ _ ih => exact ih hfirst
  | mapError _ _ ih => exact ih hfirst

end Run

end RoutingRules
