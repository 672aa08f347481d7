import Mathlib.Data.Finset.Card
import RoutingRules.Proofs.Run.Cache
import RoutingRules.Proofs.Run.Steps

/-!
# Documents are fetched once

A fetcher with a cache passes requests on until the first of them for an address gets a document,
and answers all later ones for this address with that document.  Nothing is assumed about the
fetcher behind the cache: its answers may change from one request to the next.

What is behind the cache is watched by a record of the requests that reach it and of its answers.
The invariant relates the record and the cache to the history of all requests: the record holds
those before which their address had got no document, and the cache the first document of each
address.

Main results:

- Theorem {lit}`Serves.request`: one more request keeps the invariant.
- Theorem {lit}`run_request`: a request is passed on, or is answered with the first document.
- Theorem {lit}`length_passed`: how many requests are passed on.
- Theorem {lit}`exists_ask_perform`: to the fetcher a whole run is a sequence of requests.
- Theorem {lit}`Run.fetches_once`: the same for every fetcher, every sequence of requests and every
  run.
-/

namespace RoutingRules.Run

/-! ## Histories of requests -/

/-- A request for the document of an address, and its answer. -/
structure Exchange where
  url : String
  answer : Except RuleError String

namespace Exchange

/-- The document that an address got in an exchange. -/
def document? (url : String) (e : Exchange) : Option String :=
  if e.url = url then e.answer.toOption else none

/-- Whether the answer is no document. -/
def failed (e : Exchange) : Bool :=
  e.answer.toOption.isNone

end Exchange

/-- The first document that an address got. -/
def firstDocument (history : List Exchange) (url : String) : Option String :=
  history.findSome? (Exchange.document? url)

/-- The exchanges before which their address had got no document; `before` are those that came
earlier. -/
def passedBehind (before : List Exchange) : List Exchange → List Exchange
  | [] => []
  | e :: later =>
    if (firstDocument before e.url).isNone then e :: passedBehind (before ++ [e]) later
    else passedBehind (before ++ [e]) later

/-- The exchanges before which their address had got no document. -/
def passed (history : List Exchange) : List Exchange :=
  passedBehind [] history

/-- Whether every address that has got a document gets the same one ever after. -/
def Consistent (history : List Exchange) : Prop :=
  ∀ before e later, history = before ++ e :: later →
    ∀ text, firstDocument before e.url = some text → e.answer = .ok text

/-- The addresses that got a document. -/
def succeeded (history : List Exchange) : Finset String :=
  ((history.filter fun e => !e.failed).map Exchange.url).toFinset

section History

variable {history : List Exchange} {e : Exchange} {url : String}

theorem firstDocument_concat :
    firstDocument (history ++ [e]) url = (firstDocument history url).or (e.document? url) := by
  rw [firstDocument, List.findSome?_append, List.findSome?_singleton]
  rfl

theorem passedBehind_concat (before : List Exchange) :
    passedBehind before (history ++ [e]) = passedBehind before history ++
      if (firstDocument (before ++ history) e.url).isNone then [e] else [] := by
  induction history generalizing before with
  | nil => simp [passedBehind]
  | cons first history ih =>
    rw [List.cons_append, passedBehind, passedBehind, ih, List.append_assoc, List.singleton_append]
    split <;> rfl

/-- One more exchange is passed on unless its address has got a document. -/
theorem passed_concat :
    passed (history ++ [e]) =
      passed history ++ if (firstDocument history e.url).isNone then [e] else [] :=
  passedBehind_concat []

/-- One more exchange has to repeat the document that its address has got. -/
theorem consistent_concat_iff :
    Consistent (history ++ [e]) ↔
      Consistent history ∧
        ∀ text, firstDocument history e.url = some text → e.answer = .ok text := by
  constructor
  · intro h
    refine ⟨?_, h history e [] rfl⟩
    rintro before first later rfl
    exact h before first (later ++ [e]) (by simp)
  · rintro ⟨hhistory, hlast⟩ before first later hsplit
    rcases List.eq_nil_or_concat later with rfl | ⟨front, last, rfl⟩
    · rcases List.append_inj' hsplit rfl with ⟨rfl, heq⟩
      rw [← (List.cons.inj heq).1]
      exact hlast
    · have hfront : history = before ++ first :: front := by
        have hsame : history ++ [e] = (before ++ first :: front) ++ [last] := by simpa using hsplit
        exact (List.append_inj' hsame rfl).1
      exact hhistory before first front hfront

/-- An address got a document when there is a first one. -/
theorem mem_succeeded_iff :
    url ∈ succeeded history ↔ (firstDocument history url).isSome = true := by
  simp only [succeeded, List.mem_toFinset, List.mem_map, List.mem_filter, firstDocument,
    List.findSome?_isSome_iff, Exchange.document?, Exchange.failed]
  constructor
  · rintro ⟨e, ⟨he, hsome⟩, rfl⟩
    exact ⟨e, he, by simpa using hsome⟩
  · rintro ⟨e, he, hsome⟩
    split at hsome
    next hurl => exact ⟨e, ⟨he, by simpa using hsome⟩, hurl⟩
    next => cases hsome

theorem succeeded_concat :
    succeeded (history ++ [e]) =
      if e.failed then succeeded history else insert e.url (succeeded history) := by
  ext url
  by_cases hfailed : e.failed = true
  · simp [succeeded, hfailed]
  · simp [succeeded, hfailed]

/-- As many requests are passed on as there are addresses that got a document and answers that are
none. -/
theorem length_passed (h : Consistent history) :
    (passed history).length =
      (succeeded history).card + (history.filter Exchange.failed).length := by
  induction history using List.reverseRecOn with
  | nil => rfl
  | append_singleton history e ih =>
    rcases consistent_concat_iff.1 h with ⟨hhistory, hlast⟩
    have hcount := ih hhistory
    rw [passed_concat, succeeded_concat, List.filter_append, List.length_append, List.length_append]
    cases hfirst : firstDocument history e.url with
    | none =>
      have hnew : e.url ∉ succeeded history := by
        rw [mem_succeeded_iff, hfirst]
        exact Bool.false_ne_true
      by_cases hfailed : e.failed = true
      · simp [hfailed, hcount]
        omega
      · simp [hfailed, hcount, hnew]
        omega
    | some text =>
      have hold : e.url ∈ succeeded history := by
        rw [mem_succeeded_iff, hfirst]
        rfl
      have hfailed : e.failed = false := by
        rw [Exchange.failed, hlast text hfirst]
        rfl
      simp [hfailed, hcount, hold]

/-- Of the requests that are passed on at most one gets a document for an address. -/
theorem length_documents_passed (history : List Exchange) (url : String) :
    ((passed history).filter fun e => (e.document? url).isSome).length =
      if (firstDocument history url).isSome then 1 else 0 := by
  induction history using List.reverseRecOn with
  | nil => rfl
  | append_singleton history e ih =>
    rw [passed_concat, List.filter_append, List.length_append, ih, firstDocument_concat]
    by_cases hurl : e.url = url
    · subst hurl
      cases hfirst : firstDocument history e.url with
      | none => cases hdocument : e.document? e.url <;> simp [hdocument]
      | some text => simp
    · have hnone : e.document? url = none := if_neg hurl
      have hnew : ((if (firstDocument history e.url).isNone then [e] else []).filter
          fun e => (e.document? url).isSome) = [] := by
        split <;> simp [hnone]
      rw [hnew, hnone, Option.or_none]
      rfl

end History

/-! ## The record behind the cache -/

/-- A fetcher with a record of the requests that reach it and of its answers. -/
def recordedRemote {σ : Type} (remote : Task.Remote σ) : Task.Remote (σ × List Exchange) :=
  fun files url => ExceptT.mk fun (state, calls) =>
    let (answer, state) := (remote files url).run.run state
    (answer, state, calls ++ [⟨url, answer⟩])

/-- A request, and the files when it is made. -/
structure Request where
  files : FileTree
  url : String

/-- Make requests one after another, and keep their history. -/
def ask {τ : Type} (remote : Task.Remote τ) (state : τ) : List Request → List Exchange × τ
  | [] => ([], state)
  | request :: requests =>
    let made := (remote request.files request.url).run.run state
    let others := ask remote made.2 requests
    (⟨request.url, made.1⟩ :: others.1, others.2)

/-- How the record and the cache relate to the history of all requests. -/
structure Serves (history calls : List Exchange) (cache : Fetcher.Cache) : Prop where
  /-- A request is passed on unless its address has got a document. -/
  calls_eq : calls = passed history
  /-- The cache has the first document of every address, and no failures. -/
  find?_eq : ∀ url, Fetcher.Cache.find? cache url = firstDocument history url
  /-- An address that has got a document gets it ever after. -/
  consistent : Consistent history

section Record

variable {σ : Type} {remote : Task.Remote σ} {history calls : List Exchange}
  {cache : Fetcher.Cache}

theorem serves_nil : Serves [] [] [] := by
  refine ⟨rfl, fun _ => rfl, ?_⟩
  intro before e later h
  simp at h

/-- An address that has got a document may get it again. -/
theorem Serves.again (h : Serves history calls cache) {url text : String}
    (hfirst : firstDocument history url = some text) :
    Serves (history ++ [⟨url, .ok text⟩]) calls cache where
  calls_eq := by
    rw [passed_concat, hfirst, h.calls_eq]
    simp
  find?_eq other := by
    rw [h.find?_eq, firstDocument_concat]
    by_cases hurl : url = other
    · rw [← hurl, hfirst]
      rfl
    · have hnone : (⟨url, .ok text⟩ : Exchange).document? other = none := if_neg hurl
      rw [hnone, Option.or_none]
  consistent := by
    refine consistent_concat_iff.2 ⟨h.consistent, ?_⟩
    intro other hother
    rw [hfirst] at hother
    rw [Option.some.inj hother]

/-- The cache after an answer of the fetcher. -/
def store (url : String) (cache : Fetcher.Cache) : Except RuleError String → Fetcher.Cache
  | .ok text => (url, text) :: cache
  | .error _ => cache

/-- An address that has got no document may get any answer of the fetcher. -/
theorem Serves.pass (h : Serves history calls cache) {url : String}
    (hfirst : firstDocument history url = none) (answer : Except RuleError String) :
    Serves (history ++ [⟨url, answer⟩]) (calls ++ [⟨url, answer⟩]) (store url cache answer) where
  calls_eq := by
    rw [passed_concat, hfirst, h.calls_eq]
    rfl
  find?_eq other := by
    rw [firstDocument_concat, ← h.find?_eq]
    cases answer with
    | error e => simp [store, Exchange.document?, Except.toOption]
    | ok text =>
      rw [store, find?_cons]
      by_cases hurl : url = other
      · have hnone : Fetcher.Cache.find? cache other = none := by
          rw [h.find?_eq, ← hurl, hfirst]
        simp [Exchange.document?, Except.toOption, hurl, hnone]
      · simp [Exchange.document?, hurl]
  consistent := by
    refine consistent_concat_iff.2 ⟨h.consistent, ?_⟩
    intro other hother
    rw [hfirst] at hother
    cases hother

/-- An address that has got a document gets it from the cache. -/
theorem run_request_of_some (h : Serves history calls cache) (inner : σ) (files : FileTree)
    {url text : String} (hfirst : firstDocument history url = some text) :
    (cachedRemote (recordedRemote remote) files url).run.run ((inner, calls), cache) =
      (.ok text, (inner, calls), cache) := by
  rw [run_cachedRemote, h.find?_eq, hfirst]

/-- A request for another address is passed on, and its answer is that of the fetcher. -/
theorem run_request_of_none (h : Serves history calls cache) (inner : σ) (files : FileTree)
    {url : String} (hfirst : firstDocument history url = none) :
    (cachedRemote (recordedRemote remote) files url).run.run ((inner, calls), cache) =
      let (answer, inner') := (remote files url).run.run inner
      (answer, (inner', calls ++ [⟨url, answer⟩]), store url cache answer) := by
  have hrecorded : (recordedRemote remote files url).run.run (inner, calls) =
      let (answer, inner') := (remote files url).run.run inner
      (answer, inner', calls ++ [⟨url, answer⟩]) := rfl
  rw [run_cachedRemote, h.find?_eq, hfirst, hrecorded]
  rcases (remote files url).run.run inner with ⟨e | text, inner'⟩ <;> rfl

/-- A request is answered with the first document of its address, or else it is passed on. -/
theorem run_request (h : Serves history calls cache) (inner : σ) (files : FileTree) (url : String) :
    (cachedRemote (recordedRemote remote) files url).run.run ((inner, calls), cache) =
      match firstDocument history url with
      | some text => (.ok text, (inner, calls), cache)
      | none =>
        let (answer, inner') := (remote files url).run.run inner
        (answer, (inner', calls ++ [⟨url, answer⟩]), store url cache answer) := by
  cases hfirst : firstDocument history url with
  | none => exact run_request_of_none h inner files hfirst
  | some text => exact run_request_of_some h inner files hfirst

/-- One more request keeps the invariant. -/
theorem Serves.request {state : (σ × List Exchange) × Fetcher.Cache}
    (h : Serves history state.1.2 state.2) (remote : Task.Remote σ) (files : FileTree)
    (url : String) {made : Except RuleError String × (σ × List Exchange) × Fetcher.Cache}
    (hmade : (cachedRemote (recordedRemote remote) files url).run.run state = made) :
    Serves (history ++ [⟨url, made.1⟩]) made.2.1.2 made.2.2 := by
  rcases state with ⟨⟨inner, calls⟩, cache⟩
  subst hmade
  cases hfirst : firstDocument history url with
  | none =>
    rw [run_request_of_none h inner files hfirst]
    exact h.pass hfirst _
  | some text =>
    rw [run_request_of_some h inner files hfirst]
    exact h.again hfirst

/-- The requests that are passed on are counted by the history of all requests. -/
theorem Serves.length_calls (h : Serves history calls cache) :
    calls.length = (succeeded history).card + (history.filter Exchange.failed).length := by
  rw [h.calls_eq]
  exact length_passed h.consistent

/-- At most one of the requests that are passed on gets a document for an address. -/
theorem Serves.length_documents_le (h : Serves history calls cache) (url : String) :
    (calls.filter fun e => (e.document? url).isSome).length ≤ 1 := by
  rw [h.calls_eq, length_documents_passed]
  split <;> omega

end Record

/-! ## Sequences of requests -/

section Sequences

variable {σ τ : Type}

theorem ask_append (remote : Task.Remote τ) (state : τ) (requests others : List Request) :
    ask remote state (requests ++ others) =
      ((ask remote state requests).1 ++ (ask remote (ask remote state requests).2 others).1,
        (ask remote (ask remote state requests).2 others).2) := by
  induction requests generalizing state with
  | nil => rfl
  | cons request requests ih =>
    simp only [List.cons_append, ask, ih]

theorem urls_ask (remote : Task.Remote τ) (state : τ) (requests : List Request) :
    (ask remote state requests).1.map Exchange.url = requests.map Request.url := by
  induction requests generalizing state with
  | nil => rfl
  | cons request requests ih => simp [ask, ih]

/-- Every sequence of requests keeps the invariant. -/
theorem Serves.ask {remote : Task.Remote σ} {history : List Exchange}
    {state : (σ × List Exchange) × Fetcher.Cache} (h : Serves history state.1.2 state.2)
    (requests : List Request) {asked : List Exchange × (σ × List Exchange) × Fetcher.Cache}
    (hasked : Run.ask (cachedRemote (recordedRemote remote)) state requests = asked) :
    Serves (history ++ asked.1) asked.2.1.2 asked.2.2 := by
  subst hasked
  induction requests generalizing history state with
  | nil =>
    rw [Run.ask, List.append_nil]
    exact h
  | cons request requests ih =>
    have hfirst := h.request remote request.files request.url rfl
    have hothers := ih hfirst
    rw [List.append_assoc] at hothers
    exact hothers

/-- Every sequence of requests to an empty cache leads to the invariant. -/
theorem serves_ask {remote : Task.Remote σ} {start : σ} {requests : List Request}
    {asked : List Exchange × (σ × List Exchange) × Fetcher.Cache}
    (hasked : ask (cachedRemote (recordedRemote remote)) ((start, []), []) requests = asked) :
    Serves asked.1 asked.2.1.2 asked.2.2 := by
  let state : (σ × List Exchange) × Fetcher.Cache := ((start, []), [])
  have hstart : Serves [] state.1.2 state.2 := serves_nil
  exact hstart.ask requests hasked

end Sequences

/-! ## Runs as sequences of requests -/

section Runs

variable {τ ε α : Type} {remote : Task.Remote τ} {before after : World τ}

/-- To the fetcher a computation is the sequence of its requests. -/
theorem exists_ask_of_runs {task : Task ε τ α} {log : List Access} {result : Except ε α}
    (h : Task.Runs remote task before log result after) :
    ∃ requests, (ask remote before.remote requests).2 = after.remote := by
  induction h with
  | lift | tell | askVersion | runTool | measure | write | refuse | make => exact ⟨[], rfl⟩
  | request url w => exact ⟨[⟨w.files, url⟩], rfl⟩
  | bind _ _ ih ih' =>
    rcases ih with ⟨requests, hrequests⟩
    rcases ih' with ⟨others, hothers⟩
    refine ⟨requests ++ others, ?_⟩
    rw [ask_append, hrequests, hothers]
  | stop _ _ ih => exact ih
  | mapError _ _ ih => exact ih

/-- The same for one target after another, whether they fail or not. -/
theorem exists_ask_steps (run : Run τ) (rules : List RouteRule) (w : World τ)
    (targets : List Config.Target) :
    ∃ requests, (ask run.remote w.remote requests).2 =
      (endOf w (run.steps rules w targets)).remote := by
  induction targets generalizing w with
  | nil => exact ⟨[], rfl⟩
  | cons t targets ih =>
    rcases (run.reaches_writeTarget rules t).exists_of_run rfl with ⟨log, hruns, _⟩
    rcases exists_ask_of_runs hruns with ⟨requests, hrequests⟩
    rcases ih (run.step rules w t).after with ⟨others, hothers⟩
    refine ⟨requests ++ others, ?_⟩
    rw [ask_append, hrequests]
    exact hothers

/-- The same for a whole run, however it ends. -/
theorem exists_ask_perform (config : Config) (options : RunOptions) (source : String)
    (seconds : Int) (remote : Task.Remote τ) (before : World τ) :
    ∃ requests, (ask remote before.remote requests).2 =
      ((perform config options source seconds remote).run.run before).2.remote := by
  cases hknown : unknownTarget? config options with
  | some name =>
    refine ⟨[], ?_⟩
    rw [perform, hknown]
    rfl
  | none =>
    rcases hrules : (resolveRules remote (.ofNames config.destinations) 0
      config.rules).run.run before with ⟨result, start⟩
    rcases (does_resolveRules _ 0 config.rules).exists_of_run hrules with ⟨log, hruns, _⟩
    rcases exists_ask_of_runs hruns with ⟨requests, hrequests⟩
    cases result with
    | error e =>
      refine ⟨requests, ?_⟩
      rw [hrequests, perform, hknown]
      dsimp only
      rw [Task.run_bind, hrules]
    | ok rules =>
      rcases exists_ask_steps (ofConfig config options source seconds remote) rules start
        (selected config options) with ⟨others, hothers⟩
      refine ⟨requests ++ others, ?_⟩
      rw [run_perform hknown hrules, ask_append, hrequests]
      exact hothers

end Runs

/-- A request that finds an address without a document reaches the fetcher, whatever it answered
before, and gets its answer; all others get the first document of their address and leave the
fetcher alone.  Failures are not stored.  So as many requests reach the fetcher as there are
addresses that got a document and requests that failed.  A run is a sequence of requests, however it
ends, and gets the document of an address from the fetcher at most once. -/
theorem fetches_once {σ : Type} (remote : Task.Remote σ) (start : σ) :
    (∀ requests : List Request, ∃ history inner calls cache,
      ask (cachedRemote (recordedRemote remote)) ((start, []), []) requests =
        (history, (inner, calls), cache) ∧
      history.map Exchange.url = requests.map Request.url ∧
      Serves history calls cache ∧
      calls.length = (succeeded history).card + (history.filter Exchange.failed).length ∧
      (∀ url, (calls.filter fun e => (e.document? url).isSome).length ≤ 1) ∧
      ∀ files url,
        (cachedRemote (recordedRemote remote) files url).run.run ((inner, calls), cache) =
          match firstDocument history url with
          | some text => (.ok text, (inner, calls), cache)
          | none =>
            let (answer, inner') := (remote files url).run.run inner
            (answer, (inner', calls ++ [⟨url, answer⟩]), store url cache answer)) ∧
    ∀ config options source seconds files notices, ∃ requests inner calls cache,
      ((perform config options source seconds (cachedRemote (recordedRemote remote))).run.run
        ⟨files, ((start, []), []), notices⟩).2.remote = ((inner, calls), cache) ∧
      (ask (cachedRemote (recordedRemote remote)) ((start, []), []) requests).2 =
        ((inner, calls), cache) ∧
      ∀ url, (calls.filter fun e => (e.document? url).isSome).length ≤ 1 := by
  constructor
  · intro requests
    rcases hasked : ask (cachedRemote (recordedRemote remote)) ((start, []), []) requests with
      ⟨history, ⟨inner, calls⟩, cache⟩
    have hserves : Serves history calls cache := serves_ask hasked
    have hurls := urls_ask (cachedRemote (recordedRemote remote)) ((start, []), []) requests
    rw [hasked] at hurls
    refine ⟨history, inner, calls, cache, rfl, hurls, hserves, hserves.length_calls,
      hserves.length_documents_le, ?_⟩
    intro files url
    exact run_request hserves inner files url
  · intro config options source seconds files notices
    rcases exists_ask_perform config options source seconds (cachedRemote (recordedRemote remote))
      ⟨files, ((start, []), []), notices⟩ with ⟨requests, hrequests⟩
    rcases hasked : ask (cachedRemote (recordedRemote remote)) ((start, []), []) requests with
      ⟨history, ⟨inner, calls⟩, cache⟩
    have hserves : Serves history calls cache := serves_ask hasked
    rw [hasked] at hrequests
    refine ⟨requests, inner, calls, cache, hrequests.symm, ?_, hserves.length_documents_le⟩
    rw [hasked]

/-- A fetcher that counts what it is asked, fails at first, and then answers with the count. -/
def countingRemote : Task.Remote Nat := fun _ url => do
  let count ← get
  set (count + 1)
  if count = 0 then throw (.fetch (.missing url)) else return Number.decimal count

/-- The failure is passed on once more, and the second document of an address is its first one. -/
example :
    let asked := ask (cachedRemote (recordedRemote countingRemote)) ((0, []), [])
      (["x", "x", "y", "x"].map fun url => ⟨⟨[], []⟩, url⟩)
    asked.1.map (fun e => e.answer.toOption) = [none, some "1", some "2", some "1"] ∧
      asked.2.1.2.map Exchange.url = ["x", "x", "y"] := by
  decide +kernel

end RoutingRules.Run
