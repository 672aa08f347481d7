import RoutingRules.Error

/-!
# Fetching remote lists

A fetcher answers requests for documents.  It may keep a state of its own, so that its answers
can change from one request to the next, and the state outlives a failure.  A fetcher with a
cache remembers the documents that it got, and no failures.
-/

namespace RoutingRules

/-- A computation that may fetch documents and fail; the state stays when it fails. -/
abbrev Fetching (σ : Type) := ExceptT RuleError (StateM σ)

/-- What answers requests for documents by their addresses. -/
abbrev Fetcher (σ : Type) := String → Fetching σ String

namespace Fetcher

variable {σ : Type}

/-- The fetcher for a fixed set of documents. -/
def ofDocuments (documents : SortedMap String) : Fetcher σ := fun url =>
  match documents.get? url with
  | some text => return text
  | none => throw (.fetch (.missing url))

/-! ## Cache -/

/-- The documents fetched so far. -/
abbrev Cache := List (String × String)

/-- The document of an address in a cache. -/
def Cache.find? (cache : Cache) (url : String) : Option String :=
  (List.find? (fun entry => entry.1 = url) cache).map Prod.snd

/-- Run a request of a fetcher without a cache, leaving the cache alone. -/
def liftCache {α : Type} (request : Fetching σ α) : Fetching (σ × Cache) α :=
  ExceptT.mk fun (state, cache) =>
    let (answer, state) := request.run.run state
    (answer, state, cache)

/-- A fetcher that asks another one only for documents that it has not got yet. -/
def cached (inner : Fetcher σ) : Fetcher (σ × Cache) := fun url => do
  match Cache.find? (← get).2 url with
  | some text => return text
  | none =>
    let text ← liftCache (inner url)
    modify fun (state, cache) => (state, (url, text) :: cache)
    return text

end Fetcher

end RoutingRules
