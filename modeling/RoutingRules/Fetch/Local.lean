import RoutingRules.Fetch
import RoutingRules.Url.Read
import RoutingRules.World

/-!
# Fetching local lists

The fetcher of runs reads local files.  An address without a scheme is a path, and so is what
follows the scheme of files.  Requests to servers are left to a program with access to a network;
here they fail.
-/

namespace RoutingRules.Fetcher

/-! ## Addresses -/

/-- Whether the mark behind a scheme stands anywhere in a text. -/
def hasSchemeMark : List Char → Bool
  | [] => false
  | c :: rest => "://".toList.isPrefixOf (c :: rest) || hasSchemeMark rest

/-- The path of a local file that an address stands for. -/
def localPath? (url : String) : Option String :=
  match Text.dropFront? "file://" url with
  | some path => some path
  | none => if hasSchemeMark url.toList then none else some url

/-- The schemes of requests that can be made. -/
def requestSchemes : List String :=
  ["http", "https"]

/-- The greatest count of octets in the address of a request. -/
def longestAddress : Nat :=
  65534

/-- Whether a request for an address can be made.  Not every host can be written in one. -/
def canBeRequested (url : Url) : Bool :=
  let host := (url.authority.elim "" fun authority => authority.host.text).toList
  requestSchemes.contains url.scheme &&
    host.all (fun c => !("\"`".toList ++ ['{', '}']).contains c) &&
    url.text.utf8ByteSize ≤ longestAddress

/-- Why a document that is not a local file cannot be fetched.  Credentials are not shown. -/
def requestFault (url : String) : FetchFault :=
  match (Url.read? url).map Url.withoutCredentials with
  | none => .badRequest url none
  | some address =>
    if canBeRequested address then .unreachable url address.text
    else .badRequest url (some address.text)

/-! ## Fetching -/

/-- The fetcher of local files. -/
def ofFiles {σ : Type} : Task.Remote σ := fun files url =>
  match localPath? url with
  | some path =>
    match files.read path with
    | .ok text => return text
    | .error fault => throw (.fetch (.unreadable path fault))
  | none => throw (.fetch (requestFault url))

end RoutingRules.Fetcher
