import RoutingRules.Url.Host

/-!
# Addresses

The address of a document: a scheme, a server with the credentials for it, a path, a query and a
fragment.  All parts are kept as they are written in an address, with escapes.
-/

namespace RoutingRules

/-- What a server is told about who asks. -/
structure Url.Credentials where
  user : String
  password : Option String
deriving DecidableEq, Repr

/-- The server of an address. -/
structure Url.Authority where
  credentials : Url.Credentials
  host : Url.Host
  /-- The port, if it is not the usual one of the scheme. -/
  port : Option Nat
deriving DecidableEq, Repr

/-- The path of an address. -/
inductive Url.Path where
  /-- Segments with a slash in front of each. -/
  | divided (segments : List String)
  /-- A text that is not divided. -/
  | whole (text : String)
deriving DecidableEq, Repr

/-- An address. -/
structure Url where
  scheme : String
  authority : Option Url.Authority
  path : Url.Path
  query : Option String
  fragment : Option String
deriving DecidableEq, Repr

namespace Url

/-! ## Credentials -/

/-- No credentials. -/
def Credentials.none : Credentials :=
  ⟨"", Option.none⟩

/-- Whether the escapes of a text stand for the octets of a text. -/
def isTextual (s : String) : Bool :=
  (Text.ofOctets? (Text.unescaped s.toList)).isSome

/-- Whether credentials can be told to a server.  A password that is no text counts as none. -/
def Credentials.canBeTold (c : Credentials) : Bool :=
  isTextual c.user && (c.user ≠ "" || c.password.any isTextual)

/-- An address from which credentials have been taken if they can be told to the server. -/
def withoutCredentials (url : Url) : Url :=
  match url.authority with
  | some authority =>
    if authority.credentials.canBeTold then
      { url with authority := some { authority with credentials := .none } }
    else url
  | none => url

/-! ## Text -/

/-- Credentials with the sign that ends them. -/
def Credentials.text (c : Credentials) : String :=
  if c = .none then ""
  else c.user ++ (c.password.elim "" fun password => ":" ++ password) ++ "@"

/-- A server as text. -/
def Authority.text (a : Authority) : String :=
  a.credentials.text ++ a.host.text ++ (a.port.elim "" fun port => ":" ++ Number.decimal port)

/-- A path as text. -/
def Path.text : Path → String
  | divided segments => String.join (segments.map ("/" ++ ·))
  | whole text => text

/-- What keeps a path from being taken for a server: a segment with a dot. -/
def Path.guard : Path → String
  | divided ("" :: _ :: _) => "/."
  | _ => ""

/-- An address as text. -/
def text (url : Url) : String :=
  let place :=
    match url.authority with
    | some authority => "//" ++ authority.text
    | none => url.path.guard
  url.scheme ++ ":" ++ place ++ url.path.text ++ (url.query.elim "" fun query => "?" ++ query) ++
    (url.fragment.elim "" fun fragment => "#" ++ fragment)

end Url

end RoutingRules
