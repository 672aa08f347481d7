import RoutingRules.Url

/-!
# Reading addresses

Reads the address that a text stands for.  Addresses whose schemes address servers are read with
more care for what was meant: backslashes count as slashes, there can be any number of slashes in
front of the server, and the path is never empty.
-/

namespace RoutingRules.Url

/-! ## Schemes -/

/-- The schemes that address servers, with their usual ports. -/
def servedSchemes : List (String × Nat) :=
  [("http", 80), ("https", 443), ("ws", 80), ("wss", 443), ("ftp", 21)]

/-- The usual port of a scheme. -/
def usualPort? (scheme : String) : Option Nat :=
  (servedSchemes.find? fun entry => entry.1 = scheme).map Prod.snd

/-- Whether a scheme addresses servers. -/
def isServed (scheme : String) : Bool :=
  (usualPort? scheme).isSome

/-- The scheme of local files. -/
def fileScheme : String :=
  "file"

/-- Whether a text is the name of a scheme. -/
def isScheme : List Char → Bool
  | [] => false
  | c :: rest =>
    c.isAlpha && rest.all fun d => d.isAlphanum || d = '+' || d = '-' || d = '.'

/-- Read the scheme of an address and the colon behind it. -/
def takeScheme (cs : List Char) : Option (String × List Char) := do
  let (scheme, rest) ← Text.splitFirst ':' cs
  if isScheme scheme then return (String.ofList (scheme.map Char.toLower), rest) else none

/-! ## Characters -/

/-- The text of an address without controls and spaces around it and line breaks and tabs in it. -/
def cleaned (cs : List Char) : List Char :=
  let outside := fun c : Char => c.toNat ≤ 0x20
  let inside := ((cs.dropWhile outside).reverse.dropWhile outside).reverse
  inside.filter fun c => c ≠ '\t' && c ≠ '\n' && c ≠ '\r'

/-- Whether a character counts as a slash. -/
def isSlash (served : Bool) (c : Char) : Bool :=
  c = '/' || (served && c = '\\')

/-- Whether a character ends a path. -/
def endsPath (c : Char) : Bool :=
  c = '?' || c = '#'

/-- Whether a character ends the server of an address. -/
def endsAuthority (served : Bool) (c : Char) : Bool :=
  isSlash served c || endsPath c

/-! ## Servers -/

/-- The texts before and after the last sign that ends credentials. -/
def splitCredentials (cs : List Char) : Option (List Char × List Char) :=
  (Text.splitFirst '@' cs.reverse).map fun (after, before) => (before.reverse, after.reverse)

/-- Read credentials.  An empty password is none. -/
def readCredentials (cs : List Char) : Credentials :=
  let (user, password) := (Text.splitFirst ':' cs).getD (cs, [])
  let written := fun part : List Char => String.ofList (Part.user.escaped part)
  ⟨written user, if password = [] then none else some (written password)⟩

/-- The text of a host and what follows it: a colon outside of brackets. -/
def splitHost (inBrackets : Bool) : List Char → List Char × List Char
  | [] => ([], [])
  | c :: rest =>
    if c = ':' && !inBrackets then ([], c :: rest)
    else
      let (host, behind) := splitHost (c = '[' || (inBrackets && c ≠ ']')) rest
      (c :: host, behind)

/-- Read the port of a server behind its host, and what follows it.  A backslash ends it. -/
def takePort (scheme : String) : List Char → Option (Option Nat × List Char)
  | ':' :: rest =>
    let digits := rest.takeWhile Char.isDigit
    let behind := rest.dropWhile Char.isDigit
    let port := (Number.readRadix 10 digits).filter fun n => some n ≠ usualPort? scheme
    if port.all (· < 0x10000) ∧ behind.head?.all (· = '\\') then some (port, behind) else none
  | behind => some (none, behind)

/-- Read the server of an address, and what follows it.  Only an address that has neither
credentials nor a port can do without a host, and the sign of credentials alone is no server. -/
def takeAuthority (scheme : String) (cs : List Char) : Option (Authority × List Char) := do
  let served := isServed scheme
  let behind := cs.dropWhile (!endsAuthority served ·)
  let text := cs.takeWhile (!endsAuthority served ·)
  let (user, server) := (splitCredentials text).getD ([], text)
  let credentials := readCredentials user
  let (host, rest) := splitHost false server
  let host ← Host.read? served host
  let (port, rest) ← takePort scheme rest
  let onlySign := text = ['@'] && behind ≠ []
  if onlySign || (host = .absent && (server ≠ [] || credentials ≠ .none)) then none
  else return (⟨credentials, host, port⟩, rest ++ behind)

/-! ## Paths -/

/-- What a segment means for the path. -/
inductive Step where
  | stay
  | up
  | down (segment : String)
deriving DecidableEq, Repr

/-- A segment as a step.  Dots may be written as escapes. -/
def Step.ofSegment (cs : List Char) : Step :=
  let small := String.ofList (cs.map Char.toLower)
  if [".", "%2e"].contains small then stay
  else if ["..", ".%2e", "%2e.", "%2e%2e"].contains small then up
  else down (String.ofList (Part.path.escaped cs))

/-- Whether a segment is the letter of a drive. -/
def isDrive (segment : List Char) : Bool :=
  match segment with
  | [c, d] => c.isAlpha && (d = ':' || d = '|')
  | _ => false

/-- The segments above the last one, in reverse.  A drive is not left. -/
def parent : List String → List String
  | [] => []
  | last :: rest => if isDrive last.toList then last :: rest else rest

/-- Take steps from the segments `done`, which are in reverse.  A path whose last step stays or goes
up ends with a slash. -/
def walk (done : List String) : List Step → List String
  | [] => done.reverse
  | [.stay] => ("" :: done).reverse
  | [.up] => ("" :: parent done).reverse
  | .stay :: steps => walk done steps
  | .up :: steps => walk (parent done) steps
  | .down segment :: steps => walk (segment :: done) steps

/-- The segments of a path, which may do without the slash in front. -/
def segments (served : Bool) (cs : List Char) : List String :=
  let behindSlash := if cs.head?.any (isSlash served) then cs.tail else cs
  walk [] ((Text.splitWhere (isSlash served) behindSlash).map Step.ofSegment)

/-- The segments of the path of a file, which do not start with empty ones. -/
def fileSegments (cs : List Char) : List String :=
  let named := (segments true cs).dropWhile (· = "")
  if named = [] then [""] else named

/-! ## Addresses -/

/-- The address with a path, a query and a fragment that are still to be read. -/
def behindPlace (scheme : String) (authority : Option Authority) (path : List Char → Path)
    (cs : List Char) : Url :=
  let (before, fragment) :=
    match Text.splitFirst '#' cs with
    | some (before, fragment) => (before, some fragment)
    | none => (cs, none)
  let (before, query) :=
    match Text.splitFirst '?' before with
    | some (before, query) => (before, some query)
    | none => (before, none)
  let written := fun (part : Part) (cs : List Char) => String.ofList (part.escaped cs)
  { scheme
    authority
    path := path before
    query := query.map (written (.query (isServed scheme || scheme = fileScheme)))
    fragment := fragment.map (written .fragment) }

/-- Read the server of a local file, which is left out if it is this one, and what follows it. -/
def takeFileHost (cs : List Char) : Option (Host × List Char) :=
  if (cs.take 2).length = 2 ∧ (cs.take 2).all (isSlash true) then
    let text := (cs.drop 2).takeWhile (!endsAuthority true ·)
    let behind := (cs.drop 2).dropWhile (!endsAuthority true ·)
    if text = [] then some (.absent, behind)
    else if isDrive text then some (.absent, cs.drop 2)
    else (Host.read? true text).map fun host =>
      (if host = .name "localhost" then .absent else host, behind)
  else some (.absent, cs)

/-- Read the address of a local file behind its scheme. -/
def readFile (cs : List Char) : Option Url :=
  (takeFileHost cs).map fun (host, behind) =>
    behindPlace fileScheme (some ⟨.none, host, none⟩) (.divided ∘ fileSegments) behind

/-- Read an address behind its scheme, if that addresses servers. -/
def readServed (scheme : String) (cs : List Char) : Option Url :=
  (takeAuthority scheme (cs.dropWhile (isSlash true))).map fun (authority, behind) =>
    behindPlace scheme (some authority) (.divided ∘ segments true) behind

/-- Read an address with another scheme behind that. -/
def readOther (scheme : String) (cs : List Char) : Option Url :=
  match cs with
  | '/' :: '/' :: rest =>
    (takeAuthority scheme rest).map fun (authority, behind) =>
      let path := fun cs => if cs = [] then .divided [] else .divided (segments false cs)
      behindPlace scheme (some authority) path behind
  | '/' :: _ => some (behindPlace scheme none (.divided ∘ segments false) cs)
  | _ =>
    let path := fun cs => .whole (String.ofList (Part.plain.escaped cs))
    some (behindPlace scheme none path cs)

/-- Read an address. -/
def read? (text : String) : Option Url := do
  let (scheme, rest) ← takeScheme (cleaned text.toList)
  if scheme = fileScheme then readFile rest
  else if isServed scheme then readServed scheme rest
  else readOther scheme rest

end RoutingRules.Url
