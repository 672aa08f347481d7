import RoutingRules.Text.Split

/-!
# Paths as text

Paths are texts with slashes.  Joining and taking the parent only look at the text; what a path
leads to is settled when it is followed.
-/

namespace RoutingRules.Files

/-- Whether a path starts at the root. -/
def isAbsolute (path : String) : Bool :=
  path.toList.head? = some '/'

/-- The path of `name` below `dir`.  An absolute path stays as it is. -/
def join (dir name : String) : String :=
  if isAbsolute name then name
  else if dir = "" || dir.toList.getLast? = some '/' then dir ++ name
  else dir ++ "/" ++ name

/-- The positions of the parts of a path that name something.  Empty parts do not, and neither does
a dot, unless the path starts with it. -/
def namedParts (parts : List String) : List Nat :=
  (List.range parts.length).filter fun i =>
    match parts[i]? with
    | some part => part ≠ "" && (part ≠ "." || i = 0)
    | none => false

/-- The path without the last part that names something, as it is written. -/
def parent? (path : String) : Option String :=
  let parts := Text.pieces '/' path
  match (namedParts parts).reverse with
  | [] => none
  | [_] => some (if isAbsolute path then "/" else "")
  | _ :: i :: _ => some (Text.joinWith "/" (parts.take (i + 1)))

/-- A path with all its parents, the longest first; `steps` bounds their number. -/
def withParents : Nat → String → List String
  | 0, _ => []
  | steps + 1, path =>
    if path = "" then []
    else
      match parent? path with
      | some parent => path :: withParents steps parent
      | none => [path]

end RoutingRules.Files
