import RoutingRules.Text.Split

/-!
# Patterns over domains

Entries of domain lists come in three forms, told apart by how they are written.  Patterns with
wildcards are turned into regular expressions for clients that only know those.
-/

namespace RoutingRules

/-- An entry of a domain list. -/
inductive DomainPattern where
  /-- Written `+.name` or `.name`: the domain and everything below it. -/
  | suffix (name : String)
  /-- Written with a star: a pattern with wildcards. -/
  | wildcard (pattern : String)
  /-- One domain. -/
  | exact (domain : String)
deriving DecidableEq, Repr

namespace DomainPattern

/-- Read an entry of a domain list. -/
def read (entry : String) : DomainPattern :=
  if '*' ∈ entry.toList then .wildcard entry
  else
    match entry.toList with
    | '+' :: '.' :: name => .suffix (String.ofList name)
    | '.' :: name => .suffix (String.ofList name)
    | _ => .exact entry

/-- A pattern for clients that know no leading `+.`: there the domains below have to be named
with a star. -/
def starred (pattern : String) : String :=
  match pattern.toList with
  | '+' :: '.' :: rest => String.ofList ('*' :: '.' :: rest)
  | _ => pattern

/-! ## Regular expressions -/

/-- The characters that have a meaning of their own in regular expressions. -/
def regexSigns : List Char :=
  ['\\', '.', '+', '*', '?', '(', ')', '|', '[', ']', '{', '}', '^', '$', '#', '&', '-', '~']

/-- Whether a character has a meaning of its own in regular expressions. -/
def isRegexSign (c : Char) : Bool :=
  regexSigns.contains c

/-- A character that stands for itself in a regular expression. -/
def regexLiteral (c : Char) : List Char :=
  if isRegexSign c then ['\\', c] else [c]

/-- A wildcard or any other character of a pattern as a regular expression. -/
def regexPart (c : Char) : List Char :=
  if c = '*' then ['.', '*'] else if c = '?' then ['.'] else regexLiteral c

/-- The regular expression over whole domains that means the same as a pattern. -/
def regex (pattern : String) : String :=
  let body :=
    match pattern.toList with
    | '+' :: '.' :: rest => "(.+\\.)?".toList ++ rest.flatMap regexPart
    | cs => cs.flatMap regexPart
  String.ofList ('^' :: body ++ ['$'])

end DomainPattern

end RoutingRules
