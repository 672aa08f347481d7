/-!
# Splitting and joining texts

Cutting a text at a separator and putting pieces together again, both on lists of characters
and on strings, and the lines of a document.
-/

namespace RoutingRules.Text

/-! ## Separators -/

/-- The pieces between the characters that satisfy `sep`; there is always at least one piece. -/
def splitWhere (sep : Char → Bool) : List Char → List (List Char)
  | [] => [[]]
  | c :: cs =>
    if sep c then [] :: splitWhere sep cs
    else
      match splitWhere sep cs with
      | [] => [[c]]
      | piece :: pieces => (c :: piece) :: pieces

/-- The pieces between the occurrences of one separator. -/
def splitOn (sep : Char) (cs : List Char) : List (List Char) :=
  splitWhere (fun c => c = sep) cs

/-- The pieces of a text between the occurrences of one separator. -/
def pieces (sep : Char) (s : String) : List String :=
  (splitOn sep s.toList).map String.ofList

/-- The texts before and after the first occurrence of a separator. -/
def splitFirst (sep : Char) : List Char → Option (List Char × List Char)
  | [] => none
  | c :: cs =>
    if c = sep then some ([], cs)
    else (splitFirst sep cs).map fun (before, after) => (c :: before, after)

/-- Put texts together with a separator between neighbours. -/
def joinWith (sep : String) : List String → String
  | [] => ""
  | [s] => s
  | s :: t :: rest => s ++ sep ++ joinWith sep (t :: rest)

/-- What follows `front` in a text that starts with it. -/
def dropFront? (front s : String) : Option String :=
  (front.toList.isPrefixOf? s.toList).map String.ofList

/-! ## Lines -/

/-- A line without the carriage return at its end. -/
def dropCarriageReturn (line : List Char) : List Char :=
  if line.getLast? = some '\r' then line.dropLast else line

/-- The lines of a document.  A line ends at a line feed, which takes a carriage return before
it along; text after the last line feed is a line when it is not empty. -/
def linesOf (cs : List Char) : List (List Char) :=
  let all := splitOn '\n' cs
  all.dropLast.map dropCarriageReturn ++ all.getLast?.toList.filter (fun line => !line.isEmpty)

/-- The lines of a text. -/
def lines (s : String) : List String :=
  (linesOf s.toList).map String.ofList

end RoutingRules.Text
