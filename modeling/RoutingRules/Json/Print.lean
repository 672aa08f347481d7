import RoutingRules.Json.Value
import RoutingRules.Number.Text

/-!
# Printing JSON

The compact form of a JSON value, without any spaces, and the indented form, which gives every
item and field a line of its own and indents by two spaces a level.
-/

namespace RoutingRules.Json

/-! ## Leaves -/

/-- Exponents carry their sign. -/
def exponentStyle : Number.ExponentStyle :=
  .signed

/-- A control character as four hexadecimal digits. -/
def controlEscape (c : Char) : List Char :=
  ['\\', 'u'] ++ Number.zeroPadded 4 (Nat.toDigits 16 c.toNat)

/-- One character of a string. -/
def escapeChar (c : Char) : List Char :=
  if c = '"' then ['\\', '"']
  else if c = '\\' then ['\\', '\\']
  else if c = '\x08' then ['\\', 'b']
  else if c = '\x0c' then ['\\', 'f']
  else if c = '\n' then ['\\', 'n']
  else if c = '\r' then ['\\', 'r']
  else if c = '\t' then ['\\', 't']
  else if c.toNat < 0x20 then controlEscape c
  else [c]

/-- A string between quotation marks. -/
def renderText (s : String) : String :=
  String.ofList ('"' :: s.toList.flatMap escapeChar ++ ['"'])

/-- A truth value. -/
def renderBool (b : Bool) : String :=
  if b then "true" else "false"

/-! ## Compact form -/

mutual

/-- The compact form of a value. -/
def compact : Json → String
  | .null => "null"
  | .bool b => renderBool b
  | .int i => Number.decimalInt i
  | .float x => x.render exponentStyle
  | .str s => renderText s
  | .arr items => "[" ++ compactItems items ++ "]"
  | .obj fields => "\x7b" ++ compactFields fields ++ "\x7d"

/-- Items separated by commas. -/
def compactItems : List Json → String
  | [] => ""
  | [v] => compact v
  | v :: w :: rest => compact v ++ "," ++ compactItems (w :: rest)

/-- Fields separated by commas. -/
def compactFields : List (String × Json) → String
  | [] => ""
  | [(k, v)] => renderText k ++ ":" ++ compact v
  | (k, v) :: f :: rest => renderText k ++ ":" ++ compact v ++ "," ++ compactFields (f :: rest)

end

/-! ## Indented form -/

/-- The start of a line at a level of nesting. -/
def lineAt (level : Nat) : String :=
  String.ofList ('\n' :: List.replicate (2 * level) ' ')

mutual

/-- The indented form of a value that stands at a level of nesting. -/
def indented (level : Nat) : Json → String
  | .null => "null"
  | .bool b => renderBool b
  | .int i => Number.decimalInt i
  | .float x => x.render exponentStyle
  | .str s => renderText s
  | .arr [] => "[]"
  | .arr (v :: rest) => "[" ++ indentedItems (level + 1) (v :: rest) ++ lineAt level ++ "]"
  | .obj [] => "\x7b\x7d"
  | .obj (f :: rest) =>
    "\x7b" ++ indentedFields (level + 1) (f :: rest) ++ lineAt level ++ "\x7d"

/-- Items on lines of their own. -/
def indentedItems (level : Nat) : List Json → String
  | [] => ""
  | [v] => lineAt level ++ indented level v
  | v :: w :: rest => lineAt level ++ indented level v ++ "," ++ indentedItems level (w :: rest)

/-- Fields on lines of their own. -/
def indentedFields (level : Nat) : List (String × Json) → String
  | [] => ""
  | [(k, v)] => lineAt level ++ renderText k ++ ": " ++ indented level v
  | (k, v) :: f :: rest =>
    lineAt level ++ renderText k ++ ": " ++ indented level v ++ "," ++
      indentedFields level (f :: rest)

end

/-- The indented form of a document. -/
def pretty (v : Json) : String :=
  indented 0 v

end RoutingRules.Json
