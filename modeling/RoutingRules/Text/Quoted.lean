import RoutingRules.Text.Printable
import RoutingRules.Number.Natural

/-!
# Quoted texts in messages

Messages that show a text from the input put it between quotation marks and escape what could
not be seen or would end the quotation.
-/

namespace RoutingRules.Text

/-- The hexadecimal digits of a code point in braces. -/
def codePointEscape (c : Char) : List Char :=
  ['\\', 'u', '{'] ++ Nat.toDigits 16 c.toNat ++ ['}']

/-- One character of a quotation. -/
def quoteChar (c : Char) : List Char :=
  if c = '\x00' then ['\\', '0']
  else if c = '\t' then ['\\', 't']
  else if c = '\r' then ['\\', 'r']
  else if c = '\n' then ['\\', 'n']
  else if c = '\\' ∨ c = '"' then ['\\', c]
  else if isExtender c then codePointEscape c
  else if isPrintable c then [c]
  else codePointEscape c

/-- A text between quotation marks. -/
def quoted (s : String) : String :=
  String.ofList ('"' :: s.toList.flatMap quoteChar ++ ['"'])

end RoutingRules.Text
