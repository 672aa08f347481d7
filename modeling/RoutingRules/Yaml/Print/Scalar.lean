import RoutingRules.Yaml.Cursor
import RoutingRules.Yaml.Scalar

/-!
# Printing scalars

A text is written plain if it reads back as it is, and quoted or as a block of lines otherwise.
-/

namespace RoutingRules.Yaml.Print

/-! ## What a text consists of -/

/-- Whether a character can be written without an escape. -/
def isPrintable (c : Char) : Bool :=
  let n := c.toNat
  n == 0x0A || (0x20 ≤ n && n ≤ 0x7E) || (0xA0 ≤ n && n ≤ 0xFFFD && n ≠ 0xFEFF) || 0x10000 ≤ n

/-- Whether white space, a line break or nothing at all is next. -/
def blankNext (cs : List Char) : Bool :=
  endsWord cs.head?

/-- Whether the first character of a text, with `rest` behind it, means something other than
itself. -/
def leadingSign (c : Char) (rest : List Char) : Bool :=
  (['{', '}'] ++ "#,[]&*!|>\x27\"%@`".toList).contains c ||
    ((c = '?' || c = ':' || c = '-') && blankNext rest)

/-- Whether a colon that ends a word or a hash sign that starts one occurs behind the first
character of a text; `blank` says whether white space came before. -/
def innerSign (blank : Bool) : List Char → Bool
  | [] => false
  | c :: rest =>
    (c = ':' && blankNext rest) || (c = '#' && blank) || innerSign (endsWord (some c)) rest

/-- Whether a text looks like the mark of the start or the end of a document. -/
def startsLikeMark (cs : List Char) : Bool :=
  cs.take 3 = ['-', '-', '-'] || cs.take 3 = ['.', '.', '.']

/-- Whether a character satisfying `p` comes right before one that satisfies `q`. -/
def hasPair (p q : Char → Bool) : List Char → Bool
  | [] => false
  | c :: rest => (p c && rest.head?.any q) || hasPair p q rest

/-- Whether a text has characters that can only be written with escapes. -/
def needsEscapes (cs : List Char) : Bool :=
  !cs.all isPrintable

/-- Whether there is a space in front of a line break. -/
def spaceBeforeBreak (cs : List Char) : Bool :=
  hasPair (· = ' ') isBreak cs

/-- Whether there is a space behind a line break. -/
def breakBeforeSpace (cs : List Char) : Bool :=
  hasPair isBreak (· = ' ') cs

/-- Whether a text starts or ends with a space or a line break. -/
def hasBlankEnd (cs : List Char) : Bool :=
  let blank := fun c => c = ' ' || isBreak c
  cs.head?.any blank || cs.getLast?.any blank

/-- Whether a text can be written plain. -/
def plainAllowed (cs : List Char) : Bool :=
  match cs with
  | [] => true
  | c :: rest =>
    !(startsLikeMark cs || leadingSign c rest || innerSign (endsWord (some c)) rest ||
      hasBlankEnd cs || needsEscapes cs || cs.any isBreak)

/-- Whether a text can be written between single quotation marks. -/
def singleAllowed (cs : List Char) : Bool :=
  !(needsEscapes cs || spaceBeforeBreak cs || breakBeforeSpace cs)

/-- Whether a text can be written as a block of lines. -/
def blockAllowed (cs : List Char) : Bool :=
  !(cs.getLast? = some ' ' || needsEscapes cs || spaceBeforeBreak cs)

/-- Whether a text would not read back as a text if it were written plain. -/
def looksTyped (text : String) : Bool :=
  match ofPlain text with
  | some (.str _) => isZeroPadded text.toList
  | _ => true

/-- The style of a text. -/
def styleOf (text : String) : ScalarStyle :=
  let cs := text.toList
  let quoted := if singleAllowed cs then ScalarStyle.singleQuoted else .doubleQuoted
  if '\n' ∈ cs then if blockAllowed cs then .literal else .doubleQuoted
  else if !looksTyped text && plainAllowed cs then .plain
  else quoted

/-! ## Writing -/

/-- Spaces. -/
def spaces (count : Nat) : List Char :=
  List.replicate count ' '

/-- The escape of a character that cannot be written as it is. -/
def escape (c : Char) : List Char :=
  let n := c.toNat
  let short := fun d : Char => ['\\', d]
  if n = 0x00 then short '0'
  else if n = 0x07 then short 'a'
  else if n = 0x08 then short 'b'
  else if n = 0x09 then short 't'
  else if n = 0x0A then short 'n'
  else if n = 0x0B then short 'v'
  else if n = 0x0C then short 'f'
  else if n = 0x0D then short 'r'
  else if n = 0x1B then short 'e'
  else if n = 0x85 then short 'N'
  else if n = 0xA0 then short '_'
  else if n = 0x2028 then short 'L'
  else if n = 0x2029 then short 'P'
  else if c = '"' || c = '\\' then short c
  else if n ≤ 0xFF then '\\' :: 'x' :: Number.capitalHex 2 n
  else if n ≤ 0xFFFF then '\\' :: 'u' :: Number.capitalHex 4 n
  else '\\' :: 'U' :: Number.capitalHex 8 n

/-- A text between double quotation marks. -/
def doubleQuoted (cs : List Char) : List Char :=
  let one := fun c =>
    if c = '"' || c = '\\' || isBreak c || !isPrintable c then escape c else [c]
  '"' :: cs.flatMap one ++ ['"']

/-- Characters between single quotation marks, where lines after the first are indented.  The flag
says that a line break came last. -/
def singleBody (indent : Nat) : Bool → List Char → List Char
  | broken, [] => if broken then spaces indent else []
  | broken, c :: rest =>
    if isBreak c then c :: singleBody indent true rest
    else
      let mark := if c = '\x27' then ['\x27', '\x27'] else [c]
      (if broken then spaces indent else []) ++ mark ++ singleBody indent false rest

/-- A text between single quotation marks. -/
def singleQuoted (indent : Nat) (cs : List Char) : List Char :=
  '\x27' :: singleBody indent false cs ++ ['\x27']

/-- The lines of a block, each with its indentation; empty lines have none. -/
def blockBody (indent : Nat) : Bool → List Char → List Char
  | _, [] => []
  | broken, c :: rest =>
    if isBreak c then c :: blockBody indent true rest
    else (if broken then spaces indent else []) ++ c :: blockBody indent false rest

/-- What the header of a block says about the line breaks at its end. -/
def chompingHint (cs : List Char) : List Char :=
  match cs.reverse with
  | last :: before =>
    if !isBreak last then ['-']
    else if before.head?.all isBreak then ['+']
    else []
  | [] => ['-']

/-- The header of a block.  It gives the indentation if the first line does not show it. -/
def blockHeader (cs : List Char) : List Char :=
  let hint := if cs.head?.any fun c => c = ' ' || isBreak c then ['2'] else []
  '|' :: hint ++ chompingHint cs

/-- Whether the written form of a text ends its line. -/
def endsLine (cs : List Char) : Bool :=
  cs.getLast?.any isBreak

/-- A text as a block of lines. -/
def block (indent : Nat) (cs : List Char) : List Char :=
  blockHeader cs ++ ['\n'] ++ blockBody indent true cs

/-- A text with the end of its line; lines after the first are indented. -/
def textLine (indent : Nat) (text : String) : List Char :=
  let cs := text.toList
  match styleOf text with
  | .plain => cs ++ ['\n']
  | .singleQuoted => singleQuoted indent cs ++ ['\n']
  | .literal => block indent cs ++ if endsLine cs then [] else ['\n']
  | _ => doubleQuoted cs ++ ['\n']

end RoutingRules.Yaml.Print
