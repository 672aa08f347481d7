import RoutingRules.Yaml.Print.Scalar

/-!
# Printing YAML documents

Collections are written as blocks, with two spaces for each level; the items of a sequence that
is the value of a key are not indented.  Only empty collections are written in brackets.  A key
that is a collection, or too long to be found by a reader, gets a question mark in front.

The text of a value starts behind an indicator or a key and ends at the end of its last line.
-/

namespace RoutingRules.Yaml.Print

/-! ## Words -/

/-- A value that is written as one word, save for texts. -/
def word? : Yaml → Option (List Char)
  | .null => some "null".toList
  | .bool b => some (boolText b).toList
  | .int i => some (Number.decimalInt i).toList
  | .real x => some x.text.toList
  | .seq [] => some ['[', ']']
  | .map [] => some ['{', '}']
  | _ => none

/-- Whether a character of a tag is written as it is. -/
def isTagChar (c : Char) : Bool :=
  isNameChar c || ";/?:@&=+$,_.~*()[]".toList.contains c || c = '\x27'

/-- The part of the name of a tag that follows the exclamation mark of its written form.  A mark
with which the name starts is that mark. -/
def behindTagMark (name : String) : List Char :=
  match name.toList with
  | '!' :: rest => rest
  | cs => cs

/-- The written form of a tag. -/
def tagMark (name : String) : List Char :=
  let suffix := behindTagMark name
  if suffix = [] then "!<%21>".toList
  else '!' :: suffix.flatMap fun c => if isTagChar c then [c] else Text.escaped c

/-- The longest key in octets that is written without a question mark. -/
def longestKey : Nat :=
  128

/-- A key that is written as one word, with its length in octets. -/
def keyWord? : Yaml → Option (List Char × Nat)
  | .str text =>
    let cs := text.toList
    if cs.any isBreak then none
    else
      let written :=
        match styleOf text with
        | .plain => cs
        | .singleQuoted => singleQuoted 0 cs
        | _ => doubleQuoted cs
      some (written, text.utf8ByteSize)
  | .tagged tag value =>
    (keyWord? value).map fun (cs, length) =>
      (tagMark tag ++ ' ' :: cs, length + 1 + (String.ofList (behindTagMark tag)).utf8ByteSize)
  | .seq [] => some (['[', ']'], 0)
  | .map [] => some (['{', '}'], 0)
  | value => (word? value).map fun cs => (cs, cs.length)

/-- A key that needs no question mark. -/
def simpleKey? (key : Yaml) : Option (List Char) :=
  (keyWord? key).bind fun (cs, length) => if length ≤ longestKey then some cs else none

/-! ## Collections -/

mutual

/-- A value behind its key, in a mapping at a column. -/
def behindKey (column : Nat) : Yaml → List Char
  | .seq (item :: items) => '\n' :: spaces column ++ sequence column (item :: items)
  | .map (entry :: entries) =>
    '\n' :: spaces (column + 2) ++ mapping (column + 2) (entry :: entries)
  | .tagged tag value => ' ' :: tagMark tag ++ behindKey column value
  | .str text => ' ' :: textLine (column + 2) text
  | value => ' ' :: ((word? value).getD [] ++ ['\n'])

/-- A value behind a hyphen, a question mark or the colon that answers it, at a column.  With a tag
the value looks as it does behind a key, unless the sign is a hyphen. -/
def behindSign (hyphen : Bool) (column : Nat) : Yaml → List Char
  | .seq (item :: items) => ' ' :: sequence (column + 2) (item :: items)
  | .map (entry :: entries) => ' ' :: mapping (column + 2) (entry :: entries)
  | .tagged tag value =>
    ' ' :: tagMark tag ++ if hyphen then behindTag column value else behindKey column value
  | .str text => ' ' :: textLine (column + 2) text
  | value => ' ' :: ((word? value).getD [] ++ ['\n'])

/-- A value behind the tag that follows a hyphen. -/
def behindTag (column : Nat) : Yaml → List Char
  | .seq (item :: items) =>
    '\n' :: spaces (column + 2) ++ sequence (column + 2) (item :: items)
  | .map (entry :: entries) =>
    '\n' :: spaces (column + 2) ++ mapping (column + 2) (entry :: entries)
  | .tagged tag value => ' ' :: tagMark tag ++ behindTag column value
  | .str text => ' ' :: textLine (column + 2) text
  | value => ' ' :: ((word? value).getD [] ++ ['\n'])

/-- The items of a sequence at a column; the first hyphen stands where the text starts. -/
def sequence (column : Nat) : List Yaml → List Char
  | [] => []
  | [item] => '-' :: behindSign true column item
  | item :: next :: items =>
    '-' :: behindSign true column item ++ spaces column ++ sequence column (next :: items)

/-- The entries of a mapping at a column; the first key stands where the text starts. -/
def mapping (column : Nat) : List (Yaml × Yaml) → List Char
  | [] => []
  | [(key, value)] =>
    match simpleKey? key with
    | some cs => cs ++ ':' :: behindKey column value
    | none =>
      '?' :: behindSign false column key ++ spaces column ++ ':' :: behindSign false column value
  | (key, value) :: next :: entries =>
    (match simpleKey? key with
      | some cs => cs ++ ':' :: behindKey column value
      | none =>
        '?' :: behindSign false column key ++ spaces column ++
          ':' :: behindSign false column value) ++
      spaces column ++ mapping column (next :: entries)

end

/-! ## What can be written -/

/-- Whether a value can be the key of the only entry of a mapping without a tag.  Such a mapping is
told from a tag and its value by its key, which must not raise the same question again. -/
def canStandAlone : Yaml → Bool
  | .tagged _ _ => false
  | .map [_] => false
  | _ => true

/-- Whether the key of the only entry of a mapping can be told from a tag. -/
def isClear : List (Yaml × Yaml) → Bool
  | [(key, _)] => canStandAlone key
  | _ => true

mutual

/-- Whether a value can be written. -/
def isWritable : Yaml → Bool
  | .seq items => areWritableItems items
  | .map entries => isClear entries && areWritableEntries entries
  | .tagged _ value => isWritableBehindTag value
  | _ => true

/-- Whether a value can be written behind a tag, which has to be the only one. -/
def isWritableBehindTag : Yaml → Bool
  | .seq items => areWritableItems items
  | .map entries => areWritableEntries entries
  | .tagged _ _ => false
  | _ => true

/-- Whether all items can be written. -/
def areWritableItems : List Yaml → Bool
  | [] => true
  | item :: items => isWritable item && areWritableItems items

/-- Whether all keys and values of entries can be written. -/
def areWritableEntries : List (Yaml × Yaml) → Bool
  | [] => true
  | (key, value) :: entries => isWritable key && isWritable value && areWritableEntries entries

end

/-! ## Documents -/

mutual

/-- Whether the last text of a value keeps line breaks at its end, so that the end of the document
has to be marked. -/
def isOpen : Yaml → Bool
  | .str text => styleOf text = .literal && chompingHint text.toList = ['+']
  | .seq items => isOpenItems items
  | .map entries => isOpenEntries entries
  | .tagged _ value => isOpen value
  | _ => false

/-- Whether the last item of a sequence is open at its end. -/
def isOpenItems : List Yaml → Bool
  | [] => false
  | [item] => isOpen item
  | _ :: item :: items => isOpenItems (item :: items)

/-- Whether the last entry of a mapping is open at its end. -/
def isOpenEntries : List (Yaml × Yaml) → Bool
  | [] => false
  | [(_, value)] => isOpen value
  | _ :: entry :: entries => isOpenEntries (entry :: entries)

end

/-- The text of a document that is a mapping, if that can be written. -/
def document? (entries : List (Yaml × Yaml)) : Option String :=
  let body := if entries.isEmpty then ['{', '}', '\n'] else mapping 0 entries
  let tail := if isOpenEntries entries then "...\n".toList else []
  if isWritable (.map entries) then some (String.ofList (body ++ tail)) else none

end RoutingRules.Yaml.Print
