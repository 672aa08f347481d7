import RoutingRules.Yaml.Node
import RoutingRules.Yaml.Token.Scan

/-!
# Reading nodes

Puts the tokens of a document together.  A production that finds nothing where a node may be left
out gives the empty scalar.
-/

namespace RoutingRules.Yaml

/-- A node that refers to others by the names of their anchors. -/
abbrev Written := Node String

/-- What is left of the tokens. -/
abbrev Tokens := List Token

/-- The meanings of the tag handles of a document. -/
abbrev Handles := List (String × List UInt8)

/-! ## Marks -/

/-- The tag that a handle and a suffix stand for. -/
def resolveTag (handles : Handles) (handle : String) (suffix : List UInt8) : Option Tag :=
  if handle = "" then some ⟨suffix⟩
  else (handles.find? fun entry => entry.1 = handle).map fun entry => ⟨entry.2 ++ suffix⟩

/-- Read an anchor and a tag, in any order. -/
def takeMarks (handles : Handles) : Tokens → Option (Marks × Tokens)
  | .anchor name :: .tag handle suffix :: rest =>
    (resolveTag handles handle suffix).map fun tag => (⟨some name, some tag⟩, rest)
  | .anchor name :: rest => some (⟨some name, none⟩, rest)
  | .tag handle suffix :: .anchor name :: rest =>
    (resolveTag handles handle suffix).map fun tag => (⟨some name, some tag⟩, rest)
  | .tag handle suffix :: rest =>
    (resolveTag handles handle suffix).map fun tag => (⟨none, some tag⟩, rest)
  | rest => some (.none, rest)

/-- Whether the next token is one of those that show that a node was left out. -/
def nodeLeftOut (closing : List Token) (ts : Tokens) : Bool :=
  ts.head?.any closing.contains

/-! ## Nodes -/

mutual

/-- Read a node.  Block collections can only start where `block` says so, and items without
indentation only where `bare` does. -/
def takeNode (handles : Handles) : Nat → Bool → Bool → Tokens → Option (Written × Tokens)
  | 0, _, _, _ => none
  | fuel + 1, block, bare, ts =>
    match ts with
    | .reference name :: rest => some (.reference name, rest)
    | _ =>
      match takeMarks handles ts with
      | none => none
      | some (marks, ts) =>
        match ts with
        | .scalar style text :: rest => some (.scalar marks style text, rest)
        | .flowSequenceStart :: rest =>
          (takeFlowItems handles fuel true rest).map fun (items, rest) => (.seq marks items, rest)
        | .flowMappingStart :: rest =>
          (takeFlowEntries handles fuel true rest).map fun (entries, rest) =>
            (.map marks entries, rest)
        | _ =>
          if bare && ts.head? = some .blockEntry then
            (takeBareItems handles fuel ts).map fun (items, rest) => (.seq marks items, rest)
          else if block && ts.head? = some .blockSequenceStart then
            (takeItems handles fuel ts.tail).map fun (items, rest) => (.seq marks items, rest)
          else if block && ts.head? = some .blockMappingStart then
            (takeEntries handles fuel ts.tail).map fun (entries, rest) =>
              (.map marks entries, rest)
          else if marks = .none then none
          else some (.scalar marks .plain "", ts)

/-- Read a node, or the empty scalar in front of one of the tokens `closing`. -/
def takeOptional (handles : Handles) :
    Nat → Bool → Bool → List Token → Tokens → Option (Written × Tokens)
  | 0, _, _, _, _ => none
  | fuel + 1, block, bare, closing, ts =>
    if nodeLeftOut closing ts then some (.empty, ts) else takeNode handles fuel block bare ts

/-- Read the items of a block sequence. -/
def takeItems (handles : Handles) : Nat → Tokens → Option (List Written × Tokens)
  | 0, _ => none
  | fuel + 1, ts =>
    match ts with
    | .blockEntry :: rest =>
      match takeOptional handles fuel true false [.blockEntry, .blockEnd] rest with
      | none => none
      | some (item, rest) =>
        (takeItems handles fuel rest).map fun (items, rest) => (item :: items, rest)
    | .blockEnd :: rest => some ([], rest)
    | _ => none

/-- Read the items of a sequence that is not indented within its mapping. -/
def takeBareItems (handles : Handles) : Nat → Tokens → Option (List Written × Tokens)
  | 0, _ => none
  | fuel + 1, ts =>
    match ts with
    | .blockEntry :: rest =>
      match takeOptional handles fuel true false [.blockEntry, .key, .value, .blockEnd] rest with
      | none => none
      | some (item, rest) =>
        (takeBareItems handles fuel rest).map fun (items, rest) => (item :: items, rest)
    | _ => some ([], ts)

/-- Read the entries of a block mapping. -/
def takeEntries (handles : Handles) : Nat → Tokens → Option (List (Written × Written) × Tokens)
  | 0, _ => none
  | fuel + 1, ts =>
    match ts with
    | .key :: rest =>
      match takeOptional handles fuel true true [.key, .value, .blockEnd] rest with
      | none => none
      | some (key, rest) =>
        match takeValue handles fuel rest with
        | none => none
        | some (value, rest) =>
          (takeEntries handles fuel rest).map fun (entries, rest) => ((key, value) :: entries, rest)
    | .blockEnd :: rest => some ([], rest)
    | _ => none

/-- Read the value of an entry of a block mapping. -/
def takeValue (handles : Handles) : Nat → Tokens → Option (Written × Tokens)
  | 0, _ => none
  | fuel + 1, ts =>
    match ts with
    | .value :: rest => takeOptional handles fuel true true [.key, .value, .blockEnd] rest
    | _ => some (.empty, ts)

/-- Read the items of a flow sequence; all but the first one follow a comma.  An item written as a
key is a mapping with a single entry. -/
def takeFlowItems (handles : Handles) : Nat → Bool → Tokens → Option (List Written × Tokens)
  | 0, _, _ => none
  | fuel + 1, first, ts =>
    match ts with
    | .flowSequenceEnd :: rest => some ([], rest)
    | _ =>
      match if first then some ts else if ts.head? = some .flowEntry then some ts.tail else none with
      | none => none
      | some ts =>
        match ts with
        | .flowSequenceEnd :: rest => some ([], rest)
        | .key :: rest =>
          match takeSingleEntry handles fuel rest with
          | none => none
          | some (item, rest) =>
            (takeFlowItems handles fuel false rest).map fun (items, rest) => (item :: items, rest)
        | _ =>
          match takeNode handles fuel false false ts with
          | none => none
          | some (item, rest) =>
            (takeFlowItems handles fuel false rest).map fun (items, rest) => (item :: items, rest)

/-- Read the only entry of a mapping that is an item of a flow sequence.  Where its key is left out,
the token that shows this is passed over. -/
def takeSingleEntry (handles : Handles) : Nat → Tokens → Option (Written × Tokens)
  | 0, _ => none
  | fuel + 1, ts =>
    let key :=
      if nodeLeftOut [.value, .flowEntry, .flowSequenceEnd] ts then some (.empty, ts.tail)
      else takeNode handles fuel false false ts
    match key with
    | none => none
    | some (key, ts) =>
      match takeFlowValue handles fuel [.flowEntry, .flowSequenceEnd] ts with
      | none => none
      | some (value, rest) => some (.map .none [(key, value)], rest)

/-- Read the value of an entry of a flow collection, which can be left out. -/
def takeFlowValue (handles : Handles) : Nat → List Token → Tokens → Option (Written × Tokens)
  | 0, _, _ => none
  | fuel + 1, closing, ts =>
    match ts with
    | .value :: rest => takeOptional handles fuel false false closing rest
    | _ => some (.empty, ts)

/-- Read the entries of a flow mapping; all but the first one follow a comma.  An entry may be a
key alone. -/
def takeFlowEntries (handles : Handles) :
    Nat → Bool → Tokens → Option (List (Written × Written) × Tokens)
  | 0, _, _ => none
  | fuel + 1, first, ts =>
    match ts with
    | .flowMappingEnd :: rest => some ([], rest)
    | _ =>
      match if first then some ts else if ts.head? = some .flowEntry then some ts.tail else none with
      | none => none
      | some ts =>
        match ts with
        | .flowMappingEnd :: rest => some ([], rest)
        | .key :: rest =>
          match takeOptional handles fuel false false [.value, .flowEntry, .flowMappingEnd] rest with
          | none => none
          | some (key, rest) =>
            match takeFlowValue handles fuel [.flowEntry, .flowMappingEnd] rest with
            | none => none
            | some (value, rest) =>
              (takeFlowEntries handles fuel false rest).map fun (entries, rest) =>
                ((key, value) :: entries, rest)
        | _ =>
          match takeNode handles fuel false false ts with
          | none => none
          | some (key, rest) =>
            (takeFlowEntries handles fuel false rest).map fun (entries, rest) =>
              ((key, .empty) :: entries, rest)

end

/-! ## Documents -/

/-- The handles that every document knows. -/
def standardHandles : Handles :=
  [("!", Tag.mark), ("!!", (Tag.standard "").octets)]

/-- Read the directives in front of a document.  The version may be given once, a handle may be
given one meaning, and no other directives are known. -/
def takeDirectives : Bool → Handles → Tokens → Option (Handles × Tokens)
  | versioned, handles, .version major minor :: rest =>
    if versioned || major ≠ 1 || (minor ≠ 1 && minor ≠ 2) then none
    else takeDirectives true handles rest
  | versioned, handles, .tagHandle handle front :: rest =>
    if handles.any fun entry => entry.1 = handle then none
    else takeDirectives versioned (handles ++ [(handle, front)]) rest
  | _, handles, rest => some (handles, rest)

/-- The tokens behind the marks that end a document. -/
def afterDocument (ts : Tokens) : Tokens :=
  ts.dropWhile (· = .documentEnd)

/-- Whether only one document is there, and this is behind it. -/
def atStreamEnd (ts : Tokens) : Bool :=
  (afterDocument ts).head? = some .streamEnd

/-- Read the node of a document that starts with a mark, behind its directives. -/
def takeMarkedDocument (handles : Handles) (fuel : Nat) : Tokens → Option (Written × Tokens)
  | .documentStart :: rest =>
    let leftOut := nodeLeftOut [.documentStart, .documentEnd, .streamEnd] rest ||
      match rest.head? with
      | some (.version _ _) | some (.tagHandle _ _) => true
      | _ => false
    if leftOut then some (.empty, rest) else takeNode handles fuel true false rest
  | _ => none

/-- The handles that a document knows besides those that its directives give. -/
def withStandard (handles : Handles) : Handles :=
  handles ++ standardHandles.filter fun entry => handles.all fun other => other.1 ≠ entry.1

/-- Read the node of the first document. -/
def takeDocument (ts : Tokens) : Option (Written × Tokens) :=
  let fuel := 3 * ts.length + 3
  match ts.head? with
  | some (.version _ _) | some (.tagHandle _ _) | some .documentStart => do
    let (handles, rest) ← takeDirectives false [] ts
    takeMarkedDocument (withStandard handles) fuel rest
  | _ => takeNode standardHandles fuel true false ts

namespace Node

/-- The node of a text that holds one document; there is none in a text without documents. -/
def ofText? (text : String) : Option (Option Written) := do
  let ts ← tokens? text
  if ts = [.streamEnd] then return none
  let (node, rest) ← takeDocument ts
  if atStreamEnd rest then return some node else none

end Node

end RoutingRules.Yaml
