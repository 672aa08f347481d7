import RoutingRules.Kind.Registry
import RoutingRules.Proofs.Result
import RoutingRules.Proofs.Text.Split

/-!
# Registering kinds

Kinds are registered in any order and any number of times.  A kind claims the words of all clients
for it, except for those that an earlier kind has claimed, so a word stands for the first registered
kind that has it.

Words are compared by their parts, which hyphens and underscores separate.  The registry keeps the
parts of a word as one text with spaces between them.  A space within a word is read from that text
as one more separator, though of the words of the clients none has a space.

Main results:

- Theorem {lit}`Kind.spellingKey_eq_iff`: words are compared by their parts, cut at spaces too.
- Theorem {lit}`Registry.find?_registerAll`: the first registered kind with a word keeps it.
- Theorem {lit}`Registry.ofHistory_again`: to register a kind again changes nothing, now and later.
- Theorem {lit}`Registry.ofHistory_answers`: what a registry answers after any registrations, and
  for which words the spaces in them matter.
-/

namespace RoutingRules

namespace Kind

/-- All kinds are in the list of all kinds. -/
theorem mem_all (kind : Kind) : kind ∈ all := by
  cases kind <;> decide

/-! ## Parts of words -/

/-- The parts of a word between hyphens and underscores, in lowercase and without the empty ones. -/
def parts (token : String) : List String :=
  let cs := Text.lower (Text.trimChars token.toList)
  let pieces := Text.splitWhere (fun c => c = '-' || c = '_') cs
  (pieces.filter fun part => !part.isEmpty).map String.ofList

/-- The parts of a word, each of them cut at its spaces. -/
def spacedParts (token : String) : List String :=
  (parts token).flatMap (Text.pieces ' ')

/-- Whether a part of a word has a space. -/
def HasSpace (token : String) : Prop :=
  ∃ part ∈ parts token, ' ' ∈ part.toList

instance (token : String) : Decidable (HasSpace token) :=
  inferInstanceAs (Decidable (∃ part ∈ parts token, ' ' ∈ part.toList))

/-- Whether some client has a word with given parts for a kind. -/
def hasParts (ps : List String) (kind : Kind) : Bool :=
  kind.spellings.any fun word => parts word = ps

/-- Whether some client has a word for a kind that is registered under a key. -/
def hasKey (key : String) (kind : Kind) : Bool :=
  kind.spellings.any fun word => spellingKey word = key

theorem hasParts_iff {ps : List String} {kind : Kind} :
    kind.hasParts ps = true ↔ ∃ word ∈ kind.spellings, parts word = ps := by
  simp [hasParts]

theorem hasKey_iff {key : String} {kind : Kind} :
    kind.hasKey key = true ↔ ∃ word ∈ kind.spellings, spellingKey word = key := by
  simp [hasKey]

theorem ne_empty_of_mem_parts {token part : String} (h : part ∈ parts token) : part ≠ "" := by
  obtain ⟨cs, hcs, rfl⟩ := List.mem_map.1 h
  simpa using (List.mem_filter.1 hcs).2

/-- Words are compared by their parts, each of them cut at its spaces. -/
theorem spellingKey_eq_iff {s t : String} :
    spellingKey s = spellingKey t ↔ spacedParts s = spacedParts t := by
  have hkey : ∀ token, spellingKey token = Text.joinWith (String.singleton ' ') (parts token) :=
    fun _ => rfl
  rw [hkey, hkey]
  exact Text.joinWith_eq_iff (fun _ => ne_empty_of_mem_parts) fun _ => ne_empty_of_mem_parts

/-- Spaces do not matter in a word without them. -/
theorem spacedParts_of_not_hasSpace {token : String} (h : ¬HasSpace token) :
    spacedParts token = parts token := by
  have hsingle : ∀ part ∈ parts token, Text.pieces ' ' part = [part] := fun part hpart =>
    Text.pieces_of_not_mem fun hspace => h ⟨part, hpart, hspace⟩
  rw [spacedParts, List.flatMap_congr hsingle, List.flatMap_singleton']

/-- No client has a space in a word. -/
theorem not_hasSpace_of_mem_spellings {kind : Kind} : ∀ word ∈ kind.spellings, ¬HasSpace word := by
  have hall : ∀ kind ∈ all, ∀ word ∈ kind.spellings, ¬HasSpace word := by decide +kernel
  exact hall kind (mem_all kind)

/-- The kinds registered under the key of a word are those that have a word with its parts, each of
them cut at its spaces. -/
theorem hasKey_spellingKey (token : String) :
    hasKey (spellingKey token) = hasParts (spacedParts token) := by
  funext kind
  rw [Bool.eq_iff_iff, hasKey_iff, hasParts_iff]
  refine exists_congr fun word => and_congr_right fun hword => ?_
  rw [spellingKey_eq_iff, spacedParts_of_not_hasSpace (not_hasSpace_of_mem_spellings word hword)]

/-- No kind has the parts of a word with a space. -/
theorem hasParts_of_hasSpace {token : String} (h : HasSpace token) (kind : Kind) :
    kind.hasParts (parts token) = false := by
  refine eq_false_of_ne_true fun hparts => ?_
  obtain ⟨word, hword, heq⟩ := hasParts_iff.1 hparts
  refine not_hasSpace_of_mem_spellings word hword ?_
  rwa [HasSpace, heq]

end Kind

namespace Registry

/-! ## Claims -/

/-- A claimed key is that of the kind, unless it was that of another one before. -/
theorem find?_claim (registry : Registry) (key other : String) (kind : Kind) :
    (registry.claim key kind).find? other =
      (registry.find? other).or (if other = key then some kind else none) := by
  unfold claim
  split
  next htaken =>
    split
    next heq =>
      obtain ⟨old, hold⟩ := Option.isSome_iff_exists.1 (heq ▸ htaken)
      rw [hold, Option.some_or]
    next => rw [Option.or_none]
  next =>
    simp only [find?, List.find?_append, Option.map_or, List.find?_singleton, decide_eq_true_eq,
      @eq_comm _ key]
    split <;> rfl

/-- The same for several keys. -/
theorem find?_claimAll (registry : Registry) (keys : List String) (other : String) (kind : Kind) :
    (keys.foldl (fun r key => r.claim key kind) registry).find? other =
      (registry.find? other).or (if other ∈ keys then some kind else none) := by
  induction keys generalizing registry with
  | nil => simp
  | cons key keys ih =>
    rw [List.foldl_cons, ih, find?_claim, Option.or_assoc]
    by_cases hkey : other = key
    · simp [hkey]
    · simp [hkey]

/-- A kind that is registered has its words, except for those that were claimed before. -/
theorem find?_register (registry : Registry) (kind : Kind) (key : String) :
    (registry.register kind).find? key =
      (registry.find? key).or (if kind.hasKey key then some kind else none) := by
  simp only [register, find?_claimAll, Kind.hasKey_iff, List.mem_map]

/-- The first of several kinds with a word keeps it, unless it was claimed before. -/
theorem find?_registerAll (registry : Registry) (history : List Kind) (key : String) :
    (history.foldl register registry).find? key =
      (registry.find? key).or (history.find? (Kind.hasKey key)) := by
  induction history generalizing registry with
  | nil => simp
  | cons kind history ih =>
    rw [List.foldl_cons, ih, find?_register, Option.or_assoc]
    by_cases hkind : kind.hasKey key = true
    · rw [if_pos hkind, List.find?_cons_of_pos hkind, Option.some_or]
    · rw [if_neg hkind, List.find?_cons_of_neg hkind, Option.none_or]

/-- The registry after kinds were registered one after another. -/
def ofHistory (history : List Kind) : Registry :=
  history.foldl register empty

/-- The first registered kind with a word keeps it. -/
theorem find?_ofHistory (history : List Kind) (key : String) :
    (ofHistory history).find? key = history.find? (Kind.hasKey key) := by
  have hempty : empty.find? key = none := rfl
  rw [ofHistory, find?_registerAll, hempty, Option.none_or]

/-- A word has a kind if the kind is the first registered one with the word. -/
theorem lookup_eq_ok_iff {history : List Kind} {token : String} {kind : Kind} :
    (ofHistory history).lookup token = .ok kind ↔
      history.find? (Kind.hasKey (Kind.spellingKey token)) = some kind := by
  rw [lookup, find?_ofHistory]
  cases history.find? (Kind.hasKey (Kind.spellingKey token)) <;> simp

/-- The registry of all kinds is that after all of them were registered in their order. -/
theorem standard_eq : standard = ofHistory Kind.all :=
  rfl

/-! ## Registering again -/

/-- A kind all of whose words are claimed is registered without a change. -/
theorem register_of_claimed {registry : Registry} {kind : Kind}
    (h : ∀ word ∈ kind.spellings, (registry.find? (Kind.spellingKey word)).isSome = true) :
    registry.register kind = registry := by
  have hkeys : ∀ key ∈ kind.spellings.map Kind.spellingKey, (registry.find? key).isSome = true :=
    List.forall_mem_map.2 h
  rw [register]
  generalize kind.spellings.map Kind.spellingKey = keys at hkeys
  induction keys with
  | nil => rfl
  | cons key keys ih =>
    obtain ⟨hkey, hothers⟩ := List.forall_mem_cons.1 hkeys
    rw [List.foldl_cons, claim, if_pos hkey]
    exact ih hothers

/-- To register a kind again changes nothing, whatever is registered later. -/
theorem ofHistory_again {history : List Kind} {kind : Kind} (h : kind ∈ history)
    (later : List Kind) : ofHistory (history ++ kind :: later) = ofHistory (history ++ later) := by
  have hclaimed : (ofHistory history).register kind = ofHistory history := by
    refine register_of_claimed fun word hword => ?_
    rw [find?_ofHistory, List.find?_isSome]
    exact ⟨kind, h, Kind.hasKey_iff.2 ⟨word, hword, rfl⟩⟩
  rw [ofHistory, List.foldl_append, List.foldl_cons, ofHistory, List.foldl_append]
  exact congrArg (List.foldl register · later) hclaimed

/-! ## Answers -/

/-- The kind of a word by its parts: the first registered kind that has a word with these parts. -/
def answer (history : List Kind) (ps : List String) (token : String) : Result Kind :=
  match history.find? (Kind.hasParts ps) with
  | some kind => .ok kind
  | none => .error (.unknownKind token)

/-- A registry answers by the parts of a word, each of them cut at its spaces. -/
theorem lookup_ofHistory (history : List Kind) (token : String) :
    (ofHistory history).lookup token = answer history (Kind.spacedParts token) token := by
  have hfind : (ofHistory history).find? (Kind.spellingKey token) =
      history.find? (Kind.hasParts (Kind.spacedParts token)) := by
    rw [find?_ofHistory, Kind.hasKey_spellingKey]
  unfold lookup answer
  cases h : history.find? (Kind.hasParts (Kind.spacedParts token)) with
  | none => rw [hfind, h]
  | some kind => rw [hfind, h]

/-- A registry contains the words that have an answer. -/
theorem contains_iff {registry : Registry} {token : String} :
    registry.contains token = true ↔ ∃ kind, registry.lookup token = .ok kind := by
  rw [contains, lookup]
  cases registry.find? (Kind.spellingKey token) <;> simp

/-- The parts of a word with a space have no answer. -/
theorem answer_of_hasSpace {token : String} (h : Kind.HasSpace token) (history : List Kind) :
    answer history (Kind.parts token) token = .error (.unknownKind token) := by
  have hnone : history.find? (Kind.hasParts (Kind.parts token)) = none :=
    List.find?_eq_none.2 fun kind _ => by simp [Kind.hasParts_of_hasSpace h kind]
  rw [answer, hnone]

/-- Whatever was registered, a word stands for the first registered kind that has a word with its
parts, each of them cut at its spaces.  By the parts alone the answer is the same, unless a part has
a space and the word is in the registry all the same.  The registry contains the words that have an
answer, and to register a kind again changes nothing, whatever is registered later. -/
theorem ofHistory_answers (history : List Kind) (token : String) :
    (ofHistory history).lookup token = answer history (Kind.spacedParts token) token ∧
      ((ofHistory history).lookup token = answer history (Kind.parts token) token ↔
        ¬(Kind.HasSpace token ∧ (ofHistory history).contains token = true)) ∧
      ((ofHistory history).contains token = true ↔
        ∃ kind, (ofHistory history).lookup token = .ok kind) ∧
      ∀ kind ∈ history, ∀ later,
        ofHistory (history ++ kind :: later) = ofHistory (history ++ later) := by
  refine ⟨lookup_ofHistory history token, ?_, contains_iff, fun kind h => ofHistory_again h⟩
  by_cases hspace : Kind.HasSpace token
  · rw [answer_of_hasSpace hspace, and_iff_right hspace, contains, lookup]
    cases (ofHistory history).find? (Kind.spellingKey token) <;> simp
  · rw [lookup_ofHistory, Kind.spacedParts_of_not_hasSpace hspace]
    exact iff_of_true rfl fun h => hspace h.1

/-- Both address families have the field of sing-box; the one that was registered first keeps it. -/
theorem ofHistory_answers_sharedField :
    Kind.ipCidr6 ∈ [Kind.ipCidr6, .ipCidr] ∧
      (ofHistory [.ipCidr6, .ipCidr]).lookup " IP__cidr" = .ok .ipCidr6 ∧
      (ofHistory [.ipCidr6, .ipCidr]).lookup " IP__cidr" =
        answer [.ipCidr6, .ipCidr] (Kind.parts " IP__cidr") " IP__cidr" ∧
      (ofHistory [.ipCidr6, .ipCidr]).contains " IP__cidr" = true ∧
      ofHistory [.ipCidr6, .ipCidr, .ipCidr6, .domain] = ofHistory [.ipCidr6, .ipCidr, .domain] := by
  obtain ⟨hlookup, hparts, hcontains, hagain⟩ :=
    ofHistory_answers [.ipCidr6, .ipCidr] " IP__cidr"
  have hmem : Kind.ipCidr6 ∈ [Kind.ipCidr6, .ipCidr] := by decide
  have hspace : ¬Kind.HasSpace " IP__cidr" := by decide +kernel
  have hfirst : (ofHistory [.ipCidr6, .ipCidr]).lookup " IP__cidr" = .ok .ipCidr6 :=
    hlookup.trans (Except.toOption_eq_some_iff.1 (by decide +kernel))
  exact ⟨hmem, hfirst, hparts.2 fun h => hspace h.1, hcontains.2 ⟨_, hfirst⟩,
    hagain .ipCidr6 hmem [.domain]⟩

/-- A space is no separator of parts, yet a word with a space is taken for one with a hyphen. -/
theorem ofHistory_spacedWord_has_answer :
    (ofHistory [.ipCidr]).lookup "ip cidr" = .ok .ipCidr ∧
      Kind.parts "ip cidr" = ["ip cidr"] ∧ Kind.parts "ip-cidr" = ["ip", "cidr"] ∧
      answer [.ipCidr] (Kind.parts "ip cidr") "ip cidr" = .error (.unknownKind "ip cidr") := by
  have hspace : Kind.HasSpace "ip cidr" := by decide +kernel
  have hlookup : (ofHistory [.ipCidr]).lookup "ip cidr" = .ok .ipCidr :=
    Except.toOption_eq_some_iff.1 (by decide +kernel)
  exact ⟨hlookup, by decide +kernel, by decide +kernel, answer_of_hasSpace hspace _⟩

end Registry

end RoutingRules
